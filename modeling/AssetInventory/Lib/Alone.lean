import AssetInventory.Lib.ReadCommitted

/-!
# Requests one after the other

When no other transaction runs, a program is a function of what has been committed and of what it is
answered.

* `Prog.alone`: the program as this function, with the rules `alone_select`, `alone_update` and so on to
  evaluate it, and `alone_bind` for parts that are evaluated apart.
* `Prog.CommitsKeep`: every commit of the program keeps a property of the data, with rules of its own.
* `serveAlone`, `serveStep`: whole requests, one after the other.
* `runs_of_serve`: requests one after the other are one of the interleavings.
-/

namespace ReadCommitted

open Interleaving

/-- A transaction while no other one runs. -/
structure Alone (D W E : Type) where
  /-- What has been committed. -/
  data : D
  /-- What it has written since. -/
  pending : List W
  /-- How many numbers have been drawn. -/
  drawn : ℕ
  /-- What it will be answered. -/
  answers : ℕ → E

variable {D K W E V Req α β : Type} [Applies W D]

/-- What the transaction sees. -/
def Alone.view (x : Alone D W E) : D := applyAll x.pending x.data

/-- **The program while no other one runs.** -/
def Prog.alone : Prog D K W E V α → Alone D W E → α × Alone D W E
  | .ret a, x => (a, x)
  | .read next, x => (next x.view).alone x
  | .ask next, x => (next (x.answers 0)).alone { x with answers := fun i => x.answers (i + 1) }
  | .draw next, x => (next x.drawn).alone { x with drawn := x.drawn + 1 }
  | .write _ writes next, x =>
    (next x.view).alone { x with pending := x.pending ++ writes x.view }
  | .commit _ next, x => next.alone { x with data := x.view, pending := [] }
  | .rollback next, x => next.alone { x with pending := [] }
  | .unlock _ next, x => next.alone x

/-! ## Rules for the statements, as they stand in a `do` block -/

section Rules

variable (x : Alone D W E) (f : β → Prog D K W E V α)

theorem alone_bind (m : Prog D K W E V β) :
    (m >>= f).alone x = (f (m.alone x).1).alone (m.alone x).2 := by
  change (m.bind f).alone x = _
  induction m generalizing x with
  | ret a => rfl
  | read next ih => exact ih _ _
  | ask next ih => exact ih _ _
  | draw next ih => exact ih _ _
  | write row writes next ih => exact ih _ _
  | commit note next ih => exact ih _
  | rollback next ih => exact ih _
  | unlock row next ih => exact ih _

@[simp] theorem alone_pure (a : α) : (pure a : Prog D K W E V α).alone x = (a, x) := rfl

@[simp] theorem alone_select (query : D → β) :
    (Prog.select query >>= f).alone x = (f (query x.view)).alone x := rfl

@[simp] theorem alone_answer (query : E → β) : (Prog.answer query >>= f).alone x =
      (f (query (x.answers 0))).alone { x with answers := fun i => x.answers (i + 1) } := rfl

@[simp] theorem alone_update (f : D → Prog D K W E V α) (row : K) (writes : D → List W) :
    (Prog.update row writes >>= f).alone x =
      (f x.view).alone { x with pending := x.pending ++ writes x.view } := rfl

@[simp] theorem alone_insert (f : Unit → Prog D K W E V α) (w : W) :
    (Prog.insert w >>= f).alone x = (f ()).alone { x with pending := x.pending ++ [w] } := rfl

@[simp] theorem alone_publish (f : Unit → Prog D K W E V α) (note : List V) :
    (Prog.publish note >>= f).alone x = (f ()).alone { x with data := x.view, pending := [] } := rfl

end Rules

/-! ## What the commits keep -/

/-- Every commit of the program, run alone, keeps `I`; at the end `Q` holds. -/
def Prog.CommitsKeep (I : D → Prop) : Prog D K W E V α → (α → Alone D W E → Prop) →
    Alone D W E → Prop
  | .ret a, Q, x => Q a x
  | .read next, Q, x => (next x.view).CommitsKeep I Q x
  | .ask next, Q, x =>
    (next (x.answers 0)).CommitsKeep I Q { x with answers := fun i => x.answers (i + 1) }
  | .draw next, Q, x => (next x.drawn).CommitsKeep I Q { x with drawn := x.drawn + 1 }
  | .write _ writes next, Q, x =>
    (next x.view).CommitsKeep I Q { x with pending := x.pending ++ writes x.view }
  | .commit _ next, Q, x =>
    I x.view ∧ next.CommitsKeep I Q { x with data := x.view, pending := [] }
  | .rollback next, Q, x => next.CommitsKeep I Q { x with pending := [] }
  | .unlock _ next, Q, x => next.CommitsKeep I Q x

section CommitsKeep

variable {I : D → Prop} {Q Q' : α → Alone D W E → Prop} {x : Alone D W E} {m : Prog D K W E V α}

theorem Prog.CommitsKeep.mono (h : m.CommitsKeep I Q x)
    (hQ : ∀ a y, Q a y → Q' a y) : m.CommitsKeep I Q' x := by
  induction m generalizing x with
  | ret a => exact hQ a x h
  | read next ih => exact ih _ h
  | ask next ih => exact ih _ h
  | draw next ih => exact ih _ h
  | write row writes next ih => exact ih _ h
  | commit note next ih => exact ⟨h.1, ih h.2⟩
  | rollback next ih => exact ih h
  | unlock row next ih => exact ih h

variable {f : β → Prog D K W E V α}

theorem Prog.CommitsKeep.bind {m : Prog D K W E V β}
    (h : m.CommitsKeep I (fun b => (f b).CommitsKeep I Q) x) : (m >>= f).CommitsKeep I Q x := by
  change (m.bind f).CommitsKeep I Q x
  induction m generalizing x with
  | ret a => exact h
  | read next ih => exact ih _ h
  | ask next ih => exact ih _ h
  | draw next ih => exact ih _ h
  | write row writes next ih => exact ih _ h
  | commit note next ih => exact ⟨h.1, ih h.2⟩
  | rollback next ih => exact ih h
  | unlock row next ih => exact ih h

/-- A part whose writes keep `P`: what the transaction sees satisfies `P` throughout, and so does what it
commits. -/
theorem Prog.Only.commitsKeep {P : D → Prop} {A : W → Prop} {B : List V → Prop} {C : α → Prop}
    (hm : m.Only A B C) (hA : ∀ w, A w → ∀ d, P d → P (Applies.apply w d))
    (hB : ∀ note, B note → ∀ d, P d → I d) (hx : P x.view) :
    m.CommitsKeep I (fun a y => C a ∧ P y.view) x := by
  induction m generalizing x with
  | ret a => exact ⟨hm, hx⟩
  | read next ih => exact ih _ (hm _) hx
  | ask next ih => exact ih _ (hm _) hx
  | draw next ih => exact ih _ (hm _) hx
  | write row writes next ih =>
    obtain ⟨hw, hnext⟩ := hm x.view
    refine ih _ hnext ?_
    change P (applyAll (x.pending ++ writes x.view) x.data)
    rw [applyAll_append]
    exact applyAll_invariant (fun w hmem d hd => hA w (hw w hmem) d hd) hx
  | commit note next ih => exact ⟨hB note hm.1 _ hx, ih hm.2 hx⟩
  | rollback next => exact hm.elim
  | unlock row next => exact hm.elim

theorem Prog.Only.commitsKeep_view {A : W → Prop} {B : List V → Prop} {C : α → Prop}
    (hm : m.Only A B C) (hA : ∀ w, A w → ∀ d, I d → I (Applies.apply w d))
    (hx : I x.view) : m.CommitsKeep I (fun a y => C a ∧ I y.view) x :=
  hm.commitsKeep hA (fun _ _ _ h => h) hx

theorem Prog.Only.commitsKeep_silent {P : D → Prop} {A : W → Prop} {C : α → Prop}
    (hm : m.Only A (fun _ => False) C)
    (hA : ∀ w, A w → ∀ d, P d → P (Applies.apply w d)) (hx : P x.view) :
    m.CommitsKeep I (fun a y => C a ∧ P y.view) x :=
  hm.commitsKeep hA (fun _ h => h.elim) hx

/-! Rules for the statements, as they stand in a `do` block. -/

theorem keeps_select (query : D → β)
    (h : (f (query x.view)).CommitsKeep I Q x) : (Prog.select query >>= f).CommitsKeep I Q x := h

theorem keeps_answer (query : E → β)
    (h : (f (query (x.answers 0))).CommitsKeep I Q { x with answers := fun i => x.answers (i + 1) }) :
    (Prog.answer query >>= f).CommitsKeep I Q x := h

theorem keeps_fresh {f : ℕ → Prog D K W E V α}
    (h : (f x.drawn).CommitsKeep I Q { x with drawn := x.drawn + 1 }) :
    (Prog.fresh >>= f).CommitsKeep I Q x := h

theorem keeps_update {f : D → Prog D K W E V α} (row : K) (writes : D → List W)
    (h : (f x.view).CommitsKeep I Q { x with pending := x.pending ++ writes x.view }) :
    (Prog.update row writes >>= f).CommitsKeep I Q x := h

variable {f : Unit → Prog D K W E V α}

theorem keeps_insert (w : W) (h : (f ()).CommitsKeep I Q { x with pending := x.pending ++ [w] }) :
    (Prog.insert w >>= f).CommitsKeep I Q x := h

theorem keeps_backtrack (row : K) (h : (f ()).CommitsKeep I Q x) :
    (Prog.backtrack row >>= f).CommitsKeep I Q x := h

theorem keeps_publish (note : List V) (hview : I x.view)
    (h : (f ()).CommitsKeep I Q { x with data := x.view, pending := [] }) :
    (Prog.publish note >>= f).CommitsKeep I Q x := ⟨hview, h⟩

theorem keeps_pure {a : α} (h : Q a x) : (pure a : Prog D K W E V α).CommitsKeep I Q x := h

/-- What the transaction sees does not depend on what else it has been told. -/
theorem Alone.view_mk (x : Alone D W E) (drawn : ℕ) (answers : ℕ → E) :
    (⟨x.data, x.pending, drawn, answers⟩ : Alone D W E).view = x.view := rfl

theorem Alone.view_append (x : Alone D W E) (ws : List W) :
    ({ x with pending := x.pending ++ ws } : Alone D W E).view = applyAll ws x.view :=
  applyAll_append x.pending ws x.data

theorem Alone.view_write (x : Alone D W E) (w : W) :
    ({ x with pending := x.pending ++ [w] } : Alone D W E).view = Applies.apply w x.view := by
  rw [Alone.view, applyAll_append]
  rfl

/-- **What every commit keeps holds in the end.** -/
theorem Prog.CommitsKeep.data (h : m.CommitsKeep I Q x) (hx : I x.data) : I (m.alone x).2.data := by
  induction m generalizing x with
  | ret a => exact hx
  | read next ih => exact ih _ h hx
  | ask next ih => exact ih _ h hx
  | draw next ih => exact ih _ h hx
  | write row writes next ih => exact ih _ h hx
  | commit note next ih => exact ih h.2 h.1
  | rollback next ih => exact ih h hx
  | unlock row next ih => exact ih h hx

theorem Prog.CommitsKeep.ends (h : m.CommitsKeep I Q x) : Q (m.alone x).1 (m.alone x).2 := by
  induction m generalizing x with
  | ret a => exact h
  | read next ih => exact ih _ h
  | ask next ih => exact ih _ h
  | draw next ih => exact ih _ h
  | write row writes next ih => exact ih _ h
  | commit note next ih => exact ih h.2
  | rollback next ih => exact ih h
  | unlock row next ih => exact ih h

end CommitsKeep

/-! ## Whole requests -/

/-- What has been committed, and how many numbers have been drawn. -/
structure AtRest (D : Type) where
  data : D
  drawn : ℕ

/-- A request, served while no other one is: its result and what it leaves.  What has not been committed
is dropped. -/
def serveAlone (handler : Req → Prog D K W E V α) (s : AtRest D) (request : Req) (answers : ℕ → E) :
    α × AtRest D :=
  let result := (handler request).alone ⟨s.data, [], s.drawn, answers⟩
  (result.1, ⟨result.2.data, result.2.drawn⟩)

/-- **Requests one after the other.** -/
def serveStep (handler : Req → Prog D K W E V α) (s : AtRest D) (action : Req × (ℕ → E)) :
    Option (AtRest D) := some (serveAlone handler s action.1 action.2).2

variable {G : AtRest D → Req × (ℕ → E) → Prop}

theorem invariant_of_served {handler : Req → Prog D K W E V α} {I : D → Prop}
    (hkeep : ∀ s request answers, I s.data → G s (request, answers) →
      (handler request).CommitsKeep I (fun _ _ => True) ⟨s.data, [], s.drawn, answers⟩)
    {s t : AtRest D} (hs : I s.data) (hrun : Runs (serveStep handler) G s t) : I t.data :=
  hrun.invariant (I := fun s => I s.data) (fun s action t hI hG hstep => by
    obtain ⟨request, answers⟩ := action
    obtain rfl := Option.some.inj hstep
    exact (hkeep s request answers hI hG).data hI) hs

/-! ## One of the interleavings -/

variable [DecidableEq K]

/-- No row is locked by another transaction. -/
def Store.AllFree (s : Store D K V) (p : TxId) : Prop := ∀ k, s.isFree p k = true

variable {s : Store D K V} {p : TxId}

omit [Applies W D] in
theorem Store.AllFree.lock (h : s.AllFree p) (row : Option K) : (s.lock p row).AllFree p := by
  intro k
  cases row with
  | none => exact h k
  | some j =>
    change (Function.update s.locks j (some p) k).all (fun q => decide (q = p)) = true
    by_cases hk : k = j
    · subst hk
      rw [Function.update_self]
      simp
    · rw [Function.update_of_ne hk]
      exact h k

omit [Applies W D] in
theorem Store.AllFree.unlock (h : s.AllFree p) (row : K) : (s.unlock p row).AllFree p := by
  intro k
  have hk := h k
  rw [Store.isFree] at hk ⊢
  simp only [Store.unlock]
  split
  · rfl
  · exact hk

omit [DecidableEq K] in
theorem Store.AllFree.release (h : s.AllFree p) : (s.release p).AllFree p := by
  intro k
  have hk := h k
  rw [Store.isFree] at hk ⊢
  simp only [Store.release]
  split
  · rfl
  · exact hk

/-- The transaction `p` comes to an end, and leaves what `y` says and no locks. -/
def EndsAs (handler : Req → Prog D K W E V Unit) (p : TxId) (g : Engine D K W E V)
    (y : Alone D W E) : Prop :=
  ∃ g', Runs (Engine.step handler) anyAction g g' ∧ (g'.txns p).prog = .ret () ∧
    (∀ q, q ≠ p → g'.txns q = g.txns q) ∧ g'.store.data = y.data ∧
    g'.store.drawn.length = y.drawn ∧ ∀ k, g'.store.locks k = none

variable {handler : Req → Prog D K W E V Unit} {g : Engine D K W E V}

theorem EndsAs.head {y : Alone D W E} (e : E) {t : Txn D K W E V}
    (hstep : (g.txns p).step p e g.store = some (s, t))
    (h : EndsAs handler p ⟨s, Function.update g.txns p t⟩ y) : EndsAs handler p g y := by
  obtain ⟨g', hrun, hprog, hothers, hend⟩ := h
  refine ⟨g', Runs.head (.run p e) trivial ?_ hrun, hprog, fun q hq => ?_, hend⟩
  · rw [Engine.step, hstep]
    rfl
  · rw [hothers q hq]
    exact Function.update_of_ne hq _ _

/-- **The statements of a transaction, one after the other**, and the end of its session. -/
theorem endsAs_alone (handler : Req → Prog D K W E V Unit) (m : Prog D K W E V Unit)
    (x : Alone D W E) (hprog : g.txns p = ⟨x.pending, session m⟩)
    (hdata : g.store.data = x.data) (hdrawn : g.store.drawn.length = x.drawn)
    (hfree : g.store.AllFree p) : EndsAs handler p g (m.alone x).2 := by
  have hview : g.store.view x.pending = x.view := by rw [Store.view, Alone.view, hdata]
  induction m generalizing x g with
  | ret a =>
    refine EndsAs.head (x.answers 0) (by rw [hprog]; rfl) ?_
    refine ⟨_, Runs.refl _, ?_, fun q _ => rfl, hdata, hdrawn, fun k => ?_⟩
    · change (Function.update g.txns p _ p).prog = _
      rw [Function.update_self]
    · have hk := hfree k
      change (if g.store.locks k = some p then none else g.store.locks k) = none
      rw [Store.isFree] at hk
      cases hlock : g.store.locks k with
      | none => exact if_neg (fun h => by cases h)
      | some q =>
        rw [hlock, Option.all_some, decide_eq_true_iff] at hk
        rw [hk, if_pos rfl]
  | read next ih =>
    refine EndsAs.head (x.answers 0) (by rw [hprog]; rfl) ?_
    rw [hview]
    exact ih x.view x (Function.update_self ..) hdata hdrawn hfree hview
  | ask next ih =>
    refine EndsAs.head (x.answers 0) (by rw [hprog]; rfl) ?_
    exact ih (x.answers 0) _ (Function.update_self ..) hdata hdrawn hfree hview
  | draw next ih =>
    refine EndsAs.head (x.answers 0) (by rw [hprog]; rfl) ?_
    rw [hdrawn]
    refine ih x.drawn _ (Function.update_self ..) hdata ?_ hfree hview
    simp [Store.draw, hdrawn]
  | write row writes next ih =>
    have hrow : row.all (g.store.isFree p) = true := by
      cases row with
      | none => rfl
      | some k => exact hfree k
    refine EndsAs.head (x.answers 0) (by rw [hprog]; exact if_pos hrow) ?_
    rw [hview]
    refine ih x.view { x with pending := x.pending ++ writes x.view } (Function.update_self ..)
      ?_ ?_ (hfree.lock row) ?_
    · rw [Store.data_lock, hdata]
    · rw [Store.drawn_lock, hdrawn]
    · rw [Store.view, Store.data_lock, hdata]
      rfl
  | commit note next ih =>
    refine EndsAs.head (x.answers 0) (by rw [hprog]; rfl) ?_
    exact ih { x with data := x.view, pending := [] } (Function.update_self ..) hview hdrawn
      hfree.release hview
  | rollback next ih =>
    refine EndsAs.head (x.answers 0) (by rw [hprog]; rfl) ?_
    exact ih { x with pending := [] } (Function.update_self ..) hdata hdrawn hfree.release hdata
  | unlock row next ih =>
    refine EndsAs.head (x.answers 0) (by rw [hprog]; rfl) ?_
    exact ih x (Function.update_self ..) hdata hdrawn (hfree.unlock row) hview

/-- No transaction is under way, and no row is locked. -/
structure Engine.Quiet (g : Engine D K W E V) (s : AtRest D) : Prop where
  data : g.store.data = s.data
  drawn : g.store.drawn.length = s.drawn
  ended : ∀ p, (g.txns p).prog = .ret ()
  free : ∀ k, g.store.locks k = none

theorem Engine.Quiet.serveAlone
    {s : AtRest D} (h : g.Quiet s) (p : TxId) (request : Req) (answers : ℕ → E) :
    ∃ g', Runs (Engine.step handler) anyAction g g' ∧
      g'.Quiet (serveAlone handler s request answers).2 := by
  have hfree : g.store.AllFree p := fun k => by rw [Store.isFree, h.free k]; rfl
  obtain ⟨g', hrun, hprog, hothers, hdata, hdrawn, hlocks⟩ :=
    endsAs_alone handler (handler request) ⟨s.data, [], s.drawn, answers⟩
      (g := ⟨g.store, Function.update g.txns p ⟨[], session (handler request)⟩⟩)
      (Function.update_self ..) h.data h.drawn hfree
  refine ⟨g', Runs.head (.begin p request) trivial ?_ hrun, hdata, hdrawn, fun q => ?_, hlocks⟩
  · rw [Engine.step, h.ended p]
  · by_cases hq : q = p
    · rw [hq, hprog]
    · rw [hothers q hq]
      change (Function.update g.txns p _ q).prog = _
      rw [Function.update_of_ne hq, h.ended q]

/-- **Requests one after the other are one of the interleavings.** -/
theorem runs_of_serve {s t : AtRest D} (hrun : Runs (serveStep handler) G s t) (hg : g.Quiet s) :
    ∃ g', Runs (Engine.step handler) anyAction g g' ∧ g'.Quiet t := by
  induction hrun with
  | refl => exact ⟨g, Runs.refl g, hg⟩
  | tail action _ _ hstep ih =>
    obtain ⟨g₁, hrun₁, hquiet₁⟩ := ih
    obtain ⟨request, answers⟩ := action
    obtain rfl := Option.some.inj hstep
    obtain ⟨g₂, hrun₂, hquiet₂⟩ := hquiet₁.serveAlone 0 request answers
    exact ⟨g₂, hrun₁.trans hrun₂, hquiet₂⟩

end ReadCommitted
