import AssetInventory.Lib.Alone

/-!
# Programs that do not look under a veil

A veil covers a part of the data.  A program that reads nothing of the covered part, and writes nothing
there, is answered the same when the covered part is missing, and leaves it as it was.

* `Veil`: what is shown, what is covered, and which writes keep clear of what is covered.
* `Prog.Blind`: what a program reads, run alone, is what the veil shows, and its writes keep clear.
* `Prog.Blind.alone`: the theorem about such a program.
* `Prog.Discreet`: a program that may fail, and is blind if it does not.
* `Prog.Looks`: a part that may fail, and otherwise only looks at what is shown.

They have rules for the statements, as they stand in a `do` block.
-/

namespace ReadCommitted

/-- A veil over data of the type `D`. -/
structure Veil (D W H : Type) [Applies W D] where
  /-- The data without what is covered. -/
  shown : D → D
  /-- What is covered. -/
  covered : D → H
  /-- The write keeps clear of what is covered. -/
  Clear : W → Prop
  shown_apply : ∀ {w d}, Clear w → shown (Applies.apply w d) = Applies.apply w (shown d)
  covered_apply : ∀ {w d}, Clear w → covered (Applies.apply w d) = covered d

variable {D K W E V H α β ε : Type} [Applies W D] {v : Veil D W H} {x : Alone D W E}

theorem Veil.shown_applyAll {ws : List W} (hws : ∀ w ∈ ws, v.Clear w) (d : D) :
    v.shown (applyAll ws d) = applyAll ws (v.shown d) := by
  induction ws generalizing d with
  | nil => rfl
  | cons w ws ih =>
    obtain ⟨hw, hws⟩ := List.forall_mem_cons.mp hws
    exact (ih hws _).trans (congrArg (applyAll ws) (v.shown_apply hw))

theorem Veil.covered_applyAll {ws : List W} (hws : ∀ w ∈ ws, v.Clear w) (d : D) :
    v.covered (applyAll ws d) = v.covered d := by
  induction ws generalizing d with
  | nil => rfl
  | cons w ws ih =>
    obtain ⟨hw, hws⟩ := List.forall_mem_cons.mp hws
    exact (ih hws _).trans (v.covered_apply hw)

/-- The transaction over what is shown. -/
def Alone.veiled (x : Alone D W E) (v : Veil D W H) : Alone D W E := { x with data := v.shown x.data }

/-! ## Blind programs -/

/-- **What the program reads, run alone, is what the veil shows**, and what it writes keeps clear of what
is covered. -/
def Prog.Blind (v : Veil D W H) : Prog D K W E V α → Alone D W E → Prop
  | .ret _, _ => True
  | .read next, x => next (v.shown x.view) = next x.view ∧ (next x.view).Blind v x
  | .ask next, x => (next (x.answers 0)).Blind v { x with answers := fun i => x.answers (i + 1) }
  | .draw next, x => (next x.drawn).Blind v { x with drawn := x.drawn + 1 }
  | .write _ writes next, x =>
    (writes (v.shown x.view) = writes x.view ∧ ∀ w ∈ writes x.view, v.Clear w) ∧
      next (v.shown x.view) = next x.view ∧
      (next x.view).Blind v { x with pending := x.pending ++ writes x.view }
  | .commit _ next, x => next.Blind v { x with data := x.view, pending := [] }
  | .rollback next, x => next.Blind v { x with pending := [] }
  | .unlock _ next, x => next.Blind v x

/-- **A blind program** is answered the same over what is shown alone, leaves the same there, and leaves
what is covered as it was. -/
theorem Prog.Blind.alone {m : Prog D K W E V α} (h : m.Blind v x)
    (hpending : ∀ w ∈ x.pending, v.Clear w) :
    m.alone (x.veiled v) = ((m.alone x).1, (m.alone x).2.veiled v) ∧
      v.covered (m.alone x).2.data = v.covered x.data := by
  have hview : ∀ y : Alone D W E, (∀ w ∈ y.pending, v.Clear w) →
      (y.veiled v).view = v.shown y.view := fun y hy => (v.shown_applyAll hy y.data).symm
  induction m generalizing x with
  | ret a => exact ⟨rfl, rfl⟩
  | read next ih =>
    obtain ⟨hnext, h⟩ := h
    have hsame : next (x.veiled v).view = next x.view := by rw [hview x hpending, hnext]
    obtain ⟨halone, hcovered⟩ := ih _ h hpending
    exact ⟨(congrArg (fun m => Prog.alone m (x.veiled v)) hsame).trans halone, hcovered⟩
  | ask next ih => exact ih _ h hpending
  | draw next ih => exact ih _ h hpending
  | write row writes next ih =>
    obtain ⟨⟨hwrites, hclear⟩, hnext, h⟩ := h
    obtain ⟨halone, hcovered⟩ := ih _ h (List.forall_mem_append.mpr ⟨hpending, hclear⟩)
    have hsame : writes (x.veiled v).view = writes x.view ∧ next (x.veiled v).view = next x.view := by
      rw [hview x hpending]
      exact ⟨hwrites, hnext⟩
    refine ⟨?_, hcovered⟩
    change (next (x.veiled v).view).alone
      { x.veiled v with pending := x.pending ++ writes (x.veiled v).view } = _
    rw [hsame.1, hsame.2]
    exact halone
  | commit note next ih =>
    obtain ⟨halone, hcovered⟩ := ih h (List.forall_mem_nil _)
    refine ⟨?_, hcovered.trans (v.covered_applyAll hpending x.data)⟩
    change next.alone { x.veiled v with data := (x.veiled v).view, pending := [] } = _
    rw [hview x hpending]
    exact halone
  | rollback next ih => exact ih h (List.forall_mem_nil _)
  | unlock row next ih => exact ih h hpending

section Blind

theorem blind_pure {a : α} : (pure a : Prog D K W E V α).Blind v x := trivial

variable {f : β → Prog D K W E V α}

theorem Prog.Blind.bind {m : Prog D K W E V β} (hm : m.Blind v x)
    (hf : (f (m.alone x).1).Blind v (m.alone x).2) : (m >>= f).Blind v x := by
  change (m.bind f).Blind v x
  induction m generalizing x with
  | ret a => exact hf
  | read next ih => exact ⟨congrArg (fun m => Prog.bind m f) hm.1, ih _ hm.2 hf⟩
  | ask next ih => exact ih _ hm hf
  | draw next ih => exact ih _ hm hf
  | write row writes next ih =>
    exact ⟨hm.1, congrArg (fun m => Prog.bind m f) hm.2.1, ih _ hm.2.2 hf⟩
  | commit note next ih => exact ih hm hf
  | rollback next ih => exact ih hm hf
  | unlock row next ih => exact ih hm hf

variable {query : D → β}

theorem blind_select
    (hquery : query (v.shown x.view) = query x.view) (h : (f (query x.view)).Blind v x) :
    (Prog.select query >>= f).Blind v x :=
  ⟨congrArg f hquery, h⟩

theorem blind_select_of
    (hf : f (query (v.shown x.view)) = f (query x.view)) (h : (f (query x.view)).Blind v x) :
    (Prog.select query >>= f).Blind v x :=
  ⟨hf, h⟩

theorem blind_answer {query : E → β}
    (h : (f (query (x.answers 0))).Blind v { x with answers := fun i => x.answers (i + 1) }) :
    (Prog.answer query >>= f).Blind v x := h

theorem blind_insert {f : Unit → Prog D K W E V α} {w : W} (hw : v.Clear w)
    (h : (f ()).Blind v { x with pending := x.pending ++ [w] }) :
    (Prog.insert w >>= f).Blind v x :=
  ⟨⟨rfl, fun _ hmem => List.mem_singleton.mp hmem ▸ hw⟩, rfl, h⟩

theorem blind_fresh {f : ℕ → Prog D K W E V α}
    (h : (f x.drawn).Blind v { x with drawn := x.drawn + 1 }) :
    (Prog.fresh >>= f).Blind v x := h

theorem blind_publish {f : Unit → Prog D K W E V α} {note : List V}
    (h : (f ()).Blind v { x with data := x.view, pending := [] }) :
    (Prog.publish note >>= f).Blind v x := h

theorem blind_update {f : D → Prog D K W E V α} {row : K} {ws : List W} (hws : ∀ w ∈ ws, v.Clear w)
    (hf : f (v.shown x.view) = f x.view)
    (h : (f x.view).Blind v { x with pending := x.pending ++ ws }) :
    (Prog.update row (fun _ => ws) >>= f).Blind v x :=
  ⟨⟨rfl, hws⟩, hf, h⟩

theorem blind_update_one {f : D → Prog D K W E V α} {row : K} {w : W} (hw : v.Clear w)
    (hf : f (v.shown x.view) = f x.view)
    (h : (f x.view).Blind v { x with pending := x.pending ++ [w] }) :
    (Prog.update row (fun _ => [w]) >>= f).Blind v x :=
  blind_update (fun _ hmem => List.mem_singleton.mp hmem ▸ hw) hf h

end Blind

/-! ## Discreet programs -/

/-- The program is blind unless it fails. -/
def Prog.Discreet (v : Veil D W H) (m : Prog D K W E V (Except ε α)) (x : Alone D W E) : Prop :=
  ∀ a, (m.alone x).1 = .ok a → m.Blind v x

section Discreet

variable {f : β → Prog D K W E V (Except ε α)}

theorem discreet_ok {a : α} : (pure (.ok a) : Prog D K W E V (Except ε α)).Discreet v x :=
  fun _ _ => trivial

theorem discreet_error {e : ε} : (pure (.error e) : Prog D K W E V (Except ε α)).Discreet v x :=
  fun _ h => by cases h

variable {m : Prog D K W E V (Except ε β)}

theorem Prog.Discreet.bind {k : Except ε β → Prog D K W E V (Except ε α)} (hm : m.Discreet v x)
    (herror : ∀ e, k (.error e) = pure (.error e))
    (hk : ∀ b, (m.alone x).1 = .ok b → (k (.ok b)).Discreet v (m.alone x).2) :
    (m >>= k).Discreet v x := by
  intro a ha
  rw [alone_bind] at ha
  cases hresult : (m.alone x).1 with
  | error e =>
    rw [hresult, herror] at ha
    cases ha
  | ok b =>
    rw [hresult] at ha
    refine (hm b hresult).bind ?_
    rw [hresult]
    exact hk b hresult a ha

theorem Prog.Blind.discreet {m : Prog D K W E V β} (hm : m.Blind v x)
    (hf : (f (m.alone x).1).Discreet v (m.alone x).2) : (m >>= f).Discreet v x := by
  intro a ha
  rw [alone_bind] at ha
  exact hm.bind (hf a ha)

theorem discreet_select_of {query : D → β} (hf : f (query (v.shown x.view)) = f (query x.view))
    (h : (f (query x.view)).Discreet v x) : (Prog.select query >>= f).Discreet v x :=
  fun a ha => ⟨hf, h a ha⟩

theorem discreet_select {query : D → β} (hquery : query (v.shown x.view) = query x.view)
    (h : (f (query x.view)).Discreet v x) : (Prog.select query >>= f).Discreet v x :=
  discreet_select_of (congrArg f hquery) h

theorem discreet_answer {query : E → β}
    (h : (f (query (x.answers 0))).Discreet v { x with answers := fun i => x.answers (i + 1) }) :
    (Prog.answer query >>= f).Discreet v x := h

theorem discreet_fresh {f : ℕ → Prog D K W E V (Except ε α)}
    (h : (f x.drawn).Discreet v { x with drawn := x.drawn + 1 }) :
    (Prog.fresh >>= f).Discreet v x := h

theorem discreet_insert {f : Unit → Prog D K W E V (Except ε α)} {w : W} (hw : v.Clear w)
    (h : (f ()).Discreet v { x with pending := x.pending ++ [w] }) :
    (Prog.insert w >>= f).Discreet v x :=
  fun a ha => blind_insert hw (h a ha)

theorem discreet_publish {f : Unit → Prog D K W E V (Except ε α)} {note : List V}
    (h : (f ()).Discreet v { x with data := x.view, pending := [] }) :
    (Prog.publish note >>= f).Discreet v x := h

end Discreet

/-! ## Parts that only look -/

/-- The part fails, or it looks at what is shown, changes nothing and returns a value of kind `C`. -/
def Prog.Looks (v : Veil D W H) (m : Prog D K W E V (Except ε α)) (C : α → Prop)
    (x : Alone D W E) : Prop :=
  ∀ a, (m.alone x).1 = .ok a → m.Blind v x ∧ (m.alone x).2 = x ∧ C a

section Looks

variable {C : α → Prop} {C' : β → Prop}

theorem looks_ok {a : α} (h : C a) : (pure (.ok a) : Prog D K W E V (Except ε α)).Looks v C x := by
  rintro b ⟨⟩
  exact ⟨trivial, rfl, h⟩

theorem looks_error {e : ε} : (pure (.error e) : Prog D K W E V (Except ε α)).Looks v C x :=
  fun _ h => by cases h

theorem looks_select {query : D → β} {f : β → Prog D K W E V (Except ε α)}
    (hquery : query (v.shown x.view) = query x.view) (h : (f (query x.view)).Looks v C x) :
    (Prog.select query >>= f).Looks v C x := by
  intro a ha
  obtain ⟨hblind, hsame, hC⟩ := h a ha
  exact ⟨blind_select hquery hblind, hsame, hC⟩

variable {k : Except ε β → Prog D K W E V (Except ε α)}

theorem Prog.Looks.discreet {m : Prog D K W E V (Except ε β)} (hm : m.Looks v C' x)
    (herror : ∀ e, k (.error e) = pure (.error e))
    (hk : ∀ b, C' b → (k (.ok b)).Discreet v x) : (m >>= k).Discreet v x :=
  Prog.Discreet.bind (fun b hb => (hm b hb).1) herror fun b hb => by
    obtain ⟨-, hsame, hC⟩ := hm b hb
    rw [hsame]
    exact hk b hC

theorem Prog.Looks.bind {m : Prog D K W E V (Except ε β)} (hm : m.Looks v C' x)
    (herror : ∀ e, k (.error e) = pure (.error e))
    (hk : ∀ b, C' b → (k (.ok b)).Looks v C x) : (m >>= k).Looks v C x := by
  intro a ha
  rw [alone_bind] at ha
  cases hresult : (m.alone x).1 with
  | error e =>
    rw [hresult, herror] at ha
    cases ha
  | ok b =>
    obtain ⟨hblind, hsame, hC⟩ := hm b hresult
    rw [hresult, hsame] at ha
    obtain ⟨hblind', hsame', hCa⟩ := hk b hC a ha
    refine ⟨hblind.bind ?_, ?_, hCa⟩
    · rw [hresult, hsame]
      exact hblind'
    · rw [alone_bind, hresult, hsame, hsame']

end Looks

end ReadCommitted
