import AssetInventory.Lib.Run
import AssetInventory.Lib.Table

/-!
# Two stores that are written one after the other

Something is kept twice: as a row of a database, and as an entry of a service.  A request writes the row in
a transaction, where it has the row locked from its first statement on and nobody sees the change before
the commit; a call to the service takes effect at once.  Nothing ties the two together.

* `Stores`: what a statement does to a row, and a call to an entry.
* `Prog`, `step`: requests about one key each, interleaved statement by statement.
* `InTurn`: a request writes an entry only when no other request has written it and is not over; after that
  it does not end without a commit, unless the entry is what it was; and its statements find what they have
  to find.
* `Prog.Sound`: whatever a program commits agrees with the entry.  A program is checked on its own.
* `agree_of_runs`: then the stores agree whenever no request is under way.
-/

namespace TwoStores

open Interleaving RowStore

/-- The identity of a request. -/
abbrev Pid := ℕ

/-- Statements `W` on rows `S`, and calls `C` on entries `O`, with answers `A`.  `X` is what becomes of a
call. -/
structure Stores (S O W C X A : Type) where
  /-- The row after a statement: it is refused, or it passes and has found nothing to change, or it has
  changed the row. -/
  apply : W → S → Option (Option S)
  serve : C → X → O → A × O
  /-- The call counts as a write. -/
  writes : C → X → Bool
  serve_of_not_writes : ∀ c x o, writes c x = false → (serve c x o).2 = o

/-! ## Programs -/

/-- A request. -/
inductive Prog (K S W C A E α : Type) where
  /-- The end; what has not been committed is rolled back. -/
  | ret (a : α)
  /-- A query for the row. -/
  | select (next : S → Prog K S W C A E α)
  /-- Something else is asked. -/
  | ask (next : E → Prog K S W C A E α)
  /-- A statement that writes the row; it waits for the lock.  It goes on with `false` when it is refused. -/
  | write (w : W) (next : Bool → Prog K S W C A E α)
  /-- A call about an entry. -/
  | call (k : K) (c : C) (next : A → Prog K S W C A E α)
  /-- A commit. -/
  | commit (next : Prog K S W C A E α)

namespace Prog

variable {K S W C A E α β : Type}

/-- One program after the other. -/
def bind : Prog K S W C A E α → (α → Prog K S W C A E β) → Prog K S W C A E β
  | .ret a, f => f a
  | .select next, f => .select fun s => (next s).bind f
  | .ask next, f => .ask fun e => (next e).bind f
  | .write w next, f => .write w fun b => (next b).bind f
  | .call k c next, f => .call k c fun a => (next a).bind f
  | .commit next, f => .commit (next.bind f)

instance : Monad (Prog K S W C A E) where
  pure := .ret
  bind := .bind

/-- The row. -/
def query (f : S → α) : Prog K S W C A E α := .select fun s => .ret (f s)

/-- Something else. -/
def answer : Prog K S W C A E E := .ask .ret

/-- A statement that writes. -/
def put (w : W) : Prog K S W C A E Bool := .write w .ret

/-- A call. -/
def request (k : K) (c : C) : Prog K S W C A E A := .call k c .ret

/-- A commit. -/
def publish : Prog K S W C A E Unit := .commit (.ret ())

end Prog

/-! ## Requests at once -/

/-- A request under way: the row as it has written it, if it has, and the rest of its program. -/
structure Session (K S W C A E α : Type) where
  key : K
  pending : Option S
  prog : Prog K S W C A E α

/-- The two stores, and the requests. -/
structure World (K S O W C A E α : Type) where
  rows : K → S
  locks : K → Option Pid
  entries : K → O
  /-- Who has written an entry and is not over, with the entry as it was before. -/
  opened : K → Option (Pid × O)
  sessions : Table Pid (Session K S W C A E α)

/-- What happens next. -/
inductive Action (Req E X : Type) where
  | begin (p : Pid) (request : Req)
  /-- The next statement of a request, with what it is told and what becomes of its call. -/
  | run (p : Pid) (e : E) (x : X)
  /-- A request is broken off. -/
  | abort (p : Pid)

variable {K S O W C X A E Req α β : Type}

namespace World

variable (g : World K S O W C A E α) (p : Pid)

/-- The row as a request sees it. -/
def view (s : Session K S W C A E α) : S := s.pending.getD (g.rows s.key)

/-- A request goes on. -/
def goOn (s : Session K S W C A E α) : World K S O W C A E α :=
  { g with sessions := g.sessions.modify p fun _ => s }

/-- What a request holds ends. -/
def release : World K S O W C A E α :=
  { g with
    locks := fun k => if g.locks k = some p then none else g.locks k
    opened := fun k => if (g.opened k).any (fun y => decide (y.1 = p)) then none else g.opened k }

/-- A request is over. -/
def ended : World K S O W C A E α := { g.release p with sessions := g.sessions.erase p }

/-- The entry that a request has written: before, and now. -/
def window (k : K) : Option (O × O) :=
  (g.opened k).bind fun y => if y.1 = p then some (y.2, g.entries k) else none

/-- A call has been served; with the first write the request opens the entry. -/
def afterCall [DecidableEq K] (st : Stores S O W C X A) (k : K) (c : C) (x : X) : World K S O W C A E α :=
  { g with
    entries := Function.update g.entries k (st.serve c x (g.entries k)).2
    opened := if st.writes c x = true ∧ g.opened k = none then
        Function.update g.opened k (some (p, g.entries k))
      else g.opened }

/-- The next statement of a request. -/
def statement [DecidableEq K] (st : Stores S O W C X A) (s : Session K S W C A E α) (e : E) (x : X) :
    Option (World K S O W C A E α) :=
  match s.prog with
  | .ret _ => some (g.ended p)
  | .select next => some (g.goOn p { s with prog := next (g.view s) })
  | .ask next => some (g.goOn p { s with prog := next e })
  | .write w next =>
    if g.locks s.key = none ∨ g.locks s.key = some p then
      match st.apply w (g.view s) with
      | none => some (g.goOn p { s with prog := next false })
      | some none => some (g.goOn p { s with prog := next true })
      | some (some r) => some { g.goOn p { s with pending := some r, prog := next true } with
          locks := Function.update g.locks s.key (some p) }
    else none
  | .call k c next =>
    some ((g.afterCall p st k c x).goOn p { s with prog := next (st.serve c x (g.entries k)).1 })
  | .commit next => some { (g.release p).goOn p { s with pending := none, prog := next } with
      rows := Function.update g.rows s.key (g.view s) }

end World

/-- **The steps.**  A handler gives the key of a request, and its program. -/
def step [DecidableEq K] (st : Stores S O W C X A)
    (handler : Req → K × Prog K S W C A E α) (g : World K S O W C A E α) :
    Action Req E X → Option (World K S O W C A E α)
  | .begin p request =>
    if g.sessions.get p = none then
      some { g with sessions := g.sessions.insert p ⟨(handler request).1, none, (handler request).2⟩ }
    else none
  | .run p e x => (g.sessions.get p).bind fun s => g.statement p st s e x
  | .abort p => if (g.sessions.get p).isSome then some (g.ended p) else none

/-- No request is under way. -/
def World.start (rows : K → S) (entries : K → O) : World K S O W C A E α where
  rows := rows
  locks _ := none
  entries := entries
  opened _ := none
  sessions := .empty

/-! ## In turn -/

/-- What the stores are to agree on, and what the statements have to find: the row, and the entry that the
request has written. -/
structure Accord (K S O W : Type) where
  /-- What holds of every row under a key. -/
  good : K → S → Prop
  agree : S → O → Prop
  finds : W → S → Option (O × O) → Prop

/-- The condition on the next statement of a request. -/
def StatementInTurn (st : Stores S O W C X A) (t : Accord K S O W) (g : World K S O W C A E α) (p : Pid)
    (x : X) (s : Session K S W C A E α) : Prop :=
  match s.prog with
  | .ret _ => ∀ y ∈ g.window p s.key, y.1 = y.2
  | .write w _ => t.finds w (g.view s) (g.window p s.key)
  | .call k c _ => st.writes c x = true → ∀ y ∈ g.opened k, y.1 = p
  | _ => True

/-- **The condition**, step by step. -/
def InTurn (st : Stores S O W C X A) (t : Accord K S O W) (g : World K S O W C A E α) :
    Action Req E X → Prop
  | .begin _ _ => True
  | .run p _ x => ∀ s ∈ g.sessions.get p, StatementInTurn st t g p x s
  | .abort p => ∀ s ∈ g.sessions.get p, ∀ y ∈ g.window p s.key, y.1 = y.2

instance [DecidableEq O] (st : Stores S O W C X A) (t : Accord K S O W)
    [∀ w s window, Decidable (t.finds w s window)] (g : World K S O W C A E α) (p : Pid) (x : X)
    (s : Session K S W C A E α) : Decidable (StatementInTurn st t g p x s) := by
  unfold StatementInTurn
  split <;> infer_instance

instance [DecidableEq O] (st : Stores S O W C X A) (t : Accord K S O W)
    [∀ w s window, Decidable (t.finds w s window)] (g : World K S O W C A E α) (a : Action Req E X) :
    Decidable (InTurn st t g a) := by
  cases a <;> unfold InTurn <;> infer_instance

/-! ## Programs that keep the stores in accord -/

/-- The row that has been committed, and the row as the request sees it. -/
structure Reads (good : S → Prop) (held : Option (S × S)) (c s : S) : Prop where
  committed : good c
  seen : good s
  locked : ∀ x, held = some x → x = (c, s)
  unlocked : held = none → s = c

/-- The entry before the request has written it, and now. -/
def Knows : Option (O × O) → O → O → Prop
  | none, b, o => b = o
  | some window, b, o => window = (b, o)

section Sound

variable (st : Stores S O W C X A) (t : Accord K S O W) (k : K)
  {Q Q' : α → Option (S × S) → Option (O × O) → Prop} {R : β → Option (S × S) → Option (O × O) → Prop}

/-- **Whatever the program commits agrees with the entry**, and it ends with `Q`.  The program has the row
locked, with a committed one and its own, or not; it has written the entry, or not. -/
def Prog.Sound (Q : α → Option (S × S) → Option (O × O) → Prop) :
    Prog K S W C A E α → Option (S × S) → Option (O × O) → Prop
  | .ret a, held, window => Q a held window
  | .select next, held, window => ∀ c s, Reads (t.good k) held c s → (next s).Sound Q held window
  | .ask next, held, window => ∀ e, (next e).Sound Q held window
  | .write w next, held, window => ∀ c s, Reads (t.good k) held c s → t.finds w s window →
    match st.apply w s with
    | none => (next false).Sound Q held window
    | some none => (next true).Sound Q held window
    | some (some r) => t.good k r ∧ (next true).Sound Q (some (c, r)) window
  | .call k' c next, held, window => k' = k ∧ ∀ x b o, Knows window b o →
    (next (st.serve c x o).1).Sound Q held
      (if st.writes c x = true then some (b, (st.serve c x o).2) else window)
  | .commit next, held, window =>
    (∀ c s b o, Reads (t.good k) held c s → Knows window b o → t.agree c b → t.agree s o) ∧
      next.Sound Q none none

variable {st t k}

theorem Prog.Sound.bind {m : Prog K S W C A E α} {f : α → Prog K S W C A E β} {held : Option (S × S)}
    {window : Option (O × O)} (h : m.Sound st t k Q held window)
    (hf : ∀ a held window, Q a held window → (f a).Sound st t k R held window) :
    (m >>= f).Sound st t k R held window := by
  change (m.bind f).Sound st t k R held window
  induction m generalizing held window with
  | ret a => exact hf a held window h
  | select next ih => exact fun c s hs => ih s (h c s hs)
  | ask next ih => exact fun e => ih e (h e)
  | write w next ih =>
    intro c s hs hfinds
    have hw := h c s hs hfinds
    split at hw <;> rename_i happly
    · exact ih false hw
    · exact ih true hw
    · exact ⟨hw.1, ih true hw.2⟩
  | call k' c next ih => exact ⟨h.1, fun x b o ho => ih _ (h.2 x b o ho)⟩
  | commit next ih => exact ⟨h.1, ih h.2⟩

/-! Rules for the statements, as they stand in a `do` block. -/

section Statements

variable {f : β → Prog K S W C A E α} {held : Option (S × S)} {window : Option (O × O)}

theorem sound_query (query : S → β)
    (h : ∀ c s, Reads (t.good k) held c s → (f (query s)).Sound st t k Q held window) :
    (Prog.query query >>= f).Sound st t k Q held window := h

theorem sound_answer {f : E → Prog K S W C A E α} (h : ∀ e, (f e).Sound st t k Q held window) :
    (Prog.answer >>= f).Sound st t k Q held window := h

theorem sound_put {f : Bool → Prog K S W C A E α} {w : W}
    (hrefused : ∀ c s, Reads (t.good k) held c s → t.finds w s window → st.apply w s = none →
      (f false).Sound st t k Q held window)
    (hmissed : ∀ c s, Reads (t.good k) held c s → t.finds w s window → st.apply w s = some none →
      (f true).Sound st t k Q held window)
    (hwritten : ∀ c s r, Reads (t.good k) held c s → t.finds w s window → st.apply w s = some (some r) →
      t.good k r ∧ (f true).Sound st t k Q (some (c, r)) window) :
    (Prog.put w >>= f).Sound st t k Q held window := by
  intro c s hs hfinds
  cases happly : st.apply w s with
  | none => exact hrefused c s hs hfinds happly
  | some row =>
    cases row with
    | none => exact hmissed c s hs hfinds happly
    | some r => exact hwritten c s r hs hfinds happly

theorem sound_request {f : A → Prog K S W C A E α} {c : C}
    (h : ∀ x b o, Knows window b o → (f (st.serve c x o).1).Sound st t k Q held
      (if st.writes c x = true then some (b, (st.serve c x o).2) else window)) :
    (Prog.request k c >>= f).Sound st t k Q held window := ⟨rfl, h⟩

theorem sound_request_reads {f : A → Prog K S W C A E α} {c : C} (hreads : ∀ x, st.writes c x = false)
    (h : ∀ x b o, Knows window b o → (f (st.serve c x o).1).Sound st t k Q held window) :
    (Prog.request k c >>= f).Sound st t k Q held window := by
  refine sound_request fun x b o ho => ?_
  rw [if_neg (by rw [hreads x]; exact Bool.false_ne_true)]
  exact h x b o ho

theorem sound_publish {f : Unit → Prog K S W C A E α}
    (hagree : ∀ c s b o, Reads (t.good k) held c s → Knows window b o → t.agree c b → t.agree s o)
    (h : (f ()).Sound st t k Q none none) : (Prog.publish >>= f).Sound st t k Q held window :=
  ⟨hagree, h⟩

end Statements

end Sound

/-! ## Runs -/

section Runs

variable {st : Stores S O W C X A} {t : Accord K S O W} {handler : Req → K × Prog K S W C A E α}
  {g g' : World K S O W C A E α} {p q : Pid} {k : K} {s s' : Session K S W C A E α}

/-- A request may end with anything. -/
def anyEnd (_ : α) (_ : Option (S × S)) (_ : Option (O × O)) : Prop := True

namespace World

/-- What a request has locked: the committed row, and its own. -/
def held (g : World K S O W C A E α) (s : Session K S W C A E α) : Option (S × S) :=
  s.pending.map fun r => (g.rows s.key, r)

/-- The entry, as the requests that are over have left it. -/
def settled (g : World K S O W C A E α) (k : K) : O := (g.opened k).elim (g.entries k) Prod.snd

theorem window_eq_none (h : ∀ y, g.opened k = some y → y.1 ≠ p) : g.window p k = none := by
  unfold window
  cases hopened : g.opened k with
  | none => rfl
  | some y => exact if_neg (h y hopened)

theorem window_eq_some {y : Pid × O} (h : g.opened k = some y) (hy : y.1 = p) :
    g.window p k = some (y.2, g.entries k) := by
  unfold window
  rw [h]
  exact if_pos hy

theorem opened_release {y : Pid × O} (h : (g.release p).opened k = some y) :
    g.opened k = some y ∧ y.1 ≠ p := by
  unfold release at h
  dsimp only at h
  split_ifs at h with hmine
  rw [h, Option.any_some, decide_eq_true_eq] at hmine
  exact ⟨h, hmine⟩

theorem opened_release_of_ne {y : Pid × O} (h : g.opened k = some y) (hy : y.1 ≠ p) :
    (g.release p).opened k = some y := by
  unfold release
  dsimp only
  rw [h, Option.any_some, if_neg (by simpa using hy)]

theorem window_release_self : (g.release p).window p k = none :=
  window_eq_none fun _ h => (opened_release h).2

theorem window_release_of_ne (hq : q ≠ p) : (g.release p).window q k = g.window q k := by
  cases hopened : g.opened k with
  | none =>
    have hno : ∀ y, (g.release p).opened k = some y → y.1 ≠ q := by
      intro y hy
      have hold := (opened_release hy).1
      rw [hopened] at hold
      cases hold
    have hno' : ∀ y, g.opened k = some y → y.1 ≠ q := by
      intro y hy
      rw [hopened] at hy
      cases hy
    rw [window_eq_none hno, window_eq_none hno']
  | some y =>
    by_cases hy : y.1 = q
    · have hyp : y.1 ≠ p := fun hyp => hq (hy.symm.trans hyp)
      rw [window_eq_some (opened_release_of_ne hopened hyp) hy, window_eq_some hopened hy]
      rfl
    · have hno : ∀ z, g.opened k = some z → z.1 ≠ q := by
        intro z hz
        rw [hopened] at hz
        cases hz
        exact hy
      rw [window_eq_none hno, window_eq_none fun z hz => hno z (opened_release hz).1]

theorem locks_release_of_ne (hq : q ≠ p) (h : g.locks k = some q) :
    (g.release p).locks k = some q := by
  unfold release
  dsimp only
  rw [h, if_neg fun heq => hq (Option.some.inj heq)]

theorem settled_release (hback : ∀ y ∈ g.window p k, y.1 = y.2) :
    (g.release p).settled k = g.settled k := by
  unfold settled
  cases hopened : g.opened k with
  | none =>
    have hnone : (g.release p).opened k = none := by
      unfold release
      dsimp only
      rw [hopened]
      rfl
    rw [hnone]
    rfl
  | some y =>
    by_cases hy : y.1 = p
    · have hnone : (g.release p).opened k = none := by
        unfold release
        dsimp only
        rw [hopened, Option.any_some, if_pos (decide_eq_true hy)]
      have hsame : y.2 = g.entries k := hback _ (window_eq_some hopened hy)
      rw [hnone]
      exact hsame.symm
    · rw [opened_release_of_ne hopened hy]
      rfl

end World

open World

/-- What holds between any two steps. -/
structure Kept (st : Stores S O W C X A) (t : Accord K S O W) (g : World K S O W C A E α) : Prop where
  good : ∀ k, t.good k (g.rows k)
  agree : ∀ k, t.agree (g.rows k) (g.settled k)
  sound : ∀ p s, g.sessions.get p = some s →
    s.prog.Sound st t s.key anyEnd (g.held s) (g.window p s.key)
  fine : ∀ p s r, g.sessions.get p = some s → s.pending = some r → t.good s.key r
  locked : ∀ p s, g.sessions.get p = some s → s.pending ≠ none → g.locks s.key = some p
  owner : ∀ k y, g.opened k = some y → ∃ s, g.sessions.get y.1 = some s ∧ s.key = k

theorem Kept.reads (h : Kept st t g) (hs : g.sessions.get p = some s) :
    Reads (t.good s.key) (g.held s) (g.rows s.key) (g.view s) := by
  unfold World.held World.view
  cases hpending : s.pending with
  | none => exact ⟨h.good s.key, h.good s.key, fun _ hx => (by cases hx), fun _ => rfl⟩
  | some r =>
    refine ⟨h.good s.key, h.fine p s r hs hpending, fun x hx => ?_, fun hnone => by cases hnone⟩
    exact (Option.some.inj hx).symm

theorem knows (hmine : ∀ y, g.opened k = some y → y.1 = p) :
    Knows (g.window p k) (g.settled k) (g.entries k) := by
  unfold World.settled
  cases hopened : g.opened k with
  | none =>
    rw [window_eq_none fun y hy => by rw [hopened] at hy; cases hy]
    rfl
  | some y =>
    rw [window_eq_some hopened (hmine y hopened)]
    rfl

theorem exists_knows : ∃ b, Knows (g.window p k) b (g.entries k) := by
  unfold World.window
  cases g.opened k with
  | none => exact ⟨g.entries k, rfl⟩
  | some y =>
    by_cases hy : y.1 = p
    · exact ⟨y.2, by rw [Option.bind_some, if_pos hy]; rfl⟩
    · exact ⟨g.entries k, by rw [Option.bind_some, if_neg hy]; rfl⟩

theorem Kept.window_of_ne (h : Kept st t g) (hs : g.sessions.get p = some s) (hk : k ≠ s.key) :
    g.window p k = none := by
  refine window_eq_none fun y hy hyp => hk ?_
  obtain ⟨s', hs', hkey⟩ := h.owner k y hy
  rw [hyp, hs] at hs'
  rw [← hkey, ← Option.some.inj hs']

theorem Kept.advance (h : Kept st t g) (hs : g.sessions.get p = some s)
    (s' : Session K S W C A E α) (hkey : s'.key = s.key)
    (hsessions : g'.sessions = g.sessions.modify p fun _ => s') (hrows : g'.rows = g.rows)
    (hsettled : ∀ k, g'.settled k = g.settled k)
    (hlocks : ∀ k q, g.locks k = some q → g'.locks k = some q)
    (hlocked : s'.pending ≠ none → g'.locks s.key = some p)
    (hfine : ∀ r, s'.pending = some r → t.good s.key r)
    (hwindow : ∀ q k, q ≠ p → g'.window q k = g.window q k)
    (hopened : ∀ k y, g'.opened k = some y → g.opened k = some y ∨ y.1 = p ∧ k = s.key)
    (hsound : s'.prog.Sound st t s.key anyEnd (g'.held s') (g'.window p s.key)) : Kept st t g' := by
  have hself : g'.sessions.get p = some s' := by rw [hsessions, Table.get_modify_self, hs]; rfl
  have hother : ∀ q, q ≠ p → g'.sessions.get q = g.sessions.get q := by
    intro q hq
    rw [hsessions, Table.get_modify_of_ne _ _ hq]
  refine ⟨fun k => ?_, fun k => ?_, fun q u hu => ?_, fun q u r hu hr => ?_, fun q u hu hpending => ?_,
    fun k y hy => ?_⟩
  · rw [hrows]
    exact h.good k
  · rw [hrows, hsettled]
    exact h.agree k
  · by_cases hq : q = p
    · subst hq
      rw [hself] at hu
      obtain rfl := Option.some.inj hu
      rw [hkey]
      exact hsound
    · rw [hother q hq] at hu
      have hheld : g'.held u = g.held u := by
        unfold World.held
        rw [hrows]
      rw [hheld, hwindow q _ hq]
      exact h.sound q u hu
  · by_cases hq : q = p
    · subst hq
      rw [hself] at hu
      obtain rfl := Option.some.inj hu
      rw [hkey]
      exact hfine r hr
    · rw [hother q hq] at hu
      exact h.fine q u r hu hr
  · by_cases hq : q = p
    · subst hq
      rw [hself] at hu
      obtain rfl := Option.some.inj hu
      rw [hkey]
      exact hlocked hpending
    · rw [hother q hq] at hu
      exact hlocks _ _ (h.locked q u hu hpending)
  · rcases hopened k y hy with hold | ⟨hyp, rfl⟩
    · obtain ⟨u, hu, huk⟩ := h.owner k y hold
      by_cases hyp : y.1 = p
      · rw [hyp, hs] at hu
        obtain rfl := Option.some.inj hu
        exact ⟨s', by rw [hyp]; exact hself, hkey.trans huk⟩
      · exact ⟨u, by rw [hother _ hyp]; exact hu, huk⟩
    · exact ⟨s', by rw [hyp]; exact hself, hkey⟩

theorem Kept.goOn (h : Kept st t g) (hs : g.sessions.get p = some s) {prog : Prog K S W C A E α}
    (hsound : prog.Sound st t s.key anyEnd (g.held s) (g.window p s.key)) :
    Kept st t (g.goOn p { s with prog := prog }) :=
  h.advance hs { s with prog := prog } rfl rfl rfl (fun _ => rfl) (fun _ _ hk => hk) (h.locked p s hs) (h.fine p s · hs)
    (fun _ _ _ => rfl) (fun _ _ hy => .inl hy) hsound

theorem Kept.ended (h : Kept st t g) (hs : g.sessions.get p = some s)
    (hback : ∀ y ∈ g.window p s.key, y.1 = y.2) : Kept st t (g.ended p) := by
  have hother : ∀ {q u}, (g.sessions.erase p).get q = some u → q ≠ p ∧ g.sessions.get q = some u := by
    intro q u hu
    have hq : q ≠ p := by
      rintro rfl
      rw [Table.get_erase_self] at hu
      cases hu
    rw [Table.get_erase_of_ne _ hq] at hu
    exact ⟨hq, hu⟩
  refine ⟨h.good, fun k => ?_, fun q u hu => ?_, fun q u r hu => ?_, fun q u hu hpending => ?_,
    fun k y hy => ?_⟩
  · have hsame : (g.release p).settled k = g.settled k := by
      refine settled_release ?_
      by_cases hk : k = s.key
      · rw [hk]
        exact hback
      · rw [h.window_of_ne hs hk]
        exact fun y hy => by cases hy
    exact hsame ▸ h.agree k
  · obtain ⟨hq, hu⟩ := hother hu
    have hsound := h.sound q u hu
    rw [← window_release_of_ne hq] at hsound
    exact hsound
  · exact h.fine q u r (hother hu).2
  · obtain ⟨hq, hu⟩ := hother hu
    exact locks_release_of_ne hq (h.locked q u hu hpending)
  · obtain ⟨hold, hyp⟩ := opened_release hy
    obtain ⟨u, hu, huk⟩ := h.owner k y hold
    exact ⟨u, (Table.get_erase_of_ne _ hyp).trans hu, huk⟩

theorem Kept.begin (h : Kept st t g) (hnone : g.sessions.get p = none) (hkey : s.pending = none)
    (hsound : s.prog.Sound st t s.key anyEnd none none) :
    Kept st t { g with sessions := g.sessions.insert p s } := by
  have hheld : g.held s = none := by
    unfold World.held
    rw [hkey]
    rfl
  have hunwritten : ∀ k, g.window p k = none := by
    refine fun k => window_eq_none fun y hy hyp => ?_
    obtain ⟨u, hu, -⟩ := h.owner k y hy
    rw [hyp, hnone] at hu
    cases hu
  refine ⟨h.good, h.agree, fun q u hu => ?_, fun q u r hu hr => ?_, fun q u hu hpending => ?_,
    fun k y hy => ?_⟩
  · rcases Table.get_insert_cases hu with ⟨rfl, rfl, -⟩ | hold
    · have hgoal : u.prog.Sound st t u.key anyEnd (g.held u) (g.window q u.key) := by
        rw [hheld, hunwritten]
        exact hsound
      exact hgoal
    · exact h.sound q u hold
  · rcases Table.get_insert_cases hu with ⟨rfl, rfl, -⟩ | hold
    · rw [hkey] at hr
      cases hr
    · exact h.fine q u r hold hr
  · rcases Table.get_insert_cases hu with ⟨rfl, rfl, -⟩ | hold
    · exact absurd hkey hpending
    · exact h.locked q u hold hpending
  · obtain ⟨u, hu, huk⟩ := h.owner k y hy
    exact ⟨u, Table.get_insert_of_get hu, huk⟩

variable [DecidableEq K]

theorem Kept.commit (h : Kept st t g) (hs : g.sessions.get p = some s) {next : Prog K S W C A E α}
    (hsound : (Prog.commit next).Sound st t s.key anyEnd (g.held s) (g.window p s.key)) :
    Kept st t { (g.release p).goOn p { s with pending := none, prog := next } with
      rows := Function.update g.rows s.key (g.view s) } := by
  obtain ⟨hagree, hnext⟩ := hsound
  have hself : (g.sessions.modify p fun _ => { s with pending := none, prog := next }).get p =
      some { s with pending := none, prog := next } := by
    rw [Table.get_modify_self, hs]
    rfl
  refine ⟨fun k => ?_, fun k => ?_, fun q u hu => ?_, fun q u r hu hr => ?_, fun q u hu hpending => ?_,
    fun k y hy => ?_⟩
  · show t.good k (Function.update g.rows s.key (g.view s) k)
    by_cases hk : k = s.key
    · rw [hk, Function.update_self]
      unfold World.view
      cases hpending : s.pending with
      | none => exact h.good s.key
      | some r => exact h.fine p s r hs hpending
    · rw [Function.update_of_ne hk]
      exact h.good k
  · show t.agree (Function.update g.rows s.key (g.view s) k) ((g.release p).settled k)
    by_cases hk : k = s.key
    · rw [hk, Function.update_self]
      by_cases hmine : ∀ y, g.opened s.key = some y → y.1 = p
      · -- the entry is what the request has made of it
        have hsettled : (g.release p).settled s.key = g.entries s.key := by
          unfold World.settled
          cases hopened : (g.release p).opened s.key with
          | none => rfl
          | some y =>
            obtain ⟨hold, hyp⟩ := opened_release hopened
            exact absurd (hmine y hold) hyp
        rw [hsettled]
        exact hagree _ _ _ _ (h.reads hs) (knows hmine) (h.agree s.key)
      · -- another request has written the entry, and is not over
        have hnone : g.window p s.key = none := by
          refine window_eq_none fun y hy hyp => hmine fun z hz => ?_
          rw [hy] at hz
          rw [← Option.some.inj hz]
          exact hyp
        rw [settled_release (by rw [hnone]; exact fun y hy => by cases hy)]
        refine hagree _ _ _ _ (h.reads hs) ?_ (h.agree s.key)
        rw [hnone]
        rfl
    · rw [Function.update_of_ne hk, settled_release]
      · exact h.agree k
      · rw [h.window_of_ne hs hk]
        exact fun y hy => by cases hy
  · by_cases hq : q = p
    · subst hq
      obtain rfl := Option.some.inj (hself.symm.trans hu)
      have hwindow : (g.release q).window q s.key = none := window_release_self
      have hgoal : next.Sound st t s.key anyEnd none ((g.release q).window q s.key) := by
        rw [hwindow]
        exact hnext
      exact hgoal
    · have hu' : g.sessions.get q = some u := (Table.get_modify_of_ne _ _ hq).symm.trans hu
      have hsound := h.sound q u hu'
      -- two requests have not locked one row
      have hheld : u.pending.map (fun r => (Function.update g.rows s.key (g.view s) u.key, r)) = g.held u := by
        unfold World.held
        cases hupending : u.pending with
        | none => rfl
        | some r =>
          have hulock : g.locks u.key = some q := h.locked q u hu' (by rw [hupending]; exact Option.some_ne_none r)
          have hrow : Function.update g.rows s.key (g.view s) u.key = g.rows u.key := by
            by_cases hk : u.key = s.key
            · cases hspending : s.pending with
              | none =>
                have hview : g.view s = g.rows s.key := by
                  unfold World.view
                  rw [hspending]
                  rfl
                rw [hview, Function.update_eq_self]
              | some r' =>
                have hlock := h.locked p s hs (by rw [hspending]; exact Option.some_ne_none r')
                rw [← hk, hulock] at hlock
                exact absurd (Option.some.inj hlock) hq
            · rw [Function.update_of_ne hk]
          rw [hrow]
      rw [← hheld, ← window_release_of_ne hq] at hsound
      exact hsound
  · by_cases hq : q = p
    · subst hq
      obtain rfl := Option.some.inj (hself.symm.trans hu)
      cases hr
    · exact h.fine q u r ((Table.get_modify_of_ne _ _ hq).symm.trans hu) hr
  · by_cases hq : q = p
    · subst hq
      obtain rfl := Option.some.inj (hself.symm.trans hu)
      exact absurd rfl hpending
    · have hu' : g.sessions.get q = some u := (Table.get_modify_of_ne _ _ hq).symm.trans hu
      exact locks_release_of_ne hq (h.locked q u hu' hpending)
  · obtain ⟨hold, hyp⟩ := opened_release hy
    obtain ⟨u, hu, huk⟩ := h.owner k y hold
    exact ⟨u, (Table.get_modify_of_ne _ _ hyp).trans hu, huk⟩

theorem opened_afterCall {c : C} {x : X} (hwrites : st.writes c x = true)
    (hmine : ∀ y, g.opened k = some y → y.1 = p) (j : K) :
    (g.afterCall p st k c x).opened j = if j = k then some (p, g.settled k) else g.opened j := by
  unfold World.afterCall World.settled
  dsimp only
  cases hopened : g.opened k with
  | none =>
    rw [if_pos ⟨hwrites, rfl⟩]
    by_cases hj : j = k
    · rw [hj, Function.update_self, if_pos rfl]
      rfl
    · rw [Function.update_of_ne hj, if_neg hj]
  | some y =>
    rw [if_neg fun hboth => by cases hboth.2]
    by_cases hj : j = k
    · rw [hj, hopened, if_pos rfl, ← hmine y hopened]
      rfl
    · rw [if_neg hj]

theorem afterCall_eq {c : C} {x : X} (hwrites : st.writes c x = false) :
    g.afterCall p st k c x = g := by
  unfold World.afterCall
  rw [st.serve_of_not_writes c x _ hwrites, Function.update_eq_self,
    if_neg fun hboth => by rw [hwrites] at hboth; cases hboth.1]

theorem Kept.call (h : Kept st t g) (hs : g.sessions.get p = some s) {c : C}
    {next : A → Prog K S W C A E α}
    {x : X} (hsound : (Prog.call k c next).Sound st t s.key anyEnd (g.held s) (g.window p s.key))
    (hturn : st.writes c x = true → ∀ y ∈ g.opened k, y.1 = p) : Kept st t
      ((g.afterCall p st k c x).goOn p { s with prog := next (st.serve c x (g.entries k)).1 }) := by
  obtain ⟨rfl, hnext⟩ := hsound
  cases hwrites : st.writes c x with
  | true =>
    have hmine := hturn hwrites
    have hopened := opened_afterCall hwrites hmine
    have hentry : ∀ j, j ≠ s.key → (g.afterCall p st s.key c x).entries j = g.entries j :=
      fun j hj => Function.update_of_ne hj ..
    have hsound' := hnext x _ _ (knows hmine)
    rw [if_pos hwrites] at hsound'
    refine h.advance hs { s with prog := next (st.serve c x (g.entries s.key)).1 } rfl rfl rfl
      (fun j => ?_) (fun _ _ hk => hk) (h.locked p s hs) (h.fine p s · hs) (fun q j hq => ?_)
      (fun j y hy => ?_) ?_
    · show (g.afterCall p st s.key c x).settled j = g.settled j
      unfold World.settled
      rw [hopened j]
      by_cases hj : j = s.key
      · rw [hj, if_pos rfl]
        rfl
      · rw [if_neg hj, hentry j hj]
    · show (g.afterCall p st s.key c x).window q j = g.window q j
      by_cases hj : j = s.key
      · have hnone : ∀ y, g.opened j = some y → y.1 ≠ q := by
          intro y hy hyq
          rw [hj] at hy
          exact hq (hyq.symm.trans (hmine y hy))
        have hnone' : ∀ y, (g.afterCall p st s.key c x).opened j = some y → y.1 ≠ q := by
          intro y hy
          rw [hopened j, if_pos hj] at hy
          rw [← Option.some.inj hy]
          exact Ne.symm hq
        rw [window_eq_none hnone, window_eq_none hnone']
      · unfold World.window
        rw [hopened j, if_neg hj, hentry j hj]
    · have hy' : (g.afterCall p st s.key c x).opened j = some y := hy
      rw [hopened j] at hy'
      by_cases hj : j = s.key
      · rw [if_pos hj] at hy'
        rw [← Option.some.inj hy']
        exact .inr ⟨rfl, hj⟩
      · rw [if_neg hj] at hy'
        exact .inl hy'
    · have hwindow : (g.afterCall p st s.key c x).window p s.key =
          some (g.settled s.key, (st.serve c x (g.entries s.key)).2) := by
        rw [window_eq_some ((hopened s.key).trans (if_pos rfl)) rfl]
        exact congrArg (fun o => some (g.settled s.key, o)) (Function.update_self ..)
      show (next (st.serve c x (g.entries s.key)).1).Sound st t s.key anyEnd (g.held s)
        ((g.afterCall p st s.key c x).window p s.key)
      rw [hwindow]
      exact hsound'
  | false =>
    obtain ⟨b, hb⟩ := exists_knows (g := g) (p := p) (k := s.key)
    have hsound' := hnext x b _ hb
    rw [hwrites, if_neg Bool.false_ne_true] at hsound'
    rw [afterCall_eq hwrites]
    exact h.goOn hs hsound'

theorem Kept.write (h : Kept st t g) (hs : g.sessions.get p = some s) {w : W}
    {next : Bool → Prog K S W C A E α}
    (hsound : (Prog.write w next).Sound st t s.key anyEnd (g.held s) (g.window p s.key))
    (hturn : t.finds w (g.view s) (g.window p s.key))
    (hlock : g.locks s.key = none ∨ g.locks s.key = some p) (hstep : (match st.apply w (g.view s) with
      | none => some (g.goOn p { s with prog := next false })
      | some none => some (g.goOn p { s with prog := next true })
      | some (some r) => some { g.goOn p { s with pending := some r, prog := next true } with
          locks := Function.update g.locks s.key (some p) }) = some g') : Kept st t g' := by
  have hnext := hsound _ _ (h.reads hs) hturn
  split at hstep <;> rename_i happly <;> rw [happly] at hnext <;> obtain rfl := Option.some.inj hstep
  · exact h.goOn hs hnext
  · exact h.goOn hs hnext
  · rename_i r
    refine h.advance hs { s with pending := some r, prog := next true } rfl rfl rfl (fun _ => rfl) (fun k q hq => ?_) (fun _ => Function.update_self ..)
      (fun r' hr => ?_) (fun _ _ _ => rfl) (fun _ _ hy => .inl hy) hnext.2
    · show Function.update g.locks s.key (some p) k = some q
      by_cases hk : k = s.key
      · rw [hk] at hq
        rcases hlock with hfree | hmine
        · rw [hfree] at hq
          cases hq
        · rw [hk, Function.update_self, ← hmine, hq]
      · rw [Function.update_of_ne hk]
        exact hq
    · obtain rfl := Option.some.inj hr
      exact hnext.1

theorem Kept.step (hhandler : ∀ request, (handler request).2.Sound st t (handler request).1 anyEnd none none)
    (h : Kept st t g) {a : Action Req E X} (hturn : InTurn st t g a)
    (hstep : step st handler g a = some g') : Kept st t g' := by
  cases a with
  | begin p request =>
    unfold TwoStores.step at hstep
    dsimp only at hstep
    split_ifs at hstep with hnone
    obtain rfl := Option.some.inj hstep
    exact h.begin hnone rfl (hhandler request)
  | abort p =>
    unfold TwoStores.step at hstep
    dsimp only at hstep
    split_ifs at hstep with hsome
    obtain rfl := Option.some.inj hstep
    obtain ⟨s, hs⟩ := Option.isSome_iff_exists.mp hsome
    exact h.ended hs (hturn s hs)
  | run p e x =>
    obtain ⟨s, hs, hstatement⟩ := Option.bind_eq_some_iff.mp hstep
    have hsound := h.sound p s hs
    have hturn : StatementInTurn st t g p x s := hturn s hs
    unfold statement at hstatement
    unfold StatementInTurn at hturn
    cases hprog : s.prog with
    | ret a =>
      rw [hprog] at hstatement hturn
      obtain rfl := Option.some.inj hstatement
      exact h.ended hs hturn
    | select next =>
      rw [hprog] at hstatement hsound
      obtain rfl := Option.some.inj hstatement
      exact h.goOn hs (hsound _ _ (h.reads hs))
    | ask next =>
      rw [hprog] at hstatement hsound
      obtain rfl := Option.some.inj hstatement
      exact h.goOn hs (hsound e)
    | write w next =>
      rw [hprog] at hstatement hsound hturn
      dsimp only at hstatement
      split_ifs at hstatement with hlock
      exact h.write hs hsound hturn hlock hstatement
    | call k c next =>
      rw [hprog] at hstatement hsound hturn
      obtain rfl := Option.some.inj hstatement
      exact h.call hs hsound hturn
    | commit next =>
      rw [hprog] at hstatement hsound
      obtain rfl := Option.some.inj hstatement
      exact h.commit hs hsound

/-- **The stores agree** whenever no request is under way, in every run that keeps to the condition, when
every program is sound. -/
theorem agree_of_runs
    (hhandler : ∀ request, (handler request).2.Sound st t (handler request).1 anyEnd none none)
    {rows : K → S} {entries : K → O} (hgood : ∀ k, t.good k (rows k))
    (hagree : ∀ k, t.agree (rows k) (entries k))
    (hrun : Runs (step st handler) (InTurn st t) (World.start rows entries) g)
    (hquiet : ∀ p, g.sessions.get p = none) (k : K) : t.agree (g.rows k) (g.entries k) := by
  have hstart : Kept st t (World.start rows entries : World K S O W C A E α) := by
    refine ⟨hgood, hagree, fun p s hs => ?_, fun p s r hs => ?_, fun p s hs => ?_, fun k y hy => ?_⟩
    · cases hs
    · cases hs
    · cases hs
    · cases hy
  have hkept : Kept st t g :=
    hrun.invariant (fun _ _ _ h hturn hstep => h.step hhandler hturn hstep) hstart
  have hsettled : g.settled k = g.entries k := by
    unfold World.settled
    cases hopened : g.opened k with
    | none => rfl
    | some y =>
      obtain ⟨s, hs, -⟩ := hkept.owner k y hopened
      rw [hquiet] at hs
      cases hs
  rw [← hsettled]
  exact hkept.agree k

end Runs

end TwoStores
