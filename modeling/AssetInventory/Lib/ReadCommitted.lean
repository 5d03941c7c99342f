import AssetInventory.Lib.Run
import Mathlib.Data.Nat.Notation
import Mathlib.Logic.Function.Basic

/-!
# Transactions under READ COMMITTED

A request is a program of statements that runs in a transaction of its own.  Between any two of its
statements the other transactions may run.  What it writes is pending: it sees it itself, the others see
it once it has been committed, all at once.

* A `SELECT` sees what has been committed when it runs, and the transaction's own pending writes.
* An `UPDATE` or a `DELETE` of a row waits until no other transaction has the row locked, sees the row as
  it is then, and locks it until the transaction ends.
* A commit publishes the pending writes, a rollback drops them; both end the locks.  A statement that
  wrote nothing can be rolled back on its own, to a savepoint before it.

`Prog` are the programs, `Engine.step` the interleaving.  The second half is the rule to reason about
them.  A `Discipline` says what is invariant, what a transaction relies on the others for and what it
guarantees them; `Prog.Safe` checks one program on its own, statement by statement; `safe_step` puts the
programs together, and `invariant_of_runs` and `preserved_of_runs` are what comes of it for runs.  For the
parts of a program where only the kind of what is written matters there is `Prog.Only`, with
`Prog.Only.safe` and `Stable.bind`.
-/

namespace ReadCommitted

open Interleaving

/-- The identity of a transaction. -/
abbrev TxId := ℕ

/-- A write of type `W` changes data of type `D`. -/
class Applies (W : Type) (D : outParam Type) where
  /-- The data after the write. -/
  apply : W → D → D

/-- The data after some writes, the first of them first. -/
def applyAll {W D : Type} [Applies W D] (ws : List W) (d : D) : D :=
  ws.foldl (fun d w => Applies.apply w d) d

section ApplyAll

variable {W D : Type} [Applies W D]

@[simp] theorem applyAll_nil (d : D) : applyAll ([] : List W) d = d := rfl

@[simp] theorem applyAll_cons (w : W) (ws : List W) (d : D) :
    applyAll (w :: ws) d = applyAll ws (Applies.apply w d) := rfl

theorem applyAll_append (ws vs : List W) (d : D) :
    applyAll (ws ++ vs) d = applyAll vs (applyAll ws d) := List.foldl_append

theorem applyAll_invariant {P : D → Prop} {ws : List W} {d : D}
    (hw : ∀ w ∈ ws, ∀ d, P d → P (Applies.apply w d)) (hd : P d) : P (applyAll ws d) := by
  induction ws generalizing d with
  | nil => exact hd
  | cons w ws ih =>
    exact ih (fun v hv => hw v (List.mem_cons_of_mem _ hv)) (hw w List.mem_cons_self d hd)

end ApplyAll

/-! ## Programs -/

/-- A program over data `D` whose rows are named by `K`: it writes `W`, is answered `E` by the world
outside, announces `V` when it commits, and returns an `α`. -/
inductive Prog (D K W E V α : Type) where
  /-- The end. -/
  | ret (a : α)
  /-- A `SELECT`. -/
  | read (next : D → Prog D K W E V α)
  /-- Something outside the database is asked: the clock, another service. -/
  | ask (next : E → Prog D K W E V α)
  /-- A number that has not been drawn before: a sequence, a random UUID. -/
  | draw (next : ℕ → Prog D K W E V α)
  /-- A statement that writes.  With a row it waits for the lock of the row; what it writes, and how the
  program goes on, depends on the data it sees when it has the lock. -/
  | write (row : Option K) (writes : D → List W) (next : D → Prog D K W E V α)
  /-- A commit, with what it announces. -/
  | commit (note : List V) (next : Prog D K W E V α)
  /-- A rollback. -/
  | rollback (next : Prog D K W E V α)
  /-- A statement that wrote nothing is rolled back to its savepoint: the lock of its row ends. -/
  | unlock (row : K) (next : Prog D K W E V α)

namespace Prog

variable {D K W E V α β : Type}

/-- One program after the other. -/
def bind : Prog D K W E V α → (α → Prog D K W E V β) → Prog D K W E V β
  | .ret a, f => f a
  | .read next, f => .read fun d => (next d).bind f
  | .ask next, f => .ask fun e => (next e).bind f
  | .draw next, f => .draw fun n => (next n).bind f
  | .write row writes next, f => .write row writes fun d => (next d).bind f
  | .commit note next, f => .commit note (next.bind f)
  | .rollback next, f => .rollback (next.bind f)
  | .unlock row next, f => .unlock row (next.bind f)

instance : Monad (Prog D K W E V) where
  pure := .ret
  bind := .bind

/-- The result of a query. -/
def select (query : D → α) : Prog D K W E V α := .read fun d => .ret (query d)

/-- What the world outside answers. -/
def answer (query : E → α) : Prog D K W E V α := .ask fun e => .ret (query e)

/-- A new number. -/
def fresh : Prog D K W E V ℕ := .draw .ret

/-- Write a row that exists. -/
def update (row : K) (writes : D → List W) : Prog D K W E V D := .write (some row) writes .ret

/-- Insert. -/
def insert (w : W) : Prog D K W E V Unit := .write none (fun _ => [w]) fun _ => .ret ()

/-- Commit. -/
def publish (note : List V) : Prog D K W E V Unit := .commit note (.ret ())

/-- Roll back. -/
def undo : Prog D K W E V Unit := .rollback (.ret ())

/-- Roll back to a savepoint. -/
def backtrack (row : K) : Prog D K W E V Unit := .unlock row (.ret ())

end Prog

/-! ## What a program may write -/

/-- Whatever it is told, the program writes only `A`, announces only `B`, returns only `C` and does not
roll back. -/
def Prog.Only {D K W E V α : Type} (A : W → Prop) (B : List V → Prop) (C : α → Prop) :
    Prog D K W E V α → Prop
  | .ret a => C a
  | .read next => ∀ d, (next d).Only A B C
  | .ask next => ∀ e, (next e).Only A B C
  | .draw next => ∀ n, (next n).Only A B C
  | .write _ writes next => ∀ d, (∀ w ∈ writes d, A w) ∧ (next d).Only A B C
  | .commit note next => B note ∧ next.Only A B C
  | .rollback _ => False
  | .unlock _ _ => False

section Only

variable {D K W E V α β : Type} {A : W → Prop} {B : List V → Prop} {C : α → Prop}
  {f : β → Prog D K W E V α}

variable {m : Prog D K W E V β}

theorem Prog.Only.bind {C' : β → Prop} (hm : m.Only A B C')
    (hf : ∀ b, C' b → (f b).Only A B C) : (m >>= f).Only A B C := by
  change (m.bind f).Only A B C
  induction m with
  | ret b => exact hf b hm
  | read next ih => exact fun d => ih d (hm d)
  | ask next ih => exact fun e => ih e (hm e)
  | draw next ih => exact fun n => ih n (hm n)
  | write row writes next ih => exact fun d => ⟨(hm d).1, ih d (hm d).2⟩
  | commit note next ih => exact ⟨hm.1, ih hm.2⟩
  | rollback next => exact hm.elim
  | unlock row next => exact hm.elim

theorem Prog.Only.mono {A' : W → Prop} {B' : List V → Prop} {C' : α → Prop} {m : Prog D K W E V α}
    (hm : m.Only A B C) (hA : ∀ w, A w → A' w) (hB : ∀ note, B note → B' note)
    (hC : ∀ a, C a → C' a) : m.Only A' B' C' := by
  induction m with
  | ret a => exact hC a hm
  | read next ih => exact fun d => ih d (hm d)
  | ask next ih => exact fun e => ih e (hm e)
  | draw next ih => exact fun n => ih n (hm n)
  | write row writes next ih => exact fun d => ⟨fun w hw => hA w ((hm d).1 w hw), ih d (hm d).2⟩
  | commit note next ih => exact ⟨hB note hm.1, ih hm.2⟩
  | rollback next => exact hm.elim
  | unlock row next => exact hm.elim

/-! Rules for the statements, as they stand in a `do` block. -/

theorem only_select (query : D → β) (h : ∀ b, (f b).Only A B C) :
    (Prog.select query >>= f).Only A B C := fun _ => h _

theorem only_answer (query : E → β) (h : ∀ b, (f b).Only A B C) :
    (Prog.answer query >>= f).Only A B C := fun _ => h _

theorem only_fresh {f : ℕ → Prog D K W E V α} (h : ∀ n, (f n).Only A B C) :
    (Prog.fresh >>= f).Only A B C := h

variable {f : D → Prog D K W E V α}

theorem only_update (row : K) {writes : D → List W}
    (hw : ∀ d, ∀ w ∈ writes d, A w) (h : ∀ d, (f d).Only A B C) :
    (Prog.update row writes >>= f).Only A B C := fun d => ⟨hw d, h d⟩

theorem only_update_one (row : K) {w : D → W} (hw : ∀ d, A (w d))
    (h : ∀ d, (f d).Only A B C) : (Prog.update row (fun d => [w d]) >>= f).Only A B C := by
  refine only_update row (fun d v hv => ?_) h
  rw [List.mem_singleton.mp hv]
  exact hw d

theorem only_update_if (row : K) {c : D → Prop} [DecidablePred c] {w : D → W}
    (hw : ∀ d, A (w d)) (h : ∀ d, (f d).Only A B C) :
    (Prog.update row (fun d => if c d then [w d] else []) >>= f).Only A B C := by
  refine only_update row (fun d v hv => ?_) h
  split at hv
  · rw [List.mem_singleton.mp hv]
    exact hw d
  · exact absurd hv List.not_mem_nil

theorem only_insert {f : Unit → Prog D K W E V α} {w : W} (hw : A w) (h : (f ()).Only A B C) :
    (Prog.insert w >>= f).Only A B C := by
  refine fun _ => ⟨fun v hv => ?_, h⟩
  rw [List.mem_singleton.mp hv]
  exact hw

theorem only_publish {f : Unit → Prog D K W E V α} {note : List V} (hnote : B note)
    (h : (f ()).Only A B C) : (Prog.publish note >>= f).Only A B C := ⟨hnote, h⟩

theorem only_pure {a : α} (h : C a) : (pure a : Prog D K W E V α).Only A B C := h

end Only

/-! ## The engine -/

/-- What the transactions share. -/
structure Store (D K V : Type) where
  /-- What has been committed. -/
  data : D
  /-- Which transaction has locked a row. -/
  locks : K → Option TxId
  /-- Who drew the numbers so far, in order. -/
  drawn : List TxId
  /-- What the commits have announced, newest first. -/
  events : List V

/-- A transaction: its pending writes, and the rest of its program. -/
structure Txn (D K W E V : Type) where
  pending : List W
  prog : Prog D K W E V Unit

/-- The store, and a transaction for each identity. -/
structure Engine (D K W E V : Type) where
  store : Store D K V
  txns : TxId → Txn D K W E V

/-- What happens next. -/
inductive Op (Req E : Type) where
  /-- A request comes in. -/
  | begin (p : TxId) (request : Req)
  /-- The next statement of a transaction; `e` is the answer if it asks for one. -/
  | run (p : TxId) (e : E)
  /-- A transaction is broken off: the client is gone, a deadlock, a crash. -/
  | abort (p : TxId)

variable {D K W E V Req : Type} [Applies W D]

namespace Store

variable (s : Store D K V) (p : TxId)

/-- What a transaction with these pending writes sees. -/
def view (pending : List W) : D := applyAll pending s.data

/-- The row is not locked by another transaction. -/
def isFree (k : K) : Bool := (s.locks k).all fun q => decide (q = p)

/-- The row is locked. -/
def lock [DecidableEq K] (row : Option K) : Store D K V :=
  match row with
  | none => s
  | some k => { s with locks := Function.update s.locks k (some p) }

/-- The locks of the transaction are ended. -/
def release : Store D K V :=
  { s with locks := fun k => if s.locks k = some p then none else s.locks k }

/-- The lock of the transaction on a row is ended. -/
def unlock [DecidableEq K] (row : K) : Store D K V :=
  { s with locks := fun k => if k = row ∧ s.locks k = some p then none else s.locks k }

/-- A number is drawn. -/
def draw : Store D K V := { s with drawn := s.drawn ++ [p] }

/-- A commit. -/
def publish (pending : List W) (note : List V) : Store D K V :=
  { s.release p with data := s.view pending, events := note ++ s.events }

omit [Applies W D] in
@[simp] theorem data_lock [DecidableEq K] (row : Option K) : (s.lock p row).data = s.data := by
  cases row with
  | none => rfl
  | some k => rfl

omit [Applies W D] in
@[simp] theorem drawn_lock [DecidableEq K] (row : Option K) : (s.lock p row).drawn = s.drawn := by
  cases row with
  | none => rfl
  | some k => rfl

omit [Applies W D] in
@[simp] theorem events_lock [DecidableEq K] (row : Option K) :
    (s.lock p row).events = s.events := by
  cases row with
  | none => rfl
  | some k => rfl

omit [Applies W D] in
theorem getElem?_drawn_draw {q : TxId} (hq : q ≠ p) (n : ℕ) :
    (s.draw p).drawn[n]? = some q ↔ s.drawn[n]? = some q := by
  rw [draw, List.getElem?_append]
  split
  · exact Iff.rfl
  · rename_i hn
    rw [List.getElem?_eq_none (Nat.le_of_not_lt hn)]
    refine iff_of_false (fun hsome => ?_) (by simp)
    exact hq (List.mem_singleton.mp (List.mem_of_getElem? hsome))

end Store

/-- A transaction that has not begun. -/
def Txn.idle : Txn D K W E V := ⟨[], .ret ()⟩

/-- One statement. -/
def Txn.step [DecidableEq K] (p : TxId) (e : E) (s : Store D K V) :
    Txn D K W E V → Option (Store D K V × Txn D K W E V)
  | ⟨_, .ret _⟩ => none
  | ⟨pending, .read next⟩ => some (s, ⟨pending, next (s.view pending)⟩)
  | ⟨pending, .ask next⟩ => some (s, ⟨pending, next e⟩)
  | ⟨pending, .draw next⟩ => some (s.draw p, ⟨pending, next s.drawn.length⟩)
  | ⟨pending, .write row writes next⟩ =>
    if row.all (s.isFree p) then
      some (s.lock p row,
        ⟨pending ++ writes (s.view pending), next (s.view pending)⟩)
    else none
  | ⟨pending, .commit note next⟩ => some (s.publish p pending note, ⟨[], next⟩)
  | ⟨_, .rollback next⟩ => some (s.release p, ⟨[], next⟩)
  | ⟨pending, .unlock row next⟩ => some (s.unlock p row, ⟨pending, next⟩)

/-- A request's program; the session is closed after it. -/
def session (prog : Prog D K W E V Unit) : Prog D K W E V Unit := prog.bind fun _ => .undo

/-- **The interleaving** of the programs of the requests. -/
def Engine.step [DecidableEq K] (handler : Req → Prog D K W E V Unit) (g : Engine D K W E V) :
    Op Req E → Option (Engine D K W E V)
  | .begin p request =>
    match (g.txns p).prog with
    | .ret _ =>
      some { g with txns := Function.update g.txns p ⟨[], session (handler request)⟩ }
    | _ => none
  | .run p e =>
    ((g.txns p).step p e g.store).map fun (s, t) =>
      ⟨s, Function.update g.txns p t⟩
  | .abort p => some ⟨g.store.release p, Function.update g.txns p .idle⟩

/-- What a program is about to commit announces. -/
def Prog.note? {α : Type} : Prog D K W E V α → Option (List V)
  | .commit note _ => some note
  | _ => none

/-- Every commit is one that `A` allows, by the store and the pending writes. -/
def CommitsOnly (A : Store D K V → List W → List V → Prop) (g : Engine D K W E V) : Op Req E → Prop
  | .run p _ => ∀ note ∈ (g.txns p).prog.note?, A g.store (g.txns p).pending note
  | _ => True

instance {A : Store D K V → List W → List V → Prop} [∀ s ws vs, Decidable (A s ws vs)]
    (g : Engine D K W E V) (op : Op Req E) : Decidable (CommitsOnly A g op) := by
  cases op <;> unfold CommitsOnly <;> infer_instance

/-- What a program is about to write, with the row that it waits for. -/
def Prog.write? {α : Type} (d : D) : Prog D K W E V α → Option (Option K × List W)
  | .write row writes _ => some (row, writes d)
  | _ => none

/-- Every statement that writes is one that `O` opens, by the store, its row and its writes. -/
def WritesOnly (O : Store D K V → Option K → List W → Prop) (g : Engine D K W E V) : Op Req E → Prop
  | .run p _ => ∀ x ∈ (g.txns p).prog.write? (g.store.view (g.txns p).pending), O g.store x.1 x.2
  | _ => True

instance {O : Store D K V → Option K → List W → Prop} [∀ s row ws, Decidable (O s row ws)]
    (g : Engine D K W E V) (op : Op Req E) : Decidable (WritesOnly O g op) := by
  cases op <;> unfold WritesOnly <;> infer_instance

/-- What a step announces. -/
def Engine.announced (g : Engine D K W E V) : Op Req E → List V
  | .run p _ => (g.txns p).prog.note?.getD []
  | _ => []

theorem Engine.events_step [DecidableEq K] {handler : Req → Prog D K W E V Unit}
    {g g' : Engine D K W E V} {op : Op Req E} (h : g.step handler op = some g') :
    g'.store.events = g.announced op ++ g.store.events := by
  cases op with
  | begin p request =>
    rw [Engine.step] at h
    split at h
    · cases h
      rfl
    · cases h
  | abort p =>
    cases h
    rfl
  | run p e =>
    obtain ⟨⟨s', x'⟩, hx, rfl⟩ := Option.map_eq_some_iff.mp h
    change s'.events = (g.txns p).prog.note?.getD [] ++ g.store.events
    revert hx
    obtain ⟨pending, prog⟩ := g.txns p
    intro hx
    cases prog with
    | ret a => cases hx
    | write row writes next =>
      rw [Txn.step] at hx
      split at hx
      · obtain ⟨rfl, -⟩ := Prod.mk.inj (Option.some.inj hx)
        exact g.store.events_lock p row
      · cases hx
    | _ =>
      obtain ⟨rfl, -⟩ := Prod.mk.inj (Option.some.inj hx)
      rfl

/-- Nothing has begun. -/
def Engine.start (s : Store D K V) : Engine D K W E V := ⟨s, fun _ => .idle⟩

/-! ## Rely and guarantee -/

/-- What transactions expect of each other.  `Inv` holds between any two statements; a transaction `p`
relies on the store to change by `Rely p` only, while it is not running, and changes it by `Guar p`.
The statements that change no data keep both. -/
structure Discipline (D K W V : Type) [Applies W D] [DecidableEq K] where
  Inv : Store D K V → Prop
  Rely : TxId → Store D K V → Store D K V → Prop
  Guar : TxId → Store D K V → Store D K V → Prop
  /-- The commits that are allowed. -/
  Allowed : Store D K V → List W → List V → Prop
  /-- The statements that may write, by their row and their writes. -/
  Opens : Store D K V → Option K → List W → Prop := fun _ _ _ => True
  rely_refl : ∀ p s, Rely p s s
  rely_trans : ∀ p s t u, Rely p s t → Rely p t u → Rely p s u
  rely_of_guar : ∀ p q s t, q ≠ p → Guar p s t → Rely q s t
  guar_refl : ∀ p s, Guar p s s
  lock_ok : ∀ p s row, Inv s → row.all (s.isFree p) = true →
    Inv (s.lock p row) ∧ Guar p s (s.lock p row)
  release_ok : ∀ p s, Inv s → Inv (s.release p) ∧ Guar p s (s.release p)
  unlock_ok : ∀ p s row, Inv s → Inv (s.unlock p row) ∧ Guar p s (s.unlock p row)
  draw_ok : ∀ p s, Inv s → Inv (s.draw p) ∧ Guar p s (s.draw p)

variable [DecidableEq K] {α β : Type}

/-- **A safe program**: from the store `s`, with `pending` written, every commit that is allowed keeps
the discipline, whatever the others do meanwhile, and at the end `Q` holds.  Only statements that are open
write. -/
def Prog.Safe (R : Discipline D K W V) (p : TxId) :
    Prog D K W E V α → (α → List W → Store D K V → Prop) → List W → Store D K V → Prop
  | .ret a, Q, pending, s => Q a pending s
  | .read next, Q, pending, s => ∀ t, R.Rely p s t → R.Inv t →
      (next (t.view pending)).Safe R p Q pending t
  | .ask next, Q, pending, s => ∀ t e, R.Rely p s t → R.Inv t → (next e).Safe R p Q pending t
  | .draw next, Q, pending, s => ∀ t, R.Rely p s t → R.Inv t →
      (next t.drawn.length).Safe R p Q pending (t.draw p)
  | .write row writes next, Q, pending, s => ∀ t, R.Rely p s t → R.Inv t →
      (row.all (t.isFree p) = true ∧ R.Opens t row (writes (t.view pending))) →
      (next (t.view pending)).Safe R p Q (pending ++ writes (t.view pending)) (t.lock p row)
  | .commit note next, Q, pending, s => ∀ t, R.Rely p s t → R.Inv t → R.Allowed t pending note →
      R.Inv (t.publish p pending note) ∧ R.Guar p t (t.publish p pending note) ∧
        next.Safe R p Q [] (t.publish p pending note)
  | .rollback next, Q, _, s => ∀ t, R.Rely p s t → R.Inv t → next.Safe R p Q [] (t.release p)
  | .unlock row next, Q, pending, s => ∀ t, R.Rely p s t → R.Inv t →
      next.Safe R p Q pending (t.unlock p row)

/-- Nothing is asked of the end. -/
def anyEnd : α → List W → Store D K V → Prop := fun _ _ _ => True

section Safe

variable {R : Discipline D K W V} {p : TxId} {pending : List W} {s t : Store D K V}
  {Q Q' : α → List W → Store D K V → Prop}

/-- **One program after the other**: the second one is safe at the end of the first. -/
theorem Prog.safe_bind (m : Prog D K W E V α) (f : α → Prog D K W E V β)
    (Q : β → List W → Store D K V → Prop) (pending : List W) (s : Store D K V) :
    (m.bind f).Safe R p Q pending s ↔ m.Safe R p (fun a => (f a).Safe R p Q) pending s := by
  induction m generalizing pending s with
  | ret a => exact Iff.rfl
  | read next ih => exact forall₃_congr fun t _ _ => ih _ _ _
  | ask next ih => exact forall₄_congr fun t e _ _ => ih _ _ _
  | draw next ih => exact forall₃_congr fun t _ _ => ih _ _ _
  | write row writes next ih => exact forall₄_congr fun t _ _ _ => ih _ _ _
  | commit note next ih =>
    exact forall₄_congr fun t _ _ _ => and_congr_right fun _ => and_congr_right fun _ => ih _ _
  | rollback next ih => exact forall₃_congr fun t _ _ => ih _ _
  | unlock row next ih => exact forall₃_congr fun t _ _ => ih _ _

theorem Prog.Safe.mono {m : Prog D K W E V α} (h : m.Safe R p Q pending s)
    (hQ : ∀ a ws s, Q a ws s → Q' a ws s) : m.Safe R p Q' pending s := by
  induction m generalizing pending s with
  | ret a => exact hQ _ _ _ h
  | read next ih => exact fun t hst ht => ih _ (h t hst ht)
  | ask next ih => exact fun t e hst ht => ih _ (h t e hst ht)
  | draw next ih => exact fun t hst ht => ih _ (h t hst ht)
  | write row writes next ih => exact fun t hst ht hfree => ih _ (h t hst ht hfree)
  | commit note next ih =>
    intro t hst ht hallowed
    obtain ⟨hinv, hguar, hnext⟩ := h t hst ht hallowed
    exact ⟨hinv, hguar, ih hnext⟩
  | rollback next ih => exact fun t hst ht => ih (h t hst ht)
  | unlock row next ih => exact fun t hst ht => ih (h t hst ht)

/-- **Stability**: what the others may do leaves a program safe. -/
theorem Prog.Safe.rely {m : Prog D K W E V α} (h : m.Safe R p Q pending s)
    (hQ : ∀ a ws s t, R.Rely p s t → Q a ws s → Q a ws t) (hst : R.Rely p s t) :
    m.Safe R p Q pending t := by
  cases m with
  | ret a => exact hQ _ _ _ _ hst h
  | read next => exact fun u htu => h u (R.rely_trans _ _ _ _ hst htu)
  | ask next => exact fun u e htu => h u e (R.rely_trans _ _ _ _ hst htu)
  | draw next => exact fun u htu => h u (R.rely_trans _ _ _ _ hst htu)
  | write row writes next => exact fun u htu => h u (R.rely_trans _ _ _ _ hst htu)
  | commit note next => exact fun u htu => h u (R.rely_trans _ _ _ _ hst htu)
  | rollback next => exact fun u htu => h u (R.rely_trans _ _ _ _ hst htu)
  | unlock row next => exact fun u htu => h u (R.rely_trans _ _ _ _ hst htu)

theorem safe_session {prog : Prog D K W E V Unit} (h : prog.Safe R p anyEnd pending s) :
    (session prog).Safe R p anyEnd pending s :=
  (Prog.safe_bind _ _ _ _ _).mpr (h.mono fun _ _ _ _ _ _ _ => trivial)

/-! Rules for the statements, as they stand in a `do` block. -/

variable {f : β → Prog D K W E V α}

theorem Prog.Safe.bind {m : Prog D K W E V β} {Q' : β → List W → Store D K V → Prop}
    (h : m.Safe R p Q' pending s)
    (hf : ∀ b ws t, Q' b ws t → (f b).Safe R p Q ws t) : (m >>= f).Safe R p Q pending s :=
  (Prog.safe_bind _ _ _ _ _).mpr (h.mono hf)

theorem safe_select (query : D → β)
    (h : ∀ t, R.Rely p s t → R.Inv t → (f (query (t.view pending))).Safe R p Q pending t) :
    (Prog.select query >>= f).Safe R p Q pending s := h

theorem safe_answer (query : E → β)
    (h : ∀ t e, R.Rely p s t → R.Inv t → (f (query e)).Safe R p Q pending t) :
    (Prog.answer query >>= f).Safe R p Q pending s := h

theorem safe_fresh {f : ℕ → Prog D K W E V α}
    (h : ∀ t, R.Rely p s t → R.Inv t → (f t.drawn.length).Safe R p Q pending (t.draw p)) :
    (Prog.fresh >>= f).Safe R p Q pending s := h

theorem safe_update {f : D → Prog D K W E V α} (row : K) (writes : D → List W)
    (h : ∀ t, R.Rely p s t → R.Inv t → t.isFree p row = true →
      (f (t.view pending)).Safe R p Q (pending ++ writes (t.view pending)) (t.lock p (some row))) :
    (Prog.update row writes >>= f).Safe R p Q pending s := fun t hst ht hrow => h t hst ht hrow.1

variable {f : Unit → Prog D K W E V α}

theorem safe_insert (w : W)
    (h : ∀ t, R.Rely p s t → R.Inv t → (f ()).Safe R p Q (pending ++ [w]) t) :
    (Prog.insert w >>= f).Safe R p Q pending s := fun t hst ht _ => h t hst ht

theorem safe_publish (note : List V) (h : ∀ t, R.Rely p s t → R.Inv t → R.Allowed t pending note →
      R.Inv (t.publish p pending note) ∧ R.Guar p t (t.publish p pending note) ∧
        (f ()).Safe R p Q [] (t.publish p pending note)) :
    (Prog.publish note >>= f).Safe R p Q pending s := h

theorem safe_backtrack (row : K)
    (h : ∀ t, R.Rely p s t → R.Inv t → (f ()).Safe R p Q pending (t.unlock p row)) :
    (Prog.backtrack row >>= f).Safe R p Q pending s := h

theorem safe_pure {a : α} (h : Q a pending s) :
    (pure a : Prog D K W E V α).Safe R p Q pending s := h

end Safe

/-! ## Facts that outlast the others -/

/-- A fact about a transaction that outlasts what the others do, and its own draws and locks. -/
structure Stable (R : Discipline D K W V) (p : TxId) (P : List W → Store D K V → Prop) : Prop where
  rely : ∀ ws s t, R.Rely p s t → P ws s → P ws t
  draw : ∀ ws s, P ws s → P ws (s.draw p)
  lock : ∀ ws s row, P ws s → P ws (s.lock p row)

variable {R : Discipline D K W V} {p : TxId} {P : List W → Store D K V → Prop}

theorem Stable.and {P' : List W → Store D K V → Prop}
    (h : Stable R p P) (h' : Stable R p P') : Stable R p fun ws s => P ws s ∧ P' ws s where
  rely ws s t hst hs := ⟨h.rely ws s t hst hs.1, h'.rely ws s t hst hs.2⟩
  draw ws s hs := ⟨h.draw ws s hs.1, h'.draw ws s hs.2⟩
  lock ws s row hs := ⟨h.lock ws s row hs.1, h'.lock ws s row hs.2⟩

theorem stable_of_pending (R : Discipline D K W V) (p : TxId) (P : List W → Prop) :
    Stable R p fun ws _ => P ws :=
  ⟨fun _ _ _ _ h => h, fun _ _ h => h, fun _ _ _ h => h⟩

theorem Stable.of_data {P : List W → D → Prop}
    (h : ∀ ws s t, R.Rely p s t → P ws s.data → P ws t.data) :
    Stable R p fun ws s => P ws s.data where
  rely := h
  draw _ _ hs := hs
  lock _ s row hs := by
    rw [Store.data_lock]
    exact hs

variable {s s' : Store D K V} {pending : List W} {A : W → Prop} {C : α → Prop}

/-- **Programs that keep a fact**: every write that the program may make keeps `P`, and every commit that
it may announce keeps the discipline and `P`. -/
theorem Prog.Only.safe {B : List V → Prop} {m : Prog D K W E V α} (hP : Stable R p P)
    (hwrite : ∀ ws s w, A w → P ws s → P (ws ++ [w]) s)
    (hcommit : ∀ ws s note, B note → R.Inv s → P ws s → R.Allowed s ws note →
      R.Inv (s.publish p ws note) ∧ R.Guar p s (s.publish p ws note) ∧ P [] (s.publish p ws note))
    (hm : m.Only A B C) (h : P pending s) : m.Safe R p (fun a ws t => C a ∧ P ws t) pending s := by
  have hwrites : ∀ ws vs s, (∀ v ∈ vs, A v) → P ws s → P (ws ++ vs) s := by
    intro ws vs s hvs hs
    induction vs generalizing ws with
    | nil => rwa [List.append_nil]
    | cons v vs ih =>
      rw [List.append_cons]
      exact ih _ (fun w hw => hvs w (List.mem_cons_of_mem _ hw))
        (hwrite ws s v (hvs v List.mem_cons_self) hs)
  induction m generalizing pending s with
  | ret a => exact ⟨hm, h⟩
  | read next ih => exact fun t hst _ => ih _ (hm _) (hP.rely _ _ _ hst h)
  | ask next ih => exact fun t e hst _ => ih _ (hm e) (hP.rely _ _ _ hst h)
  | draw next ih => exact fun t hst _ => ih _ (hm _) (hP.draw _ _ (hP.rely _ _ _ hst h))
  | write row writes next ih =>
    intro t hst _ _
    obtain ⟨hA, hnext⟩ := hm (t.view pending)
    exact ih _ hnext (hP.lock _ _ _ (hwrites _ _ _ hA (hP.rely _ _ _ hst h)))
  | commit note next ih =>
    intro t hst ht hallowed
    obtain ⟨hinv, hguar, hkeep⟩ := hcommit _ _ _ hm.1 ht (hP.rely _ _ _ hst h) hallowed
    exact ⟨hinv, hguar, ih hm.2 hkeep⟩
  | rollback next => exact hm.elim
  | unlock row next => exact hm.elim

/-- **Programs whose writes are all of one kind**: a commit of such writes has to keep the discipline. -/
theorem Prog.Only.safe_of_all {B : List V → Prop} {m : Prog D K W E V α}
    (hcommit : ∀ ws s note, B note → R.Inv s → (∀ w ∈ ws, A w) → R.Allowed s ws note →
      R.Inv (s.publish p ws note) ∧ R.Guar p s (s.publish p ws note))
    (hm : m.Only A B C) (h : ∀ w ∈ pending, A w) :
    m.Safe R p (fun a ws _ => C a ∧ ∀ w ∈ ws, A w) pending s := by
  refine hm.safe (stable_of_pending R p fun ws => ∀ w ∈ ws, A w) ?_ ?_ h
  · intro ws _ w hw hws
    exact List.forall_mem_append.mpr ⟨hws, List.forall_mem_singleton.mpr hw⟩
  · intro ws s note hnote hinv hws hallowed
    obtain ⟨hinv', hguar⟩ := hcommit ws s note hnote hinv hws hallowed
    exact ⟨hinv', hguar, List.forall_mem_nil _⟩

/-- A part of a program that does not commit, in a `do` block: a fact outlasts it. -/
theorem Stable.bind {m : Prog D K W E V β} {C : β → Prop} {f : β → Prog D K W E V α}
    {Q : α → List W → Store D K V → Prop} (hP : Stable R p P)
    (hwrite : ∀ ws s w, A w → P ws s → P (ws ++ [w]) s) (hm : m.Only A (fun _ => False) C)
    (h : P pending s) (hf : ∀ b ws t, C b → P ws t → (f b).Safe R p Q ws t) :
    (m >>= f).Safe R p Q pending s :=
  (hm.safe hP hwrite (fun _ _ _ hnote => hnote.elim) h).bind fun b ws t hb => hf b ws t hb.1 hb.2

theorem Prog.Only.bind_safe {m : Prog D K W E V β} {C : β → Prop} {f : β → Prog D K W E V α}
    {Q : α → List W → Store D K V → Prop} (hm : m.Only (fun _ => False) (fun _ => False) C)
    (hf : ∀ b t, C b → (f b).Safe R p Q pending t) : (m >>= f).Safe R p Q pending s := by
  refine (stable_of_pending R p fun ws => ws = pending).bind (fun _ _ _ h => h.elim) hm rfl ?_
  rintro b ws t hb rfl
  exact hf b t hb

theorem Prog.Only.safe_anyEnd {m : Prog D K W E V α}
    (hm : m.Only (fun _ => False) (fun _ => False) C) : m.Safe R p anyEnd pending s :=
  (hm.safe (stable_of_pending R p fun _ => True) (fun _ _ _ h => h.elim) (fun _ _ _ h => h.elim)
    trivial).mono fun _ _ _ _ => trivial

/-! ## Putting programs together -/

section Runs

variable {R : Discipline D K W V} {handler : Req → Prog D K W E V Unit} {g g' : Engine D K W E V}

/-- The invariant holds, and every transaction is safe as far as it has come. -/
structure AllSafe (R : Discipline D K W V) (g : Engine D K W E V) : Prop where
  inv : R.Inv g.store
  txns : ∀ p, (g.txns p).prog.Safe R p anyEnd (g.txns p).pending g.store

theorem Txn.safe_step {e : E} {x x' : Txn D K W E V}
    {Q : Unit → List W → Store D K V → Prop} (hinv : R.Inv s) (hsafe : x.prog.Safe R p Q x.pending s)
    (hallowed : ∀ note next, x.prog = .commit note next → R.Allowed s x.pending note)
    (hopen : ∀ y ∈ x.prog.write? (s.view x.pending), R.Opens s y.1 y.2)
    (h : x.step p e s = some (s', x')) :
    R.Inv s' ∧ R.Guar p s s' ∧ x'.prog.Safe R p Q x'.pending s' := by
  obtain ⟨pending, prog⟩ := x
  have hrefl := R.rely_refl p s
  cases prog with
  | ret a => cases h
  | read next =>
    obtain ⟨rfl, rfl⟩ := Prod.mk.inj (Option.some.inj h)
    exact ⟨hinv, R.guar_refl _ _, hsafe s hrefl hinv⟩
  | ask next =>
    obtain ⟨rfl, rfl⟩ := Prod.mk.inj (Option.some.inj h)
    exact ⟨hinv, R.guar_refl _ _, hsafe s e hrefl hinv⟩
  | draw next =>
    obtain ⟨rfl, rfl⟩ := Prod.mk.inj (Option.some.inj h)
    obtain ⟨hdrawn, hguar⟩ := R.draw_ok p s hinv
    exact ⟨hdrawn, hguar, hsafe s hrefl hinv⟩
  | write row writes next =>
    rw [Txn.step] at h
    split at h
    · rename_i hfree
      obtain ⟨rfl, rfl⟩ := Prod.mk.inj (Option.some.inj h)
      obtain ⟨hlocked, hguar⟩ := R.lock_ok p s row hinv hfree
      exact ⟨hlocked, hguar, hsafe s hrefl hinv ⟨hfree, hopen _ rfl⟩⟩
    · cases h
  | commit note next =>
    obtain ⟨rfl, rfl⟩ := Prod.mk.inj (Option.some.inj h)
    exact hsafe s hrefl hinv (hallowed note next rfl)
  | rollback next =>
    obtain ⟨rfl, rfl⟩ := Prod.mk.inj (Option.some.inj h)
    obtain ⟨hreleased, hguar⟩ := R.release_ok p s hinv
    exact ⟨hreleased, hguar, hsafe s hrefl hinv⟩
  | unlock row next =>
    obtain ⟨rfl, rfl⟩ := Prod.mk.inj (Option.some.inj h)
    obtain ⟨hunlocked, hguar⟩ := R.unlock_ok p s row hinv
    exact ⟨hunlocked, hguar, hsafe s hrefl hinv⟩

theorem AllSafe.update {x' : Txn D K W E V} (h : AllSafe R g)
    (hinv : R.Inv s') (hguar : R.Guar p g.store s')
    (hsafe : x'.prog.Safe R p anyEnd x'.pending s') :
    AllSafe R ⟨s', Function.update g.txns p x'⟩ where
  inv := hinv
  txns q := by
    change (Function.update g.txns p x' q).prog.Safe R q anyEnd
      (Function.update g.txns p x' q).pending s'
    by_cases hq : q = p
    · subst hq
      rw [Function.update_self]
      exact hsafe
    · rw [Function.update_of_ne hq]
      exact (h.txns q).rely (fun _ _ _ _ _ h => h) (R.rely_of_guar p q _ _ hq hguar)

/-- The commits are allowed, and the statements that write are open. -/
def Discipline.Permits (R : Discipline D K W V) (g : Engine D K W E V) (op : Op Req E) : Prop :=
  CommitsOnly R.Allowed g op ∧ WritesOnly R.Opens g op

/-- **A step of the engine** that is permitted keeps the transactions safe, and some transaction
guarantees it. -/
theorem safe_step (hhandler : ∀ p request s, R.Inv s → (handler request).Safe R p anyEnd [] s)
    (h : AllSafe R g) {op : Op Req E} (hop : R.Permits g op)
    (hstep : g.step handler op = some g') : AllSafe R g' ∧ ∃ p, R.Guar p g.store g'.store := by
  cases op with
  | begin p request =>
    rw [Engine.step] at hstep
    split at hstep
    · cases hstep
      exact ⟨h.update h.inv (R.guar_refl p _) (safe_session (hhandler p request _ h.inv)), p,
        R.guar_refl p _⟩
    · cases hstep
  | run p e =>
    obtain ⟨⟨s', x'⟩, hx, rfl⟩ := Option.map_eq_some_iff.mp hstep
    have hallowed : ∀ note next, (g.txns p).prog = .commit note next →
        R.Allowed g.store (g.txns p).pending note := by
      intro note next hprog
      exact hop.1 note (by rw [hprog]; rfl)
    obtain ⟨hinv, hguar, hsafe⟩ := Txn.safe_step h.inv (h.txns p) hallowed hop.2 hx
    exact ⟨h.update hinv hguar hsafe, p, hguar⟩
  | abort p =>
    cases hstep
    obtain ⟨hinv, hguar⟩ := R.release_ok p g.store h.inv
    exact ⟨h.update hinv hguar trivial, p, hguar⟩

theorem allSafe_start (h : R.Inv s) :
    AllSafe R (Engine.start s : Engine D K W E V) := ⟨h, fun _ => trivial⟩

theorem allSafe_of_runs (hhandler : ∀ p request s, R.Inv s → (handler request).Safe R p anyEnd [] s)
    (h : AllSafe R g) (hrun : Runs (Engine.step handler) R.Permits g g') : AllSafe R g' :=
  hrun.invariant (fun _ _ _ hs hG hstep => (safe_step hhandler hs hG hstep).1) h

/-- **The invariant** of a run that is permitted. -/
theorem invariant_of_runs
    (hhandler : ∀ p request s, R.Inv s → (handler request).Safe R p anyEnd [] s)
    (h : AllSafe R g) (hrun : Runs (Engine.step handler) R.Permits g g') :
    R.Inv g'.store := (allSafe_of_runs hhandler h hrun).inv

/-- **What changes in a run** that is permitted: a transitive relation that every guarantee implies. -/
theorem preserved_of_runs
    (hhandler : ∀ p request s, R.Inv s → (handler request).Safe R p anyEnd [] s)
    {M : Store D K V → Store D K V → Prop} (hrefl : ∀ s, M s s)
    (htrans : ∀ s t u, M s t → M t u → M s u) (hguar : ∀ p s t, R.Guar p s t → M s t)
    (h : AllSafe R g) (hrun : Runs (Engine.step handler) R.Permits g g') : M g.store g'.store := by
  have hboth := hrun.invariant (I := fun v => AllSafe R v ∧ M g.store v.store)
    (fun v op v' hv hG hstep => by
      obtain ⟨hsafe, p, hp⟩ := safe_step hhandler hv.1 hG hstep
      exact ⟨hsafe, htrans _ _ _ hv.2 (hguar p _ _ hp)⟩) ⟨h, hrefl _⟩
  exact hboth.2

/-- Where every commit is allowed and every statement is open, everything is permitted. -/
theorem Discipline.permits_of_always (hallowed : ∀ s ws note, R.Allowed s ws note)
    (hopen : ∀ s row ws, R.Opens s row ws) (g : Engine D K W E V) (op : Op Req E) :
    R.Permits g op := by
  cases op with
  | run p e => exact ⟨fun note _ => hallowed _ _ note, fun x _ => hopen _ x.1 x.2⟩
  | _ => exact ⟨trivial, trivial⟩

theorem permits_of_commits (hopen : ∀ s row ws, R.Opens s row ws)
    (hrun : Runs (Engine.step handler) (CommitsOnly R.Allowed) g g') :
    Runs (Engine.step handler) R.Permits g g' := by
  refine hrun.mono fun g op hop => ⟨hop, ?_⟩
  cases op with
  | run p e => exact fun x _ => hopen g.store x.1 x.2
  | _ => trivial

end Runs

end ReadCommitted
