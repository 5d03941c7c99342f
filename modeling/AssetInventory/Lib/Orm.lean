import Mathlib.Logic.Basic
import Mathlib.Data.List.Basic

/-!
# Sessions that write back what they changed

An object-relational session loads a row into an object, lets code assign to its attributes, and at a
flush writes the attributes whose value differs from the one they were loaded or last flushed with.
It does not read the row again.  So a flush is a pair of objects, the *base* and the *current* one,
and its effect on the stored row is a write-back: the current value of every column that changed, the
stored value of every other.

* `pick`: the write-back of one column.
* `WriteBack`: a write-back of whole rows, with the three laws a column-wise one has.
* `Session`: an object with its base and the flushes made so far.  `Session.set` assigns to
  attributes; `Session.mutate` changes a value in place, which the session does not see, so base and
  object change together; `Session.commit` flushes.
* `Links`, `AllFlushes`: what a sequence of flushes says about the row, stated along the sequence,
  with the rules for `set`, `mutate` and `commit`.
* `Session.Keeps`: a session that does not write a part of the row, with the same rules.
-/

namespace Orm

universe u

/-! ## One column -/

/-- The write-back of a column: the current value if it differs from the base, else the stored
one. -/
def pick {α : Type u} [DecidableEq α] (base cur stored : α) : α :=
  if cur = base then stored else cur

section Pick

variable {α : Type u} [DecidableEq α]

@[simp] theorem pick_same (b s : α) : pick b b s = s := if_pos rfl

@[simp] theorem pick_base (b c : α) : pick b c b = c := by
  by_cases h : c = b
  · rw [pick, if_pos h, h]
  · rw [pick, if_neg h]

theorem pick_of_ne {b c : α} (h : c ≠ b) (s : α) : pick b c s = c := if_neg h

theorem pick_cases (b c s : α) : (c = b ∧ pick b c s = s) ∨ (c ≠ b ∧ pick b c s = c) := by
  by_cases h : c = b
  · exact Or.inl ⟨h, if_pos h⟩
  · exact Or.inr ⟨h, if_neg h⟩

end Pick

/-! ## Sessions -/

variable {R : Type u}

/-- An object in a session: the values it was loaded or last flushed with, its attributes now, and
the flushes so far, oldest first. -/
structure Session (R : Type u) where
  /-- The values at the last load or flush. -/
  base : R
  /-- The attributes as they are now. -/
  cur : R
  /-- The flushes, oldest first. -/
  flushed : List (R × R)
  deriving Repr, DecidableEq

namespace Session

/-- The object as loaded. -/
def load (r : R) : Session R := ⟨r, r, []⟩

/-- Assign to attributes. -/
def set (s : Session R) (f : R → R) : Session R := { s with cur := f s.cur }

/-- Change a value in place: the session compares against the changed value as well. -/
def mutate (s : Session R) (f : R → R) : Session R := { s with base := f s.base, cur := f s.cur }

/-- Flush and commit. -/
def commit (s : Session R) : Session R :=
  { base := s.cur, cur := s.cur, flushed := s.flushed ++ [(s.base, s.cur)] }

@[simp] theorem cur_load (r : R) : (load r).cur = r := rfl

@[simp] theorem base_load (r : R) : (load r).base = r := rfl

@[simp] theorem flushed_load (r : R) : (load r).flushed = [] := rfl

@[simp] theorem cur_set (s : Session R) (f : R → R) : (s.set f).cur = f s.cur := rfl

@[simp] theorem base_set (s : Session R) (f : R → R) : (s.set f).base = s.base := rfl

@[simp] theorem flushed_set (s : Session R) (f : R → R) : (s.set f).flushed = s.flushed := rfl

@[simp] theorem cur_mutate (s : Session R) (f : R → R) : (s.mutate f).cur = f s.cur := rfl

@[simp] theorem base_mutate (s : Session R) (f : R → R) : (s.mutate f).base = f s.base := rfl

@[simp] theorem flushed_mutate (s : Session R) (f : R → R) : (s.mutate f).flushed = s.flushed :=
  rfl

@[simp] theorem cur_commit (s : Session R) : s.commit.cur = s.cur := rfl

@[simp] theorem base_commit (s : Session R) : s.commit.base = s.cur := rfl

@[simp] theorem flushed_commit (s : Session R) :
    s.commit.flushed = s.flushed ++ [(s.base, s.cur)] := rfl

end Session

/-! ## Along a sequence of flushes -/

variable {α : Type*}

/-- `Links v r l`: as far as `v` can tell, every flush of `l` starts from what the one before it
left, and the first from `r`. -/
def Links (v : R → α) : R → List (R × R) → Prop
  | _, [] => True
  | r, (b, c) :: l => v b = v r ∧ Links v c l

/-- Every flush satisfies `S`. -/
def AllFlushes (S : R → R → Prop) (l : List (R × R)) : Prop := ∀ p ∈ l, S p.1 p.2

/-- What the last of a sequence of flushes left, from `r`. -/
def lastOf (r : R) : List (R × R) → R
  | [] => r
  | (_, c) :: l => lastOf c l

theorem lastOf_append (r : R) (l : List (R × R)) (b c : R) : lastOf r (l ++ [(b, c)]) = c := by
  induction l generalizing r with
  | nil => rfl
  | cons p l ih => exact ih p.2

theorem links_append {v : R → α} {r : R} {l : List (R × R)} {b c : R} (h : Links v r l)
    (hb : v b = v (lastOf r l)) : Links v r (l ++ [(b, c)]) := by
  induction l generalizing r with
  | nil => exact ⟨hb, trivial⟩
  | cons p l ih => exact ⟨h.1, ih h.2 hb⟩

theorem AllFlushes.append {S : R → R → Prop} {l : List (R × R)} {b c : R} (h : AllFlushes S l)
    (hbc : S b c) : AllFlushes S (l ++ [(b, c)]) := by
  intro p hp
  rcases List.mem_append.mp hp with hp | hp
  · exact h p hp
  · rw [List.mem_singleton.mp hp]
    exact hbc

/-- **What flushes preserve.**  A property that `v` determines and that no flush breaks holds of every
object along a linked sequence, if it holds of the first. -/
theorem Links.all {v : R → α} {S : R → R → Prop} {T : R → Prop}
    (hv : ∀ a b, v b = v a → T a → T b) (hS : ∀ b c, S b c → T b → T c) {r : R}
    {l : List (R × R)} (hlinks : Links v r l) (hall : AllFlushes S l) (hr : T r) :
    ∀ p ∈ l, T p.1 ∧ T p.2 := by
  induction l generalizing r with
  | nil => exact fun _ h => absurd h List.not_mem_nil
  | cons q l ih =>
    have hb : T q.1 := hv r q.1 hlinks.1 hr
    have hc : T q.2 := hS _ _ (hall q List.mem_cons_self) hb
    intro p hp
    rcases List.mem_cons.mp hp with rfl | hp
    · exact ⟨hb, hc⟩
    · exact ih hlinks.2 (fun q' hq' => hall q' (List.mem_cons_of_mem _ hq')) hc p hp

/-- **A session in order.**  Its flushes are linked from the object it loaded, each satisfies `S`,
and its base is what the last flush left, as far as `v` can tell. -/
structure Session.Ok (v : R → α) (S : R → R → Prop) (r : R) (s : Session R) : Prop where
  /-- The flushes are linked. -/
  links : Links v r s.flushed
  /-- Each flush satisfies `S`. -/
  all : AllFlushes S s.flushed
  /-- The base is the last flushed value. -/
  base : v s.base = v (lastOf r s.flushed)

variable {v : R → α} {S : R → R → Prop} {r : R} {s : Session R}

theorem Session.Ok.load (v : R → α) (S : R → R → Prop) (r : R) :
    (Session.load r).Ok v S r := ⟨trivial, fun _ h => absurd h List.not_mem_nil, rfl⟩

theorem Session.Ok.set (h : s.Ok v S r) (f : R → R) : (s.set f).Ok v S r :=
  ⟨h.links, h.all, h.base⟩

theorem Session.Ok.mutate (h : s.Ok v S r) {f : R → R} (hf : ∀ x, v (f x) = v x) :
    (s.mutate f).Ok v S r := ⟨h.links, h.all, (hf _).trans h.base⟩

theorem Session.Ok.commit (h : s.Ok v S r) (hS : S s.base s.cur) : s.commit.Ok v S r where
  links := links_append h.links h.base
  all := h.all.append hS
  base := by rw [flushed_commit, lastOf_append, base_commit]

/-- A session none of whose assignments changes `v`. -/
structure Session.Keeps (v : R → α) (s : Session R) : Prop where
  /-- No flush changes it. -/
  flushed : AllFlushes (fun b c => v c = v b) s.flushed
  /-- Nor do the assignments since the last flush. -/
  cur : v s.cur = v s.base

theorem Session.Keeps.load (v : R → α) (r : R) : (Session.load r).Keeps v :=
  ⟨fun _ h => absurd h List.not_mem_nil, rfl⟩

theorem Session.Keeps.set (h : s.Keeps v) {f : R → R} (hf : ∀ x, v (f x) = v x) :
    (s.set f).Keeps v := ⟨h.flushed, (hf _).trans h.cur⟩

theorem Session.Keeps.mutate (h : s.Keeps v) {f : R → R} (hf : ∀ x y, v x = v y → v (f x) = v (f y)) :
    (s.mutate f).Keeps v := ⟨h.flushed, hf _ _ h.cur⟩

theorem Session.Keeps.commit (h : s.Keeps v) : s.commit.Keeps v :=
  ⟨h.flushed.append h.cur, rfl⟩

end Orm
