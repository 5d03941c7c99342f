import Mathlib.Data.List.Basic

/-!
# Sessions that share a transaction

A session sees the database through one transaction, with its own changes in it.  Changes are collected and
sent when a statement needs them, or at the commit.  Code that is handed a session can end its transaction,
and so publish or drop what its caller has changed.

* A statement that the server refuses aborts the transaction: every statement is refused until the
  transaction ends, and a commit ends it without a word, and without the changes.
* A change that is refused when it is sent makes the session inactive: everything is rolled back, and the
  session refuses to go on until it is told to roll back itself.
* Both this and a rollback let the objects expire that the session has read.  Reading an attribute of an
  expired object would need a statement, which an asynchronous session does not make on its own.

`Work` is a piece of code that uses a session; there is a lemma on what each kind of it does.
-/

namespace UnitOfWork

/-- How the transaction of a session stands. -/
inductive Standing where
  | active
  /-- A statement has been refused, and all further ones will be. -/
  | aborted
  /-- Changes have been refused, and the session waits for a rollback. -/
  | inactive
  deriving DecidableEq, Repr

/-- A session over data `D`. -/
structure Session (D : Type) where
  /-- What is in the database. -/
  committed : D
  /-- What the session sees, with its changes. -/
  pending : D
  /-- Some changes have not been sent. -/
  dirty : Bool
  standing : Standing
  /-- How often the objects of the session have expired. -/
  age : ℕ

/-- What gets out of a statement. -/
inductive Raised where
  /-- The server has refused. -/
  | refused
  /-- The session waits for a rollback. -/
  | pendingRollback
  /-- An attribute of an expired object was read. -/
  | missingGreenlet
  /-- What the code around the statements raises. -/
  | other (text : String)
  deriving DecidableEq, Repr

/-- The constraints of the database. -/
class Constrained (D : Type) where
  valid : D → Bool

/-- Code that uses a session. -/
abbrev Work (D α : Type) : Type := Session D → Except Raised α × Session D

variable {D α β : Type}

namespace Work

/-- One piece of code after the other. -/
def bind (m : Work D α) (f : α → Work D β) : Work D β := fun s =>
  match m s with
  | (.ok a, t) => f a t
  | (.error e, t) => (.error e, t)

instance : Monad (Work D) where
  pure a := fun s => (.ok a, s)
  bind := bind

/-- `raise`. -/
def throw (e : Raised) : Work D α := fun s => (.error e, s)

/-- `try` with an `except Exception`. -/
def attempt (m : Work D α) (handler : Raised → Work D α) : Work D α := fun s =>
  match m s with
  | (.ok a, t) => (.ok a, t)
  | (.error e, t) => handler e t

/-- Look at what the session sees, without a statement. -/
def peek (query : D → α) : Work D α := fun s => (.ok (query s.pending), s)

/-- Add objects, or assign to attributes. -/
def change (f : D → D) : Work D Unit := fun s =>
  (.ok (), { s with pending := f s.pending, dirty := true })

/-- The age of the objects that are read now. -/
def stamp : Work D ℕ := fun s => (.ok s.age, s)

/-- Read an attribute of an object of this age. -/
def touch (age : ℕ) : Work D Unit := fun s =>
  if s.age = age then (.ok (), s) else (.error .missingGreenlet, s)

/-- After refused changes. -/
def collapse (s : Session D) : Session D where
  committed := s.committed
  pending := s.committed
  dirty := false
  standing := .inactive
  age := s.age + 1

variable [Constrained D]

/-- Send the changes. -/
def flush (fault : Bool) : Work D Unit := fun s =>
  if s.dirty = false then (.ok (), s)
  else
    match s.standing with
    | .inactive => (.error .pendingRollback, s)
    | .aborted => (.error .refused, collapse s)
    | .active =>
      if fault = true ∨ Constrained.valid s.pending = false then (.error .refused, collapse s)
      else (.ok (), { s with dirty := false })

/-- A query, with the changes sent before it. -/
def select (fault : Bool) (query : D → α) : Work D α :=
  bind (flush false) fun _ s =>
    match s.standing with
    | .inactive => (.error .pendingRollback, s)
    | .aborted => (.error .refused, s)
    | .active =>
      if fault then (.error .refused, { s with standing := .aborted })
      else (.ok (query s.pending), s)

/-- Commit; an aborted transaction ends without its changes. -/
def commit (fault : Bool) : Work D Unit :=
  bind (flush fault) fun _ s =>
    match s.standing with
    | .inactive => (.error .pendingRollback, s)
    | .aborted => (.ok (), { s with pending := s.committed, standing := .active })
    | .active => (.ok (), { s with committed := s.pending })

/-- Roll back. -/
def rollback : Work D Unit := fun s =>
  (.ok (), {
    committed := s.committed
    pending := s.committed
    dirty := false
    standing := .active
    age := s.age + 1 })

end Work

/-- A session that has just been opened. -/
def Session.start (d : D) : Session D := ⟨d, d, false, .active, 0⟩

/-! ## What the actions do -/

namespace Work

variable {m : Work D α} {f : α → Work D β} {s t : Session D} {a : α} {e : Raised}

theorem bind_ok (h : m s = (.ok a, t)) : (m >>= f) s = f a t := by
  show bind m f s = f a t
  rw [bind, h]

theorem bind_error (h : m s = (.error e, t)) : (m >>= f) s = (.error e, t) := by
  show bind m f s = (.error e, t)
  rw [bind, h]

theorem attempt_ok {handler : Raised → Work D α} (h : m s = (.ok a, t)) :
    attempt m handler s = (.ok a, t) := by
  rw [attempt, h]

theorem attempt_error {handler : Raised → Work D α} (h : m s = (.error e, t)) :
    attempt m handler s = handler e t := by
  rw [attempt, h]

@[simp] theorem pure_run (a : α) (s : Session D) : (pure a : Work D α) s = (.ok a, s) := rfl

theorem forM_cons (f : α → Work D Unit) (x : α) (xs : List α) :
    (x :: xs).forM f = (f x >>= fun _ => xs.forM f) := rfl

variable [Constrained D]

theorem flush_active (hs : s.standing = .active) (hvalid : Constrained.valid s.pending = true) :
    flush false s = (.ok (), { s with dirty := false }) := by
  unfold flush
  by_cases hdirty : s.dirty = false
  · rw [if_pos hdirty, ← hdirty]
  · rw [if_neg hdirty, hs]
    exact if_neg (by simp [hvalid])

theorem flush_refused {fault : Bool} (hdirty : s.dirty = true) (hs : s.standing = .active)
    (h : fault = true ∨ Constrained.valid s.pending = false) :
    flush fault s = (.error .refused, collapse s) := by
  unfold flush
  rw [if_neg (by simp [hdirty]), hs]
  exact if_pos h

theorem flush_aborted (fault : Bool) (hdirty : s.dirty = true) (hs : s.standing = .aborted) :
    flush fault s = (.error .refused, collapse s) := by
  unfold flush
  rw [if_neg (by simp [hdirty]), hs]

theorem flush_inactive (fault : Bool) (hdirty : s.dirty = true) (hs : s.standing = .inactive) :
    flush fault s = (.error .pendingRollback, s) := by
  unfold flush
  rw [if_neg (by simp [hdirty]), hs]

theorem select_active (hs : s.standing = .active) (hvalid : Constrained.valid s.pending = true)
    (query : D → α) :
    select false query s = (.ok (query s.pending), { s with dirty := false }) := by
  refine (bind_ok (flush_active hs hvalid)).trans ?_
  dsimp only
  rw [hs]
  rfl

theorem select_refused {query : D → α} (hs : s.standing = .active)
    (hvalid : Constrained.valid s.pending = true) :
    select true query s = (.error .refused, { s with dirty := false, standing := .aborted }) := by
  refine (bind_ok (flush_active hs hvalid)).trans ?_
  dsimp only
  rw [hs]
  rfl

theorem commit_active (hs : s.standing = .active) (hvalid : Constrained.valid s.pending = true) :
    commit false s = (.ok (), { s with dirty := false, committed := s.pending }) := by
  refine (bind_ok (flush_active hs hvalid)).trans ?_
  dsimp only
  rw [hs]

theorem commit_refused {fault : Bool} (hdirty : s.dirty = true) (hs : s.standing = .active)
    (h : fault = true ∨ Constrained.valid s.pending = false) :
    commit fault s = (.error .refused, collapse s) :=
  bind_error (flush_refused hdirty hs h)

theorem select_clean (hclean : s.dirty = false) (hs : s.standing ≠ .inactive) (fault : Bool)
    (query : D → α) :
    select fault query s = (.ok (query s.pending), s) ∧ s.standing = .active ∧ fault = false ∨
      select fault query s = (.error .refused, { s with standing := .aborted }) ∧
        ¬ (s.standing = .active ∧ fault = false) := by
  have hflush : flush false s = (.ok (), s) := if_pos hclean
  have hselect : select fault query s =
      match s.standing with
      | .inactive => (.error .pendingRollback, s)
      | .aborted => (.error .refused, s)
      | .active =>
        if fault then (.error .refused, { s with standing := .aborted })
        else (.ok (query s.pending), s) :=
    bind_ok hflush
  cases hstanding : s.standing with
  | inactive => exact absurd hstanding hs
  | aborted =>
    right
    have hsame : s = { s with standing := .aborted } := by rw [← hstanding]
    rw [hselect, hstanding]
    exact ⟨congrArg (Prod.mk _) hsame, by simp⟩
  | active =>
    rw [hselect, hstanding]
    cases fault with
    | false => exact .inl ⟨rfl, rfl, rfl⟩
    | true => exact .inr ⟨rfl, by simp⟩

theorem committed_commit (fault : Bool) (s : Session D) :
    (commit fault s).2.committed = s.committed ∨
      s.standing = .active ∧ (commit fault s).2.committed = s.pending := by
  unfold commit bind flush
  by_cases hdirty : s.dirty = false
  · rw [if_pos hdirty]
    cases hs : s.standing with
    | active => exact .inr ⟨rfl, by simp [hs]⟩
    | aborted => exact .inl (by simp [hs])
    | inactive => exact .inl (by simp [hs])
  · rw [if_neg hdirty]
    cases hs : s.standing with
    | active =>
      by_cases hrefused : fault = true ∨ Constrained.valid s.pending = false
      · exact .inl (by simp [hrefused, collapse])
      · exact .inr ⟨rfl, by simp [hrefused]⟩
    | aborted => exact .inl (by simp [collapse])
    | inactive => exact .inl (by simp)

/-- What holds of the data that is committed and of that which the session sees holds of both behind a
commit. -/
theorem commit_keeps {P : D → Prop} (hcommitted : P s.committed) (hpending : P s.pending)
    (fault : Bool) :
    P (commit fault s).2.committed ∧ P (commit fault s).2.pending := by
  unfold commit bind flush
  by_cases hdirty : s.dirty = false
  · rw [if_pos hdirty]
    cases hs : s.standing <;> simp [hs, hcommitted, hpending]
  · rw [if_neg hdirty]
    cases hs : s.standing with
    | active =>
      by_cases hrefused : fault = true ∨ Constrained.valid s.pending = false
      · simp [hrefused, collapse, hcommitted]
      · simp [hrefused, hpending]
    | aborted => simp [collapse, hcommitted]
    | inactive => simp [hcommitted, hpending]

theorem commit_inactive {fault : Bool} (hdirty : s.dirty = true) (hs : s.standing = .inactive) :
    commit fault s = (.error .pendingRollback, s) :=
  bind_error (flush_inactive _ hdirty hs)

end Work

end UnitOfWork
