import Mathlib.Data.List.Basic

/-!
# Objects that get their keys late

A session collects the objects that are added to it and the attributes that are assigned, and sends them when
something needs the database: a query, a flush, the commit.  The key of a new row is drawn when the row is
inserted, and up to then the attribute of its object is empty.  So it matters for code that passes the key of an
object on whether something has been sent before.

* `Session`: the database as its transaction sees it, what has not been sent, and the keys of the objects.
* `Work`: code that uses a session; `add`, `assign`, `keyOf`, `flush`, `select`, `commit`.
* `keyOf_of_le`: an object that has not been sent has no key.
* `sendAll_insert`, `sendAll_insert_update`: a flush draws the keys of the objects that were added.
-/

namespace LateKeys

/-- What is sent; `none` is a refusal of the database. -/
inductive Change (D : Type) where
  /-- `INSERT`, with the key that is drawn for the row. -/
  | insert (row : ℕ → D → Option D)
  | update (f : D → Option D)

/-- A change is an `INSERT`. -/
def Change.isInsert {D : Type} : Change D → Bool
  | .insert _ => true
  | .update _ => false

/-- A session over data `D`. -/
structure Session (D : Type) where
  /-- What other sessions see. -/
  committed : D
  /-- What the transaction sees. -/
  data : D
  /-- What has not been sent, in its order. -/
  unsent : List (Change D)
  /-- The keys of the objects whose rows have been inserted, in the order in which the objects were added. -/
  keys : List ℕ

/-- A session that has just been opened. -/
def Session.start {D : Type} (d : D) : Session D := ⟨d, d, [], []⟩

/-- How many objects have been added.  An object is known by its place among them. -/
def Session.places {D : Type} (s : Session D) : ℕ := s.keys.length + s.unsent.countP Change.isInsert

/-- Code that uses a session. -/
abbrev Work (D ε α : Type) : Type := StateT (Session D) (Except ε) α

variable {D ε α β : Type}

def raise (e : ε) : Work D ε α := fun _ => .error e

/-- `session.add(...)`, with the place of the object. -/
def add (row : ℕ → D → Option D) : Work D ε ℕ := fun s =>
  .ok (s.places, { s with unsent := s.unsent ++ [.insert row] })

/-- Assign to an attribute of an object that was loaded. -/
def assign (f : D → Option D) : Work D ε Unit := fun s =>
  .ok ((), { s with unsent := s.unsent ++ [.update f] })

/-- Read the primary key of an object. -/
def keyOf (place : ℕ) : Work D ε (Option ℕ) := fun s => .ok (s.keys[place]?, s)

section Send

variable (supply : ℕ → ℕ) (refused : ε)

/-- Send a change. -/
def send (s : Session D) : Change D → Option (Session D)
  | .insert row => (row (supply s.keys.length) s.data).map fun d =>
    { s with data := d, keys := s.keys ++ [supply s.keys.length] }
  | .update f => (f s.data).map fun d => { s with data := d }

/-- Send what has not been sent. -/
def sendAll (s : Session D) : Option (Session D) := s.unsent.foldlM (send supply) { s with unsent := [] }

/-- `session.flush()`. -/
def flush : Work D ε Unit := fun s => (sendAll supply s).elim (.error refused) fun t => .ok ((), t)

/-- A query; what has not been sent is sent before it. -/
def select (query : D → α) : Work D ε α := do
  flush supply refused
  fun s => .ok (query s.data, s)

/-- `session.commit()`. -/
def commit : Work D ε Unit := do
  flush supply refused
  fun s => .ok ((), { s with committed := s.data })

end Send

/-! ## What the actions do -/

variable {supply : ℕ → ℕ} {refused : ε} {s t u : Session D} {m : Work D ε α} {f : α → Work D ε β} {a : α} {b : β}

theorem bind_eq_ok : (m >>= f) s = .ok (b, u) ↔ ∃ a t, m s = .ok (a, t) ∧ f a t = .ok (b, u) := by
  show (m s >>= fun p => f p.1 p.2) = .ok (b, u) ↔ _
  cases hm : m s with
  | error e => exact iff_of_false (nomatch ·) fun ⟨_, _, h, _⟩ => nomatch h
  | ok p =>
    constructor
    · exact fun h => ⟨p.1, p.2, rfl, h⟩
    · rintro ⟨a, t, h, hf⟩
      cases h
      exact hf

@[simp] theorem raise_eq_ok {e : ε} : (raise e : Work D ε α) s = .ok (a, t) ↔ False :=
  iff_of_false (nomatch ·) id

@[simp] theorem pure_eq_ok {x : α} : (pure x : Work D ε α) s = .ok (a, t) ↔ a = x ∧ t = s := by
  show Except.ok (x, s) = Except.ok (a, t) ↔ _
  rw [Except.ok.injEq, Prod.mk.injEq, eq_comm, @eq_comm _ s]

theorem ite_raise_eq_ok {p : Prop} [Decidable p] {e : ε} :
    (if p then raise e else m) s = .ok (a, t) ↔ ¬p ∧ m s = .ok (a, t) := by
  by_cases hp : p
  · rw [if_pos hp]
    exact iff_of_false (nomatch ·) fun h => h.1 hp
  · rw [if_neg hp, and_iff_right hp]

theorem flush_eq_ok : flush supply refused s = .ok ((), t) ↔ sendAll supply s = some t := by
  unfold flush
  cases sendAll supply s with
  | none => exact iff_of_false (nomatch ·) (nomatch ·)
  | some u => exact ⟨fun h => by cases h; rfl, fun h => by cases h; rfl⟩

theorem select_eq_ok {query : D → α} :
    select supply refused query s = .ok (a, t) ↔ sendAll supply s = some t ∧ a = query t.data := by
  refine bind_eq_ok.trans ⟨?_, ?_⟩
  · rintro ⟨⟨⟩, u, hflush, heq⟩
    cases heq
    exact ⟨flush_eq_ok.mp hflush, rfl⟩
  · rintro ⟨hsend, rfl⟩
    exact ⟨(), t, flush_eq_ok.mpr hsend, rfl⟩

theorem commit_eq_ok :
    commit supply refused s = .ok ((), t) ↔ ∃ u, sendAll supply s = some u ∧ t = { u with committed := u.data } := by
  refine bind_eq_ok.trans ⟨?_, ?_⟩
  · rintro ⟨⟨⟩, u, hflush, heq⟩
    cases heq
    exact ⟨u, flush_eq_ok.mp hflush, rfl⟩
  · rintro ⟨u, hsend, rfl⟩
    exact ⟨(), u, flush_eq_ok.mpr hsend, rfl⟩

theorem sendAll_of_nil (h : s.unsent = []) : sendAll supply s = some s := by
  obtain ⟨committed, data, unsent, keys⟩ := s
  cases h
  rfl

theorem sendAll_insert {row : ℕ → D → Option D} (hs : s.unsent = []) :
    sendAll supply { s with unsent := s.unsent ++ [.insert row] } = some t ↔
      ∃ d, row (supply s.keys.length) s.data = some d ∧
        t = { s with data := d, keys := s.keys ++ [supply s.keys.length] } := by
  obtain ⟨committed, data, unsent, keys⟩ := s
  cases hs
  show ((row (supply keys.length) data).map _ >>= pure) = some t ↔ _
  rw [bind_pure, Option.map_eq_some_iff]
  exact exists_congr fun d => and_congr_right' eq_comm

theorem sendAll_insert_update {row : ℕ → D → Option D} {g : D → Option D} (hs : s.unsent = []) :
    sendAll supply { s with unsent := s.unsent ++ [.insert row] ++ [.update g] } = some t ↔
      ∃ d d', row (supply s.keys.length) s.data = some d ∧ g d = some d' ∧
        t = { s with data := d', keys := s.keys ++ [supply s.keys.length] } := by
  obtain ⟨committed, data, unsent, keys⟩ := s
  cases hs
  show (((row (supply keys.length) data).map _).bind fun u : Session D => (g u.data).map _ >>= pure) = some t ↔ _
  constructor
  · intro h
    obtain ⟨u, hu, h⟩ := Option.bind_eq_some_iff.mp h
    obtain ⟨d, hrow, rfl⟩ := Option.map_eq_some_iff.mp hu
    rw [bind_pure] at h
    obtain ⟨d', hg, rfl⟩ := Option.map_eq_some_iff.mp h
    exact ⟨d, d', hrow, hg, rfl⟩
  · rintro ⟨d, d', hrow, hg, rfl⟩
    rw [hrow]
    show ((g d).map _ >>= pure) = _
    rw [hg]
    rfl

/-! ## Keys -/

/-- **An object that has not been sent has no key.** -/
theorem keyOf_of_le {place : ℕ} (h : s.keys.length ≤ place) : (keyOf place : Work D ε _) s = .ok (none, s) := by
  rw [keyOf, List.getElem?_eq_none h]

theorem send_spec {change : Change D} (h : send supply s change = some t) :
    t.unsent = s.unsent ∧ t.committed = s.committed := by
  cases change with
  | insert row =>
    obtain ⟨d, -, rfl⟩ := Option.map_eq_some_iff.mp h
    exact ⟨rfl, rfl⟩
  | update f =>
    obtain ⟨d, -, rfl⟩ := Option.map_eq_some_iff.mp h
    exact ⟨rfl, rfl⟩

theorem foldlM_send_spec {changes : List (Change D)} (h : changes.foldlM (send supply) s = some t) :
    t.unsent = s.unsent ∧ t.committed = s.committed := by
  induction changes generalizing s with
  | nil =>
    cases h
    exact ⟨rfl, rfl⟩
  | cons change changes ih =>
    rw [List.foldlM_cons] at h
    obtain ⟨u, hsend, hrest⟩ := Option.bind_eq_some_iff.mp h
    obtain ⟨hunsent, hcommitted⟩ := send_spec hsend
    obtain ⟨hunsent', hcommitted'⟩ := ih hrest
    exact ⟨hunsent'.trans hunsent, hcommitted'.trans hcommitted⟩

theorem unsent_of_sendAll (h : sendAll supply s = some t) : t.unsent = [] := (foldlM_send_spec h).1

theorem committed_of_sendAll (h : sendAll supply s = some t) : t.committed = s.committed := (foldlM_send_spec h).2

end LateKeys
