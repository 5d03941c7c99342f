import AssetInventory.Lib.PyDict
import AssetInventory.Lib.PyStamp
import Mathlib.Tactic.Ring

/-!
# The times of a client

Velociraptor gives the times of a client as numbers, of seconds, microseconds or nanoseconds, and they are shown as
texts.  `last_seen_at` is read as microseconds first; what is left is read in the unit that fits.

* `getClientMetadataAnswer`: the method, from the answer of the query on.
* `Stamp`: a time between 2002 and 2099 in some unit.
* `stampsRight_iff`: the texts are right exactly when `last_seen_at` is not given in seconds.
-/

namespace AssetInventory.Velociraptor

open PyJson PyTime PyDict

/-! ## The conversion -/

/-- A value of a row; truth values are integers, too. -/
inductive RowValue where
  | int (n : ℤ)
  | json (x : Json)
  deriving DecidableEq

/-- A text. -/
def RowValue.str (s : String) : RowValue := .json (.str s)

/-- A row that a query answers. -/
abbrev ReplyRow := List (String × RowValue)

/-- The integer under a key, if it is one. -/
def intOfKey (item : ReplyRow) (key : String) : Option ℤ :=
  match get? item key with
  | some (.int n) => some n
  | _ => none

/-- `last_seen_at` as microseconds. -/
def convertLastSeen (item : ReplyRow) : Except StampExc ReplyRow :=
  match intOfKey item "last_seen_at" with
  | none => .ok item
  | some n =>
    match fromtimestamp (n / 1000000) with
    | .ok t => .ok (setItem "last_seen_at" (.str (isoformat t)) item)
    | .error .valueError => .ok item
    | .error .overflowError => .error .overflowError

/-- The loop over the divisors: the instant for the first one that is plausible. -/
def guessUnit (n : ℤ) : List ℚ → Except StampExc (Option Time)
  | [] => .ok none
  | divisor :: divisors =>
    if 1000000000 < n / divisor ∧ n / divisor < 4102444800 then
      match fromtimestamp (n / divisor) with
      | .ok t => .ok (some t)
      | .error .valueError => guessUnit n divisors
      | .error .overflowError => .error .overflowError
    else guessUnit n divisors

/-- One round of the loop over the keys. -/
def convertKey (key : String) (item : ReplyRow) : Except StampExc ReplyRow :=
  match intOfKey item key with
  | none => .ok item
  | some n => (guessUnit n [1, 1000000, 1000000000]).map fun t =>
      t.elim item fun t => setItem key (.str (isoformat t)) item

/-- `get_client_metadata`, from the answer of the query on. -/
def getClientMetadataAnswer (clientId : String) (items : List ReplyRow) : Except StampExc ReplyRow :=
  match items with
  | [] => .ok [("client_id", .str clientId), ("error", .str "client not found")]
  | item :: _ => do
    let item ← convertLastSeen item
    let item ← convertKey "first_seen_at" item
    convertKey "last_seen_at" item

/-! ## The times that are reported -/

inductive TimeUnit where
  | seconds | microseconds | nanoseconds
  deriving DecidableEq

/-- How many of the unit make a second. -/
def TimeUnit.perSecond : TimeUnit → ℚ
  | .seconds => 1
  | .microseconds => 1000000
  | .nanoseconds => 1000000000

/-- An instant from 2002 to 2099, as a number of some unit. -/
structure Stamp where
  unit : TimeUnit
  count : ℤ
  from2002 : 1009843200 ≤ count / unit.perSecond
  before2100 : count / unit.perSecond < 4102444800

def Stamp.instant (s : Stamp) : ℚ := s.count / s.unit.perSecond

/-- The ISO text of the instant, to the microsecond. -/
def Stamp.iso (s : Stamp) : String := isoformat (roundHalfEven (s.instant * 1000000))

/-- **What is expected**: both times become the texts of their instants. -/
def StampsRight (clientId : String) (item : ReplyRow) (more : List ReplyRow) (first last : Option Stamp) : Prop :=
  ∃ item', getClientMetadataAnswer clientId (item :: more) = .ok item' ∧
    (∀ s, first = some s → get? item' "first_seen_at" = some (.str s.iso)) ∧
    ∀ s, last = some s → get? item' "last_seen_at" = some (.str s.iso)

section Stamps

variable {s : Stamp}

theorem count_eq (s : Stamp) : (s.count : ℚ) = s.instant * s.unit.perSecond := by
  have hpos : s.unit.perSecond ≠ 0 := by
    cases s.unit <;> exact ne_of_gt (by norm_num [TimeUnit.perSecond])
  rw [Stamp.instant, div_mul_cancel₀ _ hpos]

theorem instant_range (s : Stamp) : 1009843200 ≤ s.instant ∧ s.instant < 4102444800 := ⟨s.from2002, s.before2100⟩

theorem fromtimestamp_instant (s : Stamp) :
    fromtimestamp s.instant = .ok (roundHalfEven (s.instant * 1000000)) :=
  fromtimestamp_of_lt (by have := instant_range s; linarith) (instant_range s).2

theorem guessUnit_of_late {n : ℤ} {divisor : ℚ} (divisors : List ℚ) (h : 4102444800 ≤ n / divisor) :
    guessUnit n (divisor :: divisors) = guessUnit n divisors :=
  if_neg fun hrange => absurd hrange.2 (not_lt.mpr h)

theorem guessUnit_of_instant {n : ℤ} {divisor : ℚ} (divisors : List ℚ) (h : n / divisor = s.instant) :
    guessUnit n (divisor :: divisors) = .ok (some (roundHalfEven (s.instant * 1000000))) := by
  have hrange := instant_range s
  rw [guessUnit, h, if_pos ⟨by linarith, hrange.2⟩, fromtimestamp_instant]

/-- **The unit is guessed right**, for an instant of these years. -/
theorem guessUnit_count (s : Stamp) :
    guessUnit s.count [1, 1000000, 1000000000] = .ok (some (roundHalfEven (s.instant * 1000000))) := by
  have hrange := instant_range s
  have hcount := count_eq s
  cases hunit : s.unit with
  | seconds =>
    rw [hunit, TimeUnit.perSecond] at hcount
    exact guessUnit_of_instant _ (by rw [hcount]; ring)
  | microseconds =>
    rw [hunit, TimeUnit.perSecond] at hcount
    rw [guessUnit_of_late _ (by rw [hcount]; linarith)]
    exact guessUnit_of_instant _ (by rw [hcount]; ring)
  | nanoseconds =>
    rw [hunit, TimeUnit.perSecond] at hcount
    rw [guessUnit_of_late _ (by rw [hcount]; linarith), guessUnit_of_late _ (by rw [hcount]; linarith)]
    exact guessUnit_of_instant _ (by rw [hcount]; ring)

variable {item : ReplyRow}

theorem convertLastSeen_count (h : intOfKey item "last_seen_at" = some s.count) :
    convertLastSeen item = .ok (match s.unit with
      | .seconds => setItem "last_seen_at" (.str (isoformat s.count)) item
      | .microseconds => setItem "last_seen_at" (.str s.iso) item
      | .nanoseconds => item) := by
  have hrange := instant_range s
  have hcount := count_eq s
  rw [convertLastSeen, h]
  dsimp only
  cases hunit : s.unit with
  | seconds =>
    rw [hunit, TimeUnit.perSecond] at hcount
    rw [fromtimestamp_of_lt (by rw [hcount]; linarith) (by rw [hcount]; linarith)]
    dsimp only
    rw [div_mul_cancel₀ _ (by norm_num), roundHalfEven_intCast]
  | microseconds =>
    rw [hunit, TimeUnit.perSecond] at hcount
    have hinstant : (s.count : ℚ) / 1000000 = s.instant := by
      rw [hcount]
      ring
    rw [hinstant, fromtimestamp_instant]
    rfl
  | nanoseconds =>
    rw [hunit, TimeUnit.perSecond] at hcount
    rw [fromtimestamp_of_ge (by rw [hcount]; linarith) (by rw [hcount]; linarith)]

theorem convertKey_count {key : String} (h : intOfKey item key = some s.count) :
    convertKey key item = .ok (setItem key (.str s.iso) item) := by
  rw [convertKey, h]
  dsimp only
  rw [guessUnit_count]
  rfl

theorem convertKey_of_none {key : String} (h : intOfKey item key = none) :
    convertKey key item = .ok item := by
  rw [convertKey, h]

theorem iso_ne (hunit : s.unit = .seconds) : isoformat s.count ≠ s.iso := by
  have hrange := instant_range s
  have hcount := count_eq s
  rw [hunit, TimeUnit.perSecond, mul_one] at hcount
  rw [← hcount] at hrange
  have hlow : 1009843200 ≤ s.count := by exact_mod_cast hrange.1
  have hhigh : s.count < 4102444800 := by exact_mod_cast hrange.2
  have hround : roundHalfEven (s.instant * 1000000) = seconds s.count := by
    rw [← hcount, ← roundHalfEven_intCast (seconds s.count), seconds]
    push_cast
    rfl
  intro hsame
  rw [Stamp.iso, hround] at hsame
  have hdays : dayOf s.count = dayOf (seconds s.count) := by
    refine (dateText_eq_iff ?_ ?_).mp (congrArg (truncate 10) hsame) <;> unfold InCalendar seconds <;> omega
  unfold dayOf seconds at hdays
  omega

theorem intOfKey_congr {item' : ReplyRow} {key : String} (h : get? item key = get? item' key) :
    intOfKey item key = intOfKey item' key := by
  rw [intOfKey, h]
  rfl

/-- A key whose integer is the count of a stamp, if there is one, gets its text. -/
theorem exists_convertKey {key : String} {stamp : Option Stamp}
    (h : intOfKey item key = stamp.map Stamp.count) :
    ∃ item', convertKey key item = .ok item' ∧ (∀ k, k ≠ key → get? item' k = get? item k) ∧
      ∀ s, stamp = some s → get? item' key = some (.str s.iso) := by
  cases stamp with
  | none => exact ⟨item, convertKey_of_none h, fun _ _ => rfl, fun s hs => absurd hs (by simp)⟩
  | some s =>
    refine ⟨_, convertKey_count h, fun k hk => ?_, fun s' hs => ?_⟩
    · rw [get?_setItem, if_neg (Ne.symm hk)]
    · cases hs
      rw [get?_setItem, if_pos rfl]

variable {item : ReplyRow} {first last : Option Stamp}

/-- After the first reading there is a text, or the integer is still there. -/
theorem exists_convertLastSeen (hlast : intOfKey item "last_seen_at" = last.map Stamp.count) :
    ∃ item₁, convertLastSeen item = .ok item₁ ∧
      get? item₁ "first_seen_at" = get? item "first_seen_at" ∧
      ((∃ s, last = some s ∧ get? item₁ "last_seen_at" =
          some (.str (if s.unit = .seconds then isoformat s.count else s.iso))) ∨
        item₁ = item ∧ ∀ s, last = some s → s.unit ≠ .seconds) := by
  cases last with
  | none =>
    refine ⟨item, ?_, rfl, .inr ⟨rfl, fun s hs => absurd hs (by simp)⟩⟩
    rw [convertLastSeen, hlast]
    rfl
  | some s =>
    refine ⟨_, convertLastSeen_count hlast, ?_⟩
    cases hunit : s.unit with
    | seconds =>
      refine ⟨(get?_setItem _ _ _ _).trans (if_neg (by decide)), .inl ⟨s, rfl, ?_⟩⟩
      rw [hunit, if_pos rfl]
      exact (get?_setItem _ _ _ _).trans (if_pos rfl)
    | microseconds =>
      refine ⟨(get?_setItem _ _ _ _).trans (if_neg (by decide)), .inl ⟨s, rfl, ?_⟩⟩
      rw [hunit, if_neg (by decide)]
      exact (get?_setItem _ _ _ _).trans (if_pos rfl)
    | nanoseconds =>
      refine ⟨rfl, .inr ⟨rfl, fun s' hs => ?_⟩⟩
      cases hs
      rw [hunit]
      decide

theorem exists_metadata (clientId : String) (more : List ReplyRow)
    (hfirst : intOfKey item "first_seen_at" = first.map Stamp.count)
    (hlast : intOfKey item "last_seen_at" = last.map Stamp.count) :
    ∃ item', getClientMetadataAnswer clientId (item :: more) = .ok item' ∧
      (∀ s, first = some s → get? item' "first_seen_at" = some (.str s.iso)) ∧
      ∀ s, last = some s → get? item' "last_seen_at" =
        some (.str (if s.unit = .seconds then isoformat s.count else s.iso)) := by
  obtain ⟨item₁, hconvert, hkept, hleft⟩ := exists_convertLastSeen hlast
  obtain ⟨item₂, hconvert₂, hother, hfirst'⟩ := exists_convertKey ((intOfKey_congr hkept).trans hfirst)
  have hlast₂ := hother "last_seen_at" (by decide)
  have hrest : getClientMetadataAnswer clientId (item :: more) = convertKey "last_seen_at" item₂ := by
    rw [getClientMetadataAnswer, hconvert]
    exact congrArg (fun r => Except.bind r (convertKey "last_seen_at")) hconvert₂
  rcases hleft with ⟨s, rfl, htext⟩ | ⟨rfl, hunits⟩
  · have hnone : intOfKey item₂ "last_seen_at" = none := by
      rw [intOfKey, hlast₂, htext]
      rfl
    refine ⟨item₂, ?_, hfirst', fun s' hs => ?_⟩
    · rw [hrest, convertKey_of_none hnone]
    · cases hs
      exact hlast₂.trans htext
  · obtain ⟨item₃, hconvert₃, hother₃, hlast'⟩ := exists_convertKey ((intOfKey_congr hlast₂).trans hlast)
    refine ⟨item₃, ?_, fun s hs => ?_, fun s hs => ?_⟩
    · rw [hrest, hconvert₃]
    · rw [hother₃ "first_seen_at" (by decide)]
      exact hfirst' s hs
    · rw [if_neg (hunits s hs)]
      exact hlast' s hs

/-- **The times are right exactly when** `last_seen_at` is not given in seconds. -/
theorem stampsRight_iff (clientId : String) (more : List ReplyRow)
    (hfirst : intOfKey item "first_seen_at" = first.map Stamp.count)
    (hlast : intOfKey item "last_seen_at" = last.map Stamp.count) :
    StampsRight clientId item more first last ↔ ∀ s, last = some s → s.unit ≠ .seconds := by
  obtain ⟨item', hmetadata, hfirst', hlast'⟩ := exists_metadata clientId more hfirst hlast
  constructor
  · rintro ⟨item'', hmetadata', -, hright⟩ s hs hunit
    obtain rfl : item' = item'' := Except.ok.inj (hmetadata.symm.trans hmetadata')
    have hsame := (hlast' s hs).symm.trans (hright s hs)
    rw [if_pos hunit] at hsame
    exact iso_ne hunit (Json.str.inj (RowValue.json.inj (Option.some.inj hsame)))
  · intro hunits
    refine ⟨item', hmetadata, hfirst', fun s hs => ?_⟩
    rw [hlast' s hs, if_neg (hunits s hs)]

end Stamps

def october : Stamp := ⟨.seconds, 1790899200, by norm_num [TimeUnit.perSecond], by norm_num [TimeUnit.perSecond]⟩

/-- The same instant, in nanoseconds. -/
def octoberNano : Stamp :=
  ⟨.nanoseconds, 1790899200000000000, by norm_num [TimeUnit.perSecond], by norm_num [TimeUnit.perSecond]⟩

theorem stampsRight_mixed :
    StampsRight "C.1" [("first_seen_at", .int 1790899200), ("last_seen_at", .int 1790899200000000000)] []
      (some october) (some octoberNano) := by
  refine (stampsRight_iff "C.1" [] rfl rfl).mpr fun s hs => ?_
  cases hs
  decide

theorem seconds_read_as_micros : ¬∀ (clientId : String) (item : ReplyRow) (more : List ReplyRow)
    (first last : Option Stamp), intOfKey item "first_seen_at" = first.map Stamp.count →
      intOfKey item "last_seen_at" = last.map Stamp.count → StampsRight clientId item more first last := by
  intro h
  obtain ⟨item', hmetadata, -, hright⟩ := h "C.1" [("last_seen_at", .int 1790899200)] [] none (some october) rfl rfl
  obtain ⟨item'', hmetadata', -, hlast⟩ :=
    @exists_metadata [("last_seen_at", .int 1790899200)] none (some october) "C.1" [] rfl rfl
  obtain rfl : item' = item'' := Except.ok.inj (hmetadata.symm.trans hmetadata')
  have hsame := (hlast october rfl).symm.trans (hright october rfl)
  have hunit : october.unit = TimeUnit.seconds := rfl
  rw [if_pos hunit] at hsame
  exact iso_ne hunit (Json.str.inj (RowValue.json.inj (Option.some.inj hsame)))

end AssetInventory.Velociraptor
