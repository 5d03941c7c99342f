import AssetInventory.Lib.PyDate
import Mathlib.Algebra.Order.Field.Rat
import Mathlib.Algebra.Order.Floor.Ring
import Mathlib.Data.Rat.Floor
import Mathlib.Tactic.Linarith
import Mathlib.Tactic.NormNum

/-!
# Numbers of seconds as instants

* `roundHalfEven`: the nearest integer, and the even one of two.
* `fromtimestamp`: `datetime.fromtimestamp(ts, tz=UTC)` of an exact number of seconds.
-/

namespace PyTime

/-- The nearest integer; the even one, if two are equally near. -/
def roundHalfEven (q : ℚ) : ℤ :=
  if q - ⌊q⌋ < 1 / 2 then ⌊q⌋
  else if 1 / 2 < q - ⌊q⌋ then ⌊q⌋ + 1
  else if ⌊q⌋ % 2 = 0 then ⌊q⌋
  else ⌊q⌋ + 1

@[simp] theorem roundHalfEven_intCast (n : ℤ) : roundHalfEven n = n := by
  unfold roundHalfEven
  rw [Int.floor_intCast, if_pos (by norm_num)]

theorem roundHalfEven_range (q : ℚ) : ⌊q⌋ ≤ roundHalfEven q ∧ roundHalfEven q ≤ ⌊q⌋ + 1 := by
  unfold roundHalfEven
  split_ifs <;> omega

/-- An exception of `fromtimestamp`. -/
inductive StampExc where
  /-- `ValueError` or `OSError`: the year is out of range. -/
  | valueError
  /-- `OverflowError`: the number of seconds does not fit. -/
  | overflowError
  deriving DecidableEq

/-- `datetime.fromtimestamp(ts, tz=UTC)`. -/
def fromtimestamp (ts : ℚ) : Except StampExc Time :=
  if ts < -9223372036854775808 ∨ 9223372036854775808 ≤ ts then .error .overflowError
  else if InCalendar (roundHalfEven (ts * 1000000)) then .ok (roundHalfEven (ts * 1000000))
  else .error .valueError

theorem fromtimestamp_of_lt {ts : ℚ} (hlow : 0 ≤ ts) (hhigh : ts < 4102444800) :
    fromtimestamp ts = .ok (roundHalfEven (ts * 1000000)) := by
  have hround := roundHalfEven_range (ts * 1000000)
  have hfloor : 0 ≤ ⌊ts * 1000000⌋ ∧ ⌊ts * 1000000⌋ < 4102444800000000 := by
    rw [Int.le_floor, Int.floor_lt]
    constructor <;> push_cast <;> linarith
  unfold fromtimestamp
  rw [if_neg (by rintro (h | h) <;> linarith), if_pos]
  unfold InCalendar seconds
  omega

theorem fromtimestamp_of_ge {ts : ℚ} (hlow : 253402300800 ≤ ts) (hhigh : ts < 9223372036854775808) :
    fromtimestamp ts = .error .valueError := by
  have hround := roundHalfEven_range (ts * 1000000)
  have hfloor : 253402300800000000 ≤ ⌊ts * 1000000⌋ := by
    rw [Int.le_floor]
    push_cast
    linarith
  unfold fromtimestamp
  rw [if_neg (by rintro (h | h) <;> linarith), if_neg]
  unfold InCalendar seconds
  omega

end PyTime
