import Mathlib.Data.Int.Order.Basic
import Mathlib.Tactic.SplitIfs

/-!
# Instants and texts as Python has them

An aware `datetime` in UTC is the number of microseconds since the epoch, which is its resolution,
and a `timedelta` is a number of microseconds.

* `seconds`, `minutes`: the deltas.
* `formatSeconds`: `f"{delta.total_seconds():.0f}"`, which rounds half to even.
* `isoformat`: `datetime.isoformat()`.
* `truncate`: the slice `s[:n]`.
* `civil`: the date of a day, with `civil_inj`.
-/

namespace PyTime

/-- Microseconds since the epoch, in UTC. -/
abbrev Time := ℤ

/-- `timedelta(seconds=n)`. -/
def seconds (n : ℤ) : ℤ := n * 1000000

/-- `timedelta(minutes=n)`. -/
def minutes (n : ℤ) : ℤ := seconds (n * 60)

/-- `s[:n]`. -/
def truncate (n : ℕ) (s : String) : String := String.ofList (s.toList.take n)

/-- `f"{delta.total_seconds():.0f}"`. -/
def formatSeconds (delta : ℤ) : String :=
  let q := delta / 1000000
  let r := delta % 1000000
  if 2 * r < 1000000 then toString q
  else if 1000000 < 2 * r then toString (q + 1)
  else if q % 2 = 0 then toString q
  else toString (q + 1)

/-- A number in decimal, padded with zeros to `width`. -/
def zeroPad (width : ℕ) (n : ℤ) : String :=
  let s := toString n
  String.ofList (List.replicate (width - s.length) '0') ++ s

/-- The date of a day counted from 1970-01-01: year, month, day of the month. -/
def civil (days : ℤ) : ℤ × ℤ × ℤ :=
  -- years begin in March here, so that a leap day is the last day of its year
  let z := days + 719468
  let era := z / 146097
  let doe := z - era * 146097
  let yoe := (doe - doe / 1460 + doe / 36524 - doe / 146096) / 365
  let doy := doe - (365 * yoe + yoe / 4 - yoe / 100)
  let mp := (5 * doy + 2) / 153
  let month := if mp < 10 then mp + 3 else mp - 9
  let year := yoe + era * 400 + if month ≤ 2 then 1 else 0
  (year, month, doy - (153 * mp + 2) / 5 + 1)

/-- The day that a date names; `civil` read backwards. -/
def daysOf (date : ℤ × ℤ × ℤ) : ℤ :=
  let y := if date.2.1 ≤ 2 then date.1 - 1 else date.1
  let yoe := y % 400
  let mp := if date.2.1 ≤ 2 then date.2.1 + 9 else date.2.1 - 3
  let doy := (153 * mp + 2) / 5 + date.2.2 - 1
  y / 400 * 146097 + (365 * yoe + yoe / 4 - yoe / 100 + doy) - 719468

/-- The years of an era of 146097 days are its 400 years, and a day of it is one of the days of its
year. -/
theorem yearOfEra_range {doe q c e yoe : ℤ} (hlow : 0 ≤ doe) (hhigh : doe < 146097)
    (hq : q = doe / 1460) (hc : c = doe / 36524) (he : e = doe / 146096)
    (hyoe : yoe = (doe - q + c - e) / 365) :
    (0 ≤ yoe ∧ yoe < 400) ∧ 0 ≤ doe - (365 * yoe + yoe / 4 - yoe / 100) ∧
      doe - (365 * yoe + yoe / 4 - yoe / 100) ≤ 365 := by
  have hrange : 0 ≤ yoe ∧ yoe < 400 := by omega
  refine ⟨hrange, ?_⟩
  -- the centuries and the last day of the era are few enough to be told apart
  have hcentury : c = 0 ∨ c = 1 ∨ c = 2 ∨ c = 3 ∨ c = 4 := by omega
  have hlast : e = 0 ∨ e = 1 := by omega
  have hhundred : yoe / 100 = 0 ∨ yoe / 100 = 1 ∨ yoe / 100 = 2 ∨ yoe / 100 = 3 := by omega
  rcases hcentury with h | h | h | h | h <;> rcases hlast with h' | h' <;>
    rcases hhundred with g | g | g | g <;> subst h h' <;> rw [g] <;> omega

/-- A day is a day of a year of an era, and its date is read off these; the months are counted from
March. -/
theorem exists_civil (days : ℤ) : ∃ era yoe doy mp : ℤ, (0 ≤ yoe ∧ yoe < 400) ∧
    (0 ≤ doy ∧ doy ≤ 365) ∧
    mp = (5 * doy + 2) / 153 ∧
    days = era * 146097 + (365 * yoe + yoe / 4 - yoe / 100 + doy) - 719468 ∧
    civil days = (yoe + era * 400 + (if (if mp < 10 then mp + 3 else mp - 9) ≤ 2 then 1 else 0),
      if mp < 10 then mp + 3 else mp - 9, doy - (153 * mp + 2) / 5 + 1) := by
  obtain ⟨era, hera⟩ : ∃ era, era = (days + 719468) / 146097 := ⟨_, rfl⟩
  obtain ⟨doe, hdoe⟩ : ∃ doe, doe = days + 719468 - era * 146097 := ⟨_, rfl⟩
  obtain ⟨yoe, hyoe⟩ : ∃ yoe, yoe = (doe - doe / 1460 + doe / 36524 - doe / 146096) / 365 :=
    ⟨_, rfl⟩
  obtain ⟨doy, hdoy⟩ : ∃ doy, doy = doe - (365 * yoe + yoe / 4 - yoe / 100) := ⟨_, rfl⟩
  obtain ⟨hyears, hdays⟩ := yearOfEra_range (by omega) (by omega) rfl rfl rfl hyoe
  rw [← hdoy] at hdays
  refine ⟨era, yoe, doy, _, hyears, hdays, rfl, by omega, ?_⟩
  subst hdoy hyoe hdoe hera
  rfl

theorem civil_range (days : ℤ) : (1 ≤ (civil days).2.1 ∧ (civil days).2.1 ≤ 12) ∧
    1 ≤ (civil days).2.2 ∧ (civil days).2.2 ≤ 31 := by
  obtain ⟨era, yoe, doy, mp, -, hdays, hmp, -, hcivil⟩ := exists_civil days
  rw [hcivil]
  dsimp only
  split_ifs <;> omega

/-- **A date names its day.** -/
theorem daysOf_civil (days : ℤ) : daysOf (civil days) = days := by
  obtain ⟨era, yoe, doy, mp, hyears, hdays, hmp, hday, hcivil⟩ := exists_civil days
  have hquot : (yoe + era * 400) / 400 = era := by omega
  have hrem : (yoe + era * 400) % 400 = yoe := by omega
  rw [hcivil, daysOf]
  by_cases hlate : mp < 10
  · have hmonth : ¬ mp + 3 ≤ 2 := by omega
    simp only [if_pos hlate, if_neg hmonth, Int.add_zero, hquot, hrem, Int.add_sub_cancel]
    omega
  · have hmonth : mp - 9 ≤ 2 := by omega
    simp only [if_neg hlate, if_pos hmonth, Int.add_sub_cancel, hquot, hrem, Int.sub_add_cancel]
    omega

theorem civil_inj {m n : ℤ} (h : civil m = civil n) : m = n := by
  rw [← daysOf_civil m, h, daysOf_civil n]

/-- `t.isoformat()`: the fraction is left out when it is zero. -/
def isoformat (t : Time) : String :=
  let second := t / 1000000
  let micro := t % 1000000
  let (year, month, day) := civil (second / 86400)
  let s := second % 86400
  zeroPad 4 year ++ "-" ++ zeroPad 2 month ++ "-" ++ zeroPad 2 day ++ "T" ++
    zeroPad 2 (s / 3600) ++ ":" ++ zeroPad 2 (s / 60 % 60) ++ ":" ++ zeroPad 2 (s % 60) ++
    (if micro = 0 then "" else "." ++ zeroPad 6 micro) ++ "+00:00"

example : isoformat (seconds 1790899200 + 42) = "2026-10-02T00:00:00.000042+00:00" := by decide

/-! ## The characters of numbers and instants -/

theorem mem_toString_int {n : ℤ} {c : Char} (h : c ∈ (toString n).toList) :
    c.isDigit = true ∨ c = '-' := by
  have hnat : ∀ k : ℕ, c ∈ (toString k).toList → c.isDigit = true := by
    intro k hk
    have hmem : c ∈ Nat.toDigits 10 k := by simpa [toString, Nat.repr] using hk
    exact Nat.isDigit_of_mem_toDigits (by decide) (by decide) hmem
  cases n with
  | ofNat k => exact .inl (hnat k h)
  | negSucc k =>
    have hcons : c ∈ '-' :: (toString (k + 1)).toList := by
      simpa [toString, Int.repr] using h
    rcases List.mem_cons.mp hcons with rfl | hmem
    · exact .inr rfl
    · exact .inl (hnat _ hmem)

theorem mem_zeroPad {width : ℕ} {n : ℤ} {c : Char} (h : c ∈ (zeroPad width n).toList) :
    c.isDigit = true ∨ c = '-' := by
  rw [zeroPad, String.toList_append, String.toList_ofList, List.mem_append] at h
  rcases h with hzero | hnumber
  · rw [List.eq_of_mem_replicate hzero]
    decide
  · exact mem_toString_int hnumber

/-- A character of an instant. -/
def isInstantChar (c : Char) : Bool := c.isDigit || ['-', ':', 'T', '.', '+'].contains c

theorem mem_isoformat {t : Time} : ∀ c ∈ (isoformat t).toList, isInstantChar c = true := by
  have hpad : ∀ width n, ∀ c ∈ (zeroPad width n).toList, isInstantChar c = true := by
    intro width n c hc
    rcases mem_zeroPad hc with hdigit | rfl
    · rw [isInstantChar, hdigit, Bool.true_or]
    · decide
  have hliteral : ∀ s : String, s.toList.all isInstantChar = true →
      ∀ c ∈ s.toList, isInstantChar c = true := fun s h => List.all_eq_true.mp h
  have hfraction : ∀ micro : ℤ, ∀ c ∈ (if micro = 0 then "" else "." ++ zeroPad 6 micro).toList,
      isInstantChar c = true := by
    intro micro
    split
    · exact hliteral "" rfl
    · rw [String.toList_append, List.forall_mem_append]
      exact ⟨hliteral "." (by decide), hpad 6 micro⟩
  have hdash := hliteral "-" (by decide)
  have hcolon := hliteral ":" (by decide)
  simp only [isoformat, String.toList_append, List.forall_mem_append]
  exact ⟨⟨⟨⟨⟨⟨⟨⟨⟨⟨⟨⟨hpad _ _, hdash⟩, hpad _ _⟩, hdash⟩, hpad _ _⟩, hliteral "T" (by decide)⟩, hpad _ _⟩,
    hcolon⟩, hpad _ _⟩, hcolon⟩, hpad _ _⟩, hfraction _⟩, hliteral "+00:00" (by decide)⟩

end PyTime
