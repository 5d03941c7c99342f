import AssetInventory.Lib.PyText

/-!
# The dates of instants

The first ten characters of `t.isoformat()` are the date of `t`, and a `date` is a day of the calendar.

* `InCalendar`: the instants that a `datetime` can be.
* `dayOf`: the day of an instant, counted from 1970-01-01; `dayStart`: its midnight.
* `dateText_eq_iff`: two instants have the same date text exactly when they fall on the same day.
* `Date`, with `Date.plus`, which may overflow, and `Date.compact`, which names the date.
-/

namespace PyTime

/-- The instants from the year 1 to the year 9999. -/
def InCalendar (t : ℤ) : Prop := seconds (-62135596800) ≤ t ∧ t < seconds 253402300800

instance (t : ℤ) : Decidable (InCalendar t) := inferInstanceAs (Decidable (_ ∧ _))

/-- The day of an instant. -/
def dayOf (t : ℤ) : ℤ := t / 1000000 / 86400

/-- The midnight at which a day begins. -/
def dayStart (day : ℤ) : ℤ := seconds (day * 86400)

/-- `t.isoformat()[:10]`. -/
def dateText (t : Time) : String := truncate 10 (isoformat t)

example : dateText (seconds 1790899200 + 42) = "2026-10-02" := by decide

theorem dayOf_eq_iff {t day : ℤ} : dayOf t = day ↔ dayStart day ≤ t ∧ t < dayStart (day + 1) := by
  unfold dayOf dayStart seconds
  omega

@[simp] theorem dayOf_dayStart (day : ℤ) : dayOf (dayStart day) = day :=
  dayOf_eq_iff.mpr ⟨le_refl _, by unfold dayStart seconds; omega⟩

theorem inCalendar_dayStart {t : ℤ} (h : InCalendar t) : InCalendar (dayStart (dayOf t)) := by
  unfold InCalendar dayStart dayOf seconds at *
  omega

theorem year_range {t : ℤ} (h : InCalendar t) :
    1 ≤ (civil (dayOf t)).1 ∧ (civil (dayOf t)).1 ≤ 9999 := by
  have hday : -719162 ≤ dayOf t ∧ dayOf t ≤ 2932896 := by
    unfold InCalendar seconds at h
    unfold dayOf
    omega
  obtain ⟨era, yoe, doy, mp, hyoe, hdoy, hmp, hdays, hcivil⟩ := exists_civil (dayOf t)
  rw [hcivil]
  dsimp only
  split_ifs <;> omega

theorem toList_dateText {t : ℤ} (h : InCalendar t) :
    (dateText t).toList = (zeroPad 4 (civil (dayOf t)).1).toList ++
      ('-' :: ((zeroPad 2 (civil (dayOf t)).2.1).toList ++
        ('-' :: (zeroPad 2 (civil (dayOf t)).2.2).toList))) := by
  obtain ⟨hmonth, hday⟩ := civil_range (dayOf t)
  have hlen : ∀ {width : ℕ} {n : ℤ}, 0 < width → 0 ≤ n → n < 10 ^ width →
      (zeroPad width n).toList.length = width := by
    intro width n hwidth hlow hhigh
    obtain ⟨k, rfl⟩ := Int.eq_ofNat_of_zero_le hlow
    exact PyJson.length_zeroPad hwidth (by exact_mod_cast hhigh)
  have hyear := hlen (show 0 < 4 by decide) (by have := year_range h; omega)
    (show (civil (dayOf t)).1 < 10 ^ 4 by have := year_range h; omega)
  have hm := hlen (show 0 < 2 by decide) (by omega) (show (civil (dayOf t)).2.1 < 10 ^ 2 by omega)
  have hd := hlen (show 0 < 2 by decide) (by omega) (show (civil (dayOf t)).2.2 < 10 ^ 2 by omega)
  have hiso : ∃ rest, (isoformat t).toList = ((zeroPad 4 (civil (dayOf t)).1).toList ++
      ('-' :: ((zeroPad 2 (civil (dayOf t)).2.1).toList ++
        ('-' :: (zeroPad 2 (civil (dayOf t)).2.2).toList)))) ++ rest := by
    have hdash : "-".toList = ['-'] := by decide
    simp only [isoformat, dayOf, String.toList_append, List.append_assoc, List.cons_append, hdash,
      List.nil_append, List.append_cancel_left_eq, List.cons.injEq, true_and]
    exact ⟨_, rfl⟩
  obtain ⟨rest, hiso⟩ := hiso
  rw [dateText, truncate, String.toList_ofList, hiso]
  refine List.take_left' ?_
  rw [List.length_append, List.length_cons, List.length_append, List.length_cons, hyear, hm, hd]

/-- **The text of a date names the day.** -/
theorem dateText_eq_iff {t u : ℤ} (ht : InCalendar t) (hu : InCalendar u) :
    dateText t = dateText u ↔ dayOf t = dayOf u := by
  rw [← String.toList_inj, toList_dateText ht, toList_dateText hu]
  refine ⟨fun h => ?_, fun h => by rw [h]⟩
  obtain ⟨hmonth, hday⟩ := civil_range (dayOf t)
  obtain ⟨hmonth', hday'⟩ := civil_range (dayOf u)
  have hyear := year_range ht
  have hyear' := year_range hu
  obtain ⟨hy, h⟩ := PyJson.zeroPad_append_inj (by decide) ⟨by omega, by omega⟩ ⟨by omega, by omega⟩ h
  obtain ⟨hm, h⟩ := PyJson.zeroPad_append_inj (by decide) ⟨by omega, by omega⟩ ⟨by omega, by omega⟩
    (List.cons.inj h).2
  have hd := PyJson.zeroPad_inj_int (by decide) ⟨by omega, by omega⟩ ⟨by omega, by omega⟩
    (String.toList_inj.mp (List.cons.inj h).2)
  exact civil_inj (Prod.ext hy (Prod.ext hm hd))

/-! ## Dates -/

/-- A `date`, by its day. -/
structure Date where
  day : ℤ
  inCalendar : InCalendar (dayStart day)

/-- `d + timedelta(days=n)`; `none` is an `OverflowError`. -/
def Date.plus (d : Date) (n : ℤ) : Option Date :=
  if h : InCalendar (dayStart (d.day + n)) then some ⟨d.day + n, h⟩ else none

/-- `d.strftime('%Y%m%d')`. -/
def Date.compact (d : Date) : String :=
  zeroPad 4 (civil d.day).1 ++ zeroPad 2 (civil d.day).2.1 ++ zeroPad 2 (civil d.day).2.2

theorem Date.plus_eq_some_iff {d e : Date} {n : ℤ} : d.plus n = some e ↔ e.day = d.day + n := by
  unfold Date.plus
  split_ifs with h
  · rw [Option.some.injEq]
    refine ⟨fun he => he ▸ rfl, fun he => ?_⟩
    obtain ⟨day, hday⟩ := e
    cases he
    rfl
  · exact ⟨fun he => absurd he (by simp), fun he => absurd (he ▸ e.inCalendar) h⟩

theorem Date.exists_plus {d e : Date} {m n : ℤ} (hn : d.plus n = some e) (hm : 0 ≤ m) (hmn : m ≤ n) :
    ∃ f, d.plus m = some f := by
  have hd := d.inCalendar
  have he := e.inCalendar
  rw [Date.plus_eq_some_iff.mp hn] at he
  have hf : InCalendar (dayStart (d.day + m)) := by
    unfold InCalendar dayStart seconds at *
    omega
  exact ⟨⟨_, hf⟩, Date.plus_eq_some_iff.mpr rfl⟩

theorem Date.compact_inj {d e : Date} (h : d.compact = e.compact) : d.day = e.day := by
  rw [← String.toList_inj] at h
  simp only [Date.compact, String.toList_append, List.append_assoc] at h
  have hd := year_range d.inCalendar
  have he := year_range e.inCalendar
  rw [dayOf_dayStart] at hd he
  obtain ⟨hmonth, hday⟩ := civil_range d.day
  obtain ⟨hmonth', hday'⟩ := civil_range e.day
  obtain ⟨hy, h⟩ := PyJson.zeroPad_append_inj (by decide) ⟨by omega, by omega⟩ ⟨by omega, by omega⟩ h
  obtain ⟨hm, h⟩ := PyJson.zeroPad_append_inj (by decide) ⟨by omega, by omega⟩ ⟨by omega, by omega⟩ h
  have hdays := PyJson.zeroPad_inj_int (by decide) ⟨by omega, by omega⟩ ⟨by omega, by omega⟩
    (String.toList_inj.mp h)
  exact civil_inj (Prod.ext hy (Prod.ext hm hdays))

end PyTime
