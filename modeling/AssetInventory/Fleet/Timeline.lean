import AssetInventory.Fleet.Portal
import AssetInventory.Lib.PyDate
import Mathlib.Data.List.SplitBy
import Mathlib.Algebra.Order.BigOperators.Group.List
import Mathlib.Data.Set.Finite.Lemmas
import Mathlib.Algebra.BigOperators.Ring.List

/-!
# The timeline of a machine

The heartbeats of a machine are gathered into sessions: a gap of more than five minutes begins a new one.  The
whole of a session is then booked on the day on which it began.

* `runsOf`: the heartbeats split at the gaps; `onlineSessions_eq`: the sessions are these runs.
* `onlineSecOn_dailyOf`: what is booked on a day; `share`: the part of a run that falls on a day.
* `SoundTimeline`: what is expected of the timeline.
* `soundTimeline_iff`: this holds if and only if every run ends on the day on which it began, up to less than a
  second.
-/

namespace AssetInventory.Fleet

open PyJson PyTime Server

/-! ## The runs -/

/-- `total_online_sec`, from the heartbeats of the machine. -/
def totalOnlineSecOf (timestamps : List ℤ) : ℤ :=
  ((onlineSessions timestamps none).map OnlineSession.durationSec).sum

/-- `daily`, from the heartbeats of the machine. -/
def dailyOf (timestamps : List ℤ) : List DailyOnline := dailyOnline (onlineSessions timestamps none)

/-- Two heartbeats belong to one run. -/
def closeBy (a b : ℤ) : Bool := decide (b - a ≤ seconds sessionGapSeconds)

/-- The heartbeats, split where the gap is too long. -/
def runsOf (timestamps : List ℤ) : List (List ℤ) := timestamps.splitBy closeBy

/-- The first heartbeat of a run. -/
def runStart (run : List ℤ) : ℤ := run.headD 0

/-- The last heartbeat of a run. -/
def runEnd (run : List ℤ) : ℤ := run.getLastD 0

def sessionOf (run : List ℤ) : OnlineSession := sessionBetween (runStart run) (runEnd run)

theorem date_sessionOf (run : List ℤ) : truncate 10 (sessionOf run).start = dateText (runStart run) := by
  rw [dateText, sessionOf, sessionBetween]

theorem durationSec_sessionOf (run : List ℤ) :
    (sessionOf run).durationSec = (runEnd run - runStart run) / 1000000 := by
  rw [sessionOf, sessionBetween]

theorem runStart_append {run : List ℤ} (hne : run ≠ []) (more : List ℤ) :
    runStart (run ++ more) = runStart run := by
  obtain ⟨t, run, rfl⟩ := List.exists_cons_of_ne_nil hne
  rfl

theorem runEnd_append (run : List ℤ) (t : ℤ) : runEnd (run ++ [t]) = t := by
  simp [runEnd, List.getLastD_eq_getLast?]

theorem getLast?_of_ne {run : List ℤ} (hne : run ≠ []) : run.getLast? = some (runEnd run) := by
  rw [runEnd, List.getLastD_eq_getLast?, List.getLast?_eq_some_getLast hne]
  rfl

theorem onlineSessions_inRun (timestamps : List ℤ) {run : List ℤ} (hne : run ≠ [])
    (hrun : run.IsChain fun a b => closeBy a b = true) :
    onlineSessions timestamps (some (runStart run, runEnd run)) = (runsOf (run ++ timestamps)).map sessionOf := by
  induction timestamps generalizing run with
  | nil =>
    rw [List.append_nil, runsOf, List.splitBy_of_isChain hne hrun]
    rfl
  | cons t timestamps ih =>
    rw [onlineSessions]
    by_cases hgap : seconds sessionGapSeconds < t - runEnd run
    · -- the run is closed, and `t` begins another one
      have hsplit : runsOf (run ++ t :: timestamps) = [run] ++ runsOf (t :: timestamps) := by
        unfold runsOf
        rw [List.splitBy_append_cons, List.splitBy_of_isChain hne hrun]
        intro x hx
        rw [getLast?_of_ne hne] at hx
        cases hx
        exact decide_eq_false (not_le.mpr hgap)
      rw [if_pos hgap, hsplit, List.map_append]
      exact congrArg (sessionOf run :: ·) (ih (List.cons_ne_nil t []) (List.isChain_singleton t))
    · have hchain : (run ++ [t]).IsChain fun a b => closeBy a b = true := by
        refine List.isChain_append.mpr ⟨hrun, List.isChain_singleton t, ?_⟩
        intro x hx y hy
        rw [getLast?_of_ne hne] at hx
        cases hx
        cases hy
        exact decide_eq_true (not_lt.mp hgap)
      have hrest := ih (by simp) hchain
      rw [runStart_append hne, runEnd_append, List.append_assoc, List.singleton_append] at hrest
      rw [if_neg hgap, hrest]

/-- **The sessions are the runs**, in order. -/
theorem onlineSessions_eq (timestamps : List ℤ) :
    onlineSessions timestamps none = (runsOf timestamps).map sessionOf := by
  cases timestamps with
  | nil => rfl
  | cons t timestamps => exact onlineSessions_inRun timestamps (List.cons_ne_nil t []) (List.isChain_singleton t)

/-! ## What is booked on a day -/

/-- The seconds that are booked on a date. -/
def onlineSecOn (daily : List DailyOnline) (date : String) : ℤ :=
  ((daily.find? fun day => decide (day.date = date)).map DailyOnline.onlineSec).getD 0

section Daily

variable {daily : List DailyOnline} {s : OnlineSession}

theorem sum_addDaily (s : OnlineSession) (daily : List DailyOnline) :
    ((addDaily s daily).map DailyOnline.onlineSec).sum =
      (daily.map DailyOnline.onlineSec).sum + s.durationSec := by
  induction daily with
  | nil => simp [addDaily]
  | cons day daily ih =>
    rw [addDaily]
    split_ifs
    · simp only [List.map_cons, List.sum_cons]
      omega
    · simp only [List.map_cons, List.sum_cons, ih]
      omega

theorem dates_addDaily (s : OnlineSession) (daily : List DailyOnline) :
    (addDaily s daily).map DailyOnline.date =
      if truncate 10 s.start ∈ daily.map DailyOnline.date then daily.map DailyOnline.date
      else daily.map DailyOnline.date ++ [truncate 10 s.start] := by
  induction daily with
  | nil => rfl
  | cons day daily ih =>
    rw [addDaily]
    by_cases hday : day.date = truncate 10 s.start
    · rw [if_pos hday, List.map_cons, List.map_cons, if_pos (by rw [← hday]; exact List.mem_cons_self)]
    · rw [if_neg hday, List.map_cons, List.map_cons, ih]
      by_cases hmem : truncate 10 s.start ∈ daily.map DailyOnline.date
      · rw [if_pos hmem, if_pos (List.mem_cons_of_mem _ hmem)]
      · rw [if_neg hmem, if_neg, List.cons_append]
        exact fun h => (List.mem_cons.mp h).elim (fun h => hday h.symm) hmem

theorem onlineSecOn_addDaily (s : OnlineSession) (daily : List DailyOnline) (date : String) :
    onlineSecOn (addDaily s daily) date =
      onlineSecOn daily date + if truncate 10 s.start = date then s.durationSec else 0 := by
  induction daily with
  | nil =>
    by_cases hdate : truncate 10 s.start = date <;> simp [onlineSecOn, addDaily, hdate]
  | cons day daily ih =>
    unfold onlineSecOn at ih ⊢
    rw [addDaily]
    by_cases hday : day.date = truncate 10 s.start
    · rw [if_pos hday]
      by_cases hdate : day.date = date
      · rw [← hday, if_pos hdate, List.find?_cons_of_pos (by simpa using hdate),
          List.find?_cons_of_pos (by simpa using hdate)]
        rfl
      · rw [← hday, if_neg hdate, List.find?_cons_of_neg (by simpa using hdate),
          List.find?_cons_of_neg (by simpa using hdate), Int.add_zero]
    · rw [if_neg hday]
      by_cases hdate : day.date = date
      · rw [List.find?_cons_of_pos (by simpa using hdate), List.find?_cons_of_pos (by simpa using hdate),
          if_neg (fun h => hday (hdate.trans h.symm)), Int.add_zero]
      · rw [List.find?_cons_of_neg (by simpa using hdate), List.find?_cons_of_neg (by simpa using hdate), ih]

theorem foldl_addDaily (sessions : List OnlineSession) (daily : List DailyOnline)
    (hnodup : (daily.map DailyOnline.date).Nodup) :
    ((sessions.foldl (fun days s => addDaily s days) daily).map DailyOnline.date).Nodup ∧
      ((sessions.foldl (fun days s => addDaily s days) daily).map DailyOnline.onlineSec).sum =
        (daily.map DailyOnline.onlineSec).sum + (sessions.map OnlineSession.durationSec).sum ∧
      ∀ date, onlineSecOn (sessions.foldl (fun days s => addDaily s days) daily) date =
        onlineSecOn daily date +
          (sessions.map fun s => if truncate 10 s.start = date then s.durationSec else 0).sum := by
  induction sessions generalizing daily with
  | nil => simpa using hnodup
  | cons s sessions ih =>
    have hbooked : ((addDaily s daily).map DailyOnline.date).Nodup := by
      rw [dates_addDaily]
      split_ifs with hmem
      · exact hnodup
      · exact hnodup.append (List.nodup_singleton _) (List.disjoint_singleton.mpr hmem)
    obtain ⟨hdates, hsum, hon⟩ := ih (addDaily s daily) hbooked
    rw [List.foldl_cons]
    refine ⟨hdates, ?_, fun date => ?_⟩
    · rw [hsum, sum_addDaily, List.map_cons, List.sum_cons, Int.add_assoc]
    · rw [hon, onlineSecOn_addDaily, List.map_cons, List.sum_cons, Int.add_assoc]

theorem find?_date (hnodup : (daily.map DailyOnline.date).Nodup) {day : DailyOnline} (hday : day ∈ daily) :
    daily.find? (fun other => decide (other.date = day.date)) = some day := by
  cases hfind : daily.find? (fun other => decide (other.date = day.date)) with
  | none => exact absurd (by simp) (List.find?_eq_none.mp hfind day hday)
  | some other =>
    have hother : other.date = day.date := by simpa using List.find?_some hfind
    rw [List.inj_on_of_nodup_map hnodup (List.mem_of_find?_eq_some hfind) hday hother]

theorem onlineSecOn_of_mem (hnodup : (daily.map DailyOnline.date).Nodup) {day : DailyOnline} (hday : day ∈ daily) :
    onlineSecOn daily day.date = day.onlineSec := by
  rw [onlineSecOn, find?_date hnodup hday]
  rfl

theorem onlineSecOn_perm {daily' : List DailyOnline} (h : daily.Perm daily')
    (hnodup : (daily.map DailyOnline.date).Nodup) (date : String) :
    onlineSecOn daily date = onlineSecOn daily' date := by
  have hnodup' : (daily'.map DailyOnline.date).Nodup := (h.map DailyOnline.date).nodup_iff.mp hnodup
  by_cases hday : ∃ day ∈ daily, day.date = date
  · obtain ⟨day, hmem, rfl⟩ := hday
    rw [onlineSecOn_of_mem hnodup hmem, onlineSecOn_of_mem hnodup' (h.mem_iff.mp hmem)]
  · have hnone : ∀ {ds : List DailyOnline}, (∀ day ∈ ds, day ∈ daily) →
        ds.find? (fun day => decide (day.date = date)) = none := by
      intro ds hds
      refine List.find?_eq_none.mpr fun day hmem => ?_
      simpa using fun hdate => hday ⟨day, hds day hmem, hdate⟩
    unfold onlineSecOn
    rw [hnone fun _ hmem => hmem, hnone fun _ hmem => h.mem_iff.mpr hmem]

end Daily

/-- The dates of a timeline are distinct, its days account for all of the time, and on a date the sessions are
booked that began on it. -/
theorem dailyOf_spec (timestamps : List ℤ) : ((dailyOf timestamps).map DailyOnline.date).Nodup ∧
      totalOnlineSecOf timestamps = ((dailyOf timestamps).map DailyOnline.onlineSec).sum ∧
      ∀ date, onlineSecOn (dailyOf timestamps) date =
        ((onlineSessions timestamps none).map fun s => if truncate 10 s.start = date then s.durationSec else 0).sum := by
  obtain ⟨hdates, hsum, hon⟩ := foldl_addDaily (onlineSessions timestamps none) [] List.nodup_nil
  have hperm : (dailyOf timestamps).Perm ((onlineSessions timestamps none).foldl (fun days s => addDaily s days) []) :=
    List.perm_insertionSort _ _
  have hnodup := (hperm.map DailyOnline.date).nodup_iff.mpr hdates
  refine ⟨hnodup, ?_, fun date => ?_⟩
  · rw [(hperm.map DailyOnline.onlineSec).sum_eq]
    exact (hsum.trans (Int.zero_add _)).symm
  · rw [onlineSecOn_perm hperm hnodup]
    exact (hon date).trans (Int.zero_add _)

/-! ## What falls on a day -/

/-- The part of the time from `a` to `b` that lies between `low` and `high`. -/
def overlap (low high a b : ℤ) : ℤ := max 0 (min b high - max a low)

/-- The whole seconds of the time from `a` to `b` that fall on a day. -/
def share (a b day : ℤ) : ℤ := overlap (dayStart day) (dayStart (day + 1)) a b / 1000000

/-- The run ends on the day on which it began, or goes on for less than it takes to complete another second. -/
def EndsOnItsDay (run : List ℤ) : Prop :=
  (runEnd run - runStart run) / 1000000 = share (runStart run) (runEnd run) (dayOf (runStart run))

instance (run : List ℤ) : Decidable (EndsOnItsDay run) := inferInstanceAs (Decidable (_ = _))

section Shares

variable {a b day : ℤ}

theorem share_start_le (hab : a ≤ b) : share a b (dayOf a) ≤ (b - a) / 1000000 := by
  unfold share overlap
  refine Int.ediv_le_ediv (by decide) ?_
  have := (dayOf_eq_iff.mp (rfl : dayOf a = dayOf a)).1
  omega

theorem share_of_lt (hlt : day < dayOf a) : share a b day = 0 := by
  have hday := dayOf_eq_iff.mp (rfl : dayOf a = dayOf a)
  unfold share overlap dayStart seconds at *
  omega

theorem share_of_ne (hab : a ≤ b) (hall : (b - a) / 1000000 = share a b (dayOf a)) (hne : day ≠ dayOf a) :
    share a b day = 0 := by
  rcases lt_or_gt_of_ne hne with hlt | hgt
  · exact share_of_lt hlt
  · have hday := dayOf_eq_iff.mp (rfl : dayOf a = dayOf a)
    unfold share overlap dayStart seconds at *
    omega

end Shares

/-- **Intervals one after the other** have no more in common with a longer one than there is of it. -/
theorem sum_overlap_le (low high : ℤ) {c : ℤ} {runs : List (List ℤ)} (hruns : ∀ run ∈ runs, runStart run ≤ runEnd run)
    (hordered : runs.Pairwise fun r r' => runEnd r ≤ runStart r') (hc : ∀ run ∈ runs, c ≤ runStart run) :
    (runs.map fun run => overlap low high (runStart run) (runEnd run)).sum ≤ max 0 (high - max low c) := by
  induction runs generalizing c with
  | nil => exact le_max_left 0 _
  | cons run runs ih =>
    rw [List.pairwise_cons] at hordered
    have hrest := ih (fun r hr => hruns r (List.mem_cons_of_mem _ hr)) hordered.2 (hordered.1 · ·)
    have hself := hruns run List.mem_cons_self
    have hstart := hc run List.mem_cons_self
    rw [List.map_cons, List.sum_cons]
    unfold overlap at hrest ⊢
    omega

/-! ## When the timeline is sound -/

/-- **What is expected of a timeline**: its sessions are the longest runs of heartbeats without a gap, its days
account for all of the time, and a day says how much of the sessions falls on it. -/
structure SoundTimeline (timestamps : List ℤ) : Prop where
  sessions : ∃ runs : List (List ℤ), runs.flatten = timestamps ∧ [] ∉ runs ∧
    (∀ run ∈ runs, run.IsChain fun a b => b - a ≤ seconds sessionGapSeconds) ∧
    (runs.IsChain fun r r' => seconds sessionGapSeconds < runStart r' - runEnd r) ∧
    onlineSessions timestamps none = runs.map sessionOf
  total : totalOnlineSecOf timestamps =
    ((dailyOf timestamps).map DailyOnline.onlineSec).sum
  daily : ∀ day, InCalendar (dayStart day) → onlineSecOn (dailyOf timestamps) (dateText (dayStart day)) =
    ((runsOf timestamps).map fun run => share (runStart run) (runEnd run) day).sum
  bounded : ∀ day ∈ (dailyOf timestamps), day.onlineSec ≤ 86400

section Sound

variable {timestamps : List ℤ} {run : List ℤ}

theorem runStart_mem (hne : run ≠ []) : runStart run ∈ run := by
  obtain ⟨t, run, rfl⟩ := List.exists_cons_of_ne_nil hne
  exact List.mem_cons_self

theorem runEnd_mem (hne : run ≠ []) : runEnd run ∈ run := List.mem_of_getLast? (getLast?_of_ne hne)

theorem runEnd_eq_getLast (hne : run ≠ []) : run.getLast hne = runEnd run :=
  Option.some.inj ((List.getLast?_eq_some_getLast hne).symm.trans (getLast?_of_ne hne))

theorem runStart_eq_head (hne : run ≠ []) : run.head hne = runStart run := by
  obtain ⟨t, run, rfl⟩ := List.exists_cons_of_ne_nil hne
  rfl

theorem sessions_sound (timestamps : List ℤ) :
    ∃ runs : List (List ℤ), runs.flatten = timestamps ∧ [] ∉ runs ∧
      (∀ run ∈ runs, run.IsChain fun a b => b - a ≤ seconds sessionGapSeconds) ∧
      (runs.IsChain fun r r' => seconds sessionGapSeconds < runStart r' - runEnd r) ∧
      onlineSessions timestamps none = runs.map sessionOf := by
  refine ⟨runsOf timestamps, List.flatten_splitBy _ _, List.nil_notMem_splitBy _ _, ?_, ?_, onlineSessions_eq _⟩
  · intro run hrun
    exact (List.isChain_of_mem_splitBy hrun).imp fun a b h => of_decide_eq_true h
  · refine (List.isChain_getLast_head_splitBy closeBy timestamps).imp fun r r' h => ?_
    obtain ⟨hr, hr', hfar⟩ := h
    rw [runEnd_eq_getLast, runStart_eq_head] at hfar
    exact not_le.mp (of_decide_eq_false hfar)

theorem runs_ordered (hsorted : timestamps.Pairwise (· ≤ ·)) :
    (∀ run ∈ runsOf timestamps, runStart run ≤ runEnd run) ∧
      (runsOf timestamps).Pairwise fun r r' => runEnd r ≤ runStart r' := by
  have hne : ∀ run ∈ runsOf timestamps, run ≠ [] := fun run hrun => List.ne_nil_of_mem_splitBy hrun
  rw [← List.flatten_splitBy closeBy timestamps, List.pairwise_flatten] at hsorted
  refine ⟨fun run hrun => ?_, hsorted.2.imp_of_mem fun hr hr' h =>
    h _ (runEnd_mem (hne _ hr)) _ (runStart_mem (hne _ hr'))⟩
  obtain ⟨t, rest, rfl⟩ := List.exists_cons_of_ne_nil (hne run hrun)
  rcases List.mem_cons.mp (runEnd_mem (List.cons_ne_nil t rest)) with h | h
  · exact h.ge
  · exact (List.pairwise_cons.mp (hsorted.1 _ hrun)).1 _ h

theorem inCalendar_runStart (hcalendar : ∀ t ∈ timestamps, InCalendar t) (hrun : run ∈ runsOf timestamps) :
    InCalendar (runStart run) := by
  refine hcalendar _ ?_
  rw [← List.flatten_splitBy closeBy timestamps]
  exact List.mem_flatten_of_mem hrun (runStart_mem (List.ne_nil_of_mem_splitBy hrun))

theorem onlineSecOn_dailyOf (hsorted : timestamps.Pairwise (· ≤ ·)) (hcalendar : ∀ t ∈ timestamps, InCalendar t)
    {day : ℤ} (hday : InCalendar (dayStart day)) :
    onlineSecOn (dailyOf timestamps) (dateText (dayStart day)) = ((runsOf timestamps).map fun run =>
        if dayOf (runStart run) = day then (runEnd run - runStart run) / 1000000 else 0).sum := by
  rw [(dailyOf_spec timestamps).2.2, onlineSessions_eq, List.map_map]
  refine congrArg List.sum (List.map_congr_left fun run hrun => ?_)
  have hstart := inCalendar_runStart hcalendar hrun
  have hle := (runs_ordered hsorted).1 run hrun
  have hdates : dateText (runStart run) = dateText (dayStart day) ↔ dayOf (runStart run) = day := by
    rw [dateText_eq_iff hstart hday, dayOf_dayStart]
  rw [Function.comp_apply, date_sessionOf, durationSec_sessionOf]
  exact if_congr hdates rfl rfl

theorem sum_share_le (hsorted : timestamps.Pairwise (· ≤ ·)) (hcalendar : ∀ t ∈ timestamps, InCalendar t)
    (day : ℤ) :
    ((runsOf timestamps).map fun run => share (runStart run) (runEnd run) day).sum ≤ 86400 := by
  obtain ⟨hle, hordered⟩ := runs_ordered hsorted
  have hoverlap := sum_overlap_le (dayStart day) (dayStart (day + 1)) hle hordered
    fun run hrun => (inCalendar_runStart hcalendar hrun).1
  have hscale : ((runsOf timestamps).map fun run => share (runStart run) (runEnd run) day * 1000000).sum ≤
      ((runsOf timestamps).map fun run =>
        overlap (dayStart day) (dayStart (day + 1)) (runStart run) (runEnd run)).sum :=
    List.sum_le_sum fun run _ => Int.ediv_mul_le _ (by decide)
  rw [List.sum_map_mul_right] at hscale
  unfold dayStart seconds at hoverlap hscale
  omega

/-- A day has a share of each run, or nothing is booked on it that is not its share. -/
theorem share_le_booked (hle : runStart run ≤ runEnd run) {day : ℤ}
    (hearlier : dayOf (runStart run) < day → EndsOnItsDay run) :
    share (runStart run) (runEnd run) day ≤
      if dayOf (runStart run) = day then (runEnd run - runStart run) / 1000000 else 0 := by
  split_ifs with h
  · rw [← h]
    exact share_start_le hle
  · rcases lt_or_gt_of_ne h with hlt | hgt
    · exact (share_of_ne hle (hearlier hlt) (Ne.symm h)).le
    · exact (share_of_lt hgt).le

/-- **The timeline is sound exactly when** every run ends on its day, up to less than a second. -/
theorem soundTimeline_iff (hsorted : timestamps.Pairwise (· ≤ ·)) (hcalendar : ∀ t ∈ timestamps, InCalendar t) :
    SoundTimeline timestamps ↔ ∀ run ∈ runsOf timestamps, EndsOnItsDay run := by
  obtain ⟨hle, hordered⟩ := runs_ordered hsorted
  constructor
  · intro hsound
    by_contra hnot
    push Not at hnot
    -- on the first day on which a run begins that does not end on it, too much is booked
    obtain ⟨late, ⟨hmem, hlate⟩, hfirst⟩ := Set.exists_min_image
      {run | run ∈ runsOf timestamps ∧ ¬EndsOnItsDay run} (fun run => dayOf (runStart run))
      ((List.finite_toSet (runsOf timestamps)).subset fun run hrun => hrun.1) hnot
    have hday := inCalendar_dayStart (inCalendar_runStart hcalendar hmem)
    have hless := List.sum_lt_sum (l := runsOf timestamps)
      (fun run => share (runStart run) (runEnd run) (dayOf (runStart late)))
      (fun run => if dayOf (runStart run) = dayOf (runStart late) then
        (runEnd run - runStart run) / 1000000 else 0)
      (fun run hrun => share_le_booked (hle run hrun) fun hearlier => by
        by_contra hends
        exact absurd (hfirst run ⟨hrun, hends⟩) (not_le.mpr hearlier))
      ⟨late, hmem, by
        rw [if_pos rfl]
        exact lt_of_le_of_ne (share_start_le (hle late hmem)) (Ne.symm hlate)⟩
    rw [← onlineSecOn_dailyOf hsorted hcalendar hday, hsound.daily _ hday] at hless
    exact absurd hless (lt_irrefl _)
  · intro hends
    have hdaily : ∀ day, InCalendar (dayStart day) →
        onlineSecOn (dailyOf timestamps) (dateText (dayStart day)) =
          ((runsOf timestamps).map fun run => share (runStart run) (runEnd run) day).sum := by
      intro day hday
      rw [onlineSecOn_dailyOf hsorted hcalendar hday]
      refine congrArg List.sum (List.map_congr_left fun run hrun => ?_)
      split_ifs with h
      · rw [← h]
        exact hends run hrun
      · exact (share_of_ne (hle run hrun) (hends run hrun) (Ne.symm h)).symm
    refine ⟨sessions_sound timestamps, (dailyOf_spec timestamps).2.1, hdaily, fun entry hentry => ?_⟩
    obtain ⟨hnodup, -, hbooked⟩ := dailyOf_spec timestamps
    rw [← onlineSecOn_of_mem hnodup hentry]
    by_cases hdate : ∃ run ∈ runsOf timestamps, dateText (runStart run) = entry.date
    · obtain ⟨run, hrun, hdate⟩ := hdate
      have hin := inCalendar_runStart hcalendar hrun
      have htext : dateText (runStart run) = dateText (dayStart (dayOf (runStart run))) := by
        rw [dateText_eq_iff hin (inCalendar_dayStart hin), dayOf_dayStart]
      rw [← hdate, htext, hdaily _ (inCalendar_dayStart hin)]
      exact sum_share_le hsorted hcalendar _
    · -- no session begins on the date of the entry
      rw [hbooked, onlineSessions_eq, List.map_map, List.sum_eq_zero fun n hn => ?_]
      · decide
      · obtain ⟨run, hrun, rfl⟩ := List.mem_map.mp hn
        rw [Function.comp_apply, date_sessionOf]
        exact if_neg fun h => hdate ⟨run, hrun, h⟩

theorem soundTimeline_two_sessions :
    SoundTimeline [seconds 1790899200, seconds 1790899500, seconds 1790910000, seconds 1790910060] :=
  (soundTimeline_iff (by decide) (by decide)).mpr (by decide)

end Sound

theorem midnight_session : ¬∀ timestamps : List ℤ, timestamps.Pairwise (· ≤ ·) →
    (∀ t ∈ timestamps, InCalendar t) → SoundTimeline timestamps := by
  intro h
  have hsorted : [seconds 1790899080, seconds 1790899320].Pairwise (· ≤ ·) := by decide
  have hcalendar : ∀ t ∈ [seconds 1790899080, seconds 1790899320], InCalendar t := by decide
  have hday : InCalendar (dayStart 20728) := by decide
  have hdaily := (h _ hsorted hcalendar).daily 20728 hday
  rw [onlineSecOn_dailyOf hsorted hcalendar hday] at hdaily
  exact absurd hdaily (by decide)

end AssetInventory.Fleet
