import AssetInventory.DeepAgent.Models

/-!
# Expansions that are accepted, and the labels of the others

The model answers an expansion request with a list of entries, each a `dict` or an expansion that has been
validated.  The loop examines them in order until two are accepted, and records a static label for each
entry that it does not accept.

* `ExpansionScan.examined`: how many of the entries the loop examines.
* `ExpansionScan.step_cases`: what becomes of an entry.
* `ExpansionScan.Accounts`: what is kept through the loop, about the entries that have been examined.
* `validateEventLogExpansions_accounts`: what is accepted is safe, and every entry is accounted for.
-/

namespace AssetInventory.DeepAgent

open PyTime

/-- The label of the entries that are left over. -/
def countExceeded : String := "expansion_count_exceeded"

/-- Two expansions ask for the same set of event ids. -/
def EventLogExpansion.SameIds (e e' : EventLogExpansion) : Prop :=
  ∀ id, id ∈ e.eventIds ↔ id ∈ e'.eventIds

/-- **A safe expansion**: sampled event ids, and a window of at most an hour inside the range. -/
structure EventLogExpansion.Safe (e : EventLogExpansion) (range : TimeRange) (sampled : List String) :
    Prop where
  ids : e.eventIds ≠ []
  sampled : ∀ id ∈ e.eventIds, id ∈ sampled
  from_le : range.from_ ≤ e.dateAfter
  le_to : e.dateBefore ≤ range.to_
  ordered : 0 ≤ e.dateBefore - e.dateAfter
  duration : e.dateBefore - e.dateAfter ≤ minutes 60

theorem EventLogExpansion.Within.safe {e : EventLogExpansion} {range : TimeRange}
    {sampled : List String} (h : e.Within range sampled) : e.Safe range sampled :=
  ⟨e.eventIds_ne, h.sampled, h.from_le, h.le_to, Int.sub_nonneg.mpr e.after_le_before, e.duration_le⟩

theorem sameSet_iff {a b : List String} : sameSet a b = true ↔ ∀ id, id ∈ a ↔ id ∈ b := by
  simp only [sameSet, Bool.and_eq_true, List.all_eq_true, decide_eq_true_eq]
  constructor
  · rintro ⟨hab, hba⟩ id
    exact ⟨hab id, hba id⟩
  · intro h
    exact ⟨fun id hid => (h id).mp hid, fun id hid => (h id).mpr hid⟩

namespace ExpansionScan

variable (range : TimeRange) (sampled : List String)

/-- How many of the entries the loop examines. -/
def examined : ExpansionScan → List RawExpansion → ℕ
  | _, [] => 0
  | a, x :: xs =>
    if maxDetailCalls ≤ a.validated.length then 0 else examined (a.step range sampled x) xs + 1

variable {range sampled} {a : ExpansionScan} {x : RawExpansion} {xs : List RawExpansion}

theorem rejectionLabel_ne (message : String) : rejectionLabel message ≠ countExceeded := by
  unfold rejectionLabel
  dsimp only
  split_ifs <;> decide

/-- **What becomes of an entry**: it is rejected under a label of its own, or it is accepted. -/
theorem step_cases (a : ExpansionScan) (x : RawExpansion) :
    (∃ label, label ≠ countExceeded ∧ a.step range sampled x = a.reject label) ∨
      ∃ e, x.parse = .ok e ∧ e.Within range sampled ∧
        (∀ ids ∈ a.seenIds, sameSet e.eventIds ids = false) ∧ a.step range sampled x =
          { a with seenIds := a.seenIds ++ [e.eventIds], validated := a.validated ++ [e] } := by
  unfold step
  cases hparse : x.parse with
  | error message => exact .inl ⟨_, rejectionLabel_ne message, rfl⟩
  | ok e =>
    dsimp only
    split_ifs with hempty hunknown hbefore hafter hlong hseen
    · exact .inl ⟨_, by decide, rfl⟩
    · exact .inl ⟨_, by decide, rfl⟩
    · exact .inl ⟨_, by decide, rfl⟩
    · exact .inl ⟨_, by decide, rfl⟩
    · exact .inl ⟨_, by decide, rfl⟩
    · exact .inl ⟨_, by decide, rfl⟩
    · refine .inr ⟨e, rfl, ⟨not_lt.mp hbefore, not_lt.mp hafter, fun id hid => ?_⟩, ?_, rfl⟩
      · by_contra hnot
        exact hunknown (List.any_eq_true.mpr ⟨id, hid, by simpa using hnot⟩)
      · simpa using hseen

/-- **What is kept through the loop**, when these entries have been examined. -/
structure Accounts (range : TimeRange) (sampled : List String) (seen : List RawExpansion)
    (a : ExpansionScan) : Prop where
  order : a.validated.Sublist (seen.filterMap fun x => x.parse.toOption)
  within : ∀ e ∈ a.validated, e.Within range sampled
  length : a.validated.length ≤ maxDetailCalls
  seenIds : a.seenIds = a.validated.map EventLogExpansion.eventIds
  distinct : a.validated.Pairwise fun e e' => ¬ e.SameIds e'
  labels : countExceeded ∉ a.rejections
  count : a.rejections.length + a.validated.length = seen.length

theorem accounts_start : Accounts range sampled [] ⟨[], [], []⟩ where
  order := List.Sublist.refl _
  within _ he := absurd he List.not_mem_nil
  length := Nat.zero_le _
  seenIds := rfl
  distinct := List.Pairwise.nil
  labels := List.not_mem_nil
  count := rfl

/-- **One entry.** -/
theorem Accounts.step {seen : List RawExpansion} (h : Accounts range sampled seen a)
    (hroom : a.validated.length < maxDetailCalls) (x : RawExpansion) :
    Accounts range sampled (seen ++ [x]) (a.step range sampled x) := by
  have hseen : (seen ++ [x]).filterMap (fun x => x.parse.toOption) =
      seen.filterMap (fun x => x.parse.toOption) ++ x.parse.toOption.toList := by
    rw [List.filterMap_append]
    cases hparse : x.parse.toOption with
    | none => simp [hparse]
    | some e => simp [hparse]
  obtain ⟨label, hlabel, hstep⟩ | ⟨e, hparse, hwithin, hnew, hstep⟩ :=
    @step_cases range sampled a x
  · rw [hstep]
    refine ⟨?_, h.within, h.length, h.seenIds, h.distinct, ?_, ?_⟩
    · rw [hseen]
      exact h.order.trans (List.sublist_append_left _ _)
    · intro hmem
      obtain hmem | hmem := List.mem_append.mp hmem
      · exact h.labels hmem
      · exact hlabel (List.mem_singleton.mp hmem).symm
    · have hcount := h.count
      simp only [reject, List.length_append, List.length_singleton]
      omega
  · rw [hstep]
    refine ⟨?_, ?_, ?_, ?_, ?_, h.labels, ?_⟩
    · rw [hseen, hparse]
      exact h.order.append (List.Sublist.refl _)
    · intro e' he'
      obtain he' | he' := List.mem_append.mp he'
      · exact h.within e' he'
      · exact List.mem_singleton.mp he' ▸ hwithin
    · simp only [List.length_append, List.length_singleton]
      omega
    · simp only [h.seenIds, List.map_append, List.map_singleton]
    · refine List.pairwise_append.mpr ⟨h.distinct, List.pairwise_singleton _ _, ?_⟩
      intro e₁ he₁ e₂ he₂ hsame
      rw [List.mem_singleton.mp he₂] at hsame
      have hfalse := hnew e₁.eventIds (h.seenIds ▸ List.mem_map_of_mem he₁)
      rw [sameSet_iff.mpr fun id => (hsame id).symm] at hfalse
      cases hfalse
    · have hcount := h.count
      simp only [List.length_append, List.length_singleton]
      omega

/-- What the loop leaves, when it has examined so many entries in all. -/
structure Ends (range : TimeRange) (sampled : List String) (expansions : List RawExpansion) (n : ℕ)
    (a : ExpansionScan) : Prop where
  le : n ≤ expansions.length
  order : a.validated.Sublist ((expansions.take n).filterMap fun x => x.parse.toOption)
  within : ∀ e ∈ a.validated, e.Within range sampled
  length : a.validated.length ≤ maxDetailCalls
  distinct : a.validated.Pairwise fun e e' => ¬ e.SameIds e'
  count : (a.rejections.filter fun label => decide (label ≠ countExceeded)).length +
    a.validated.length = n
  exceeded : countExceeded ∈ a.rejections ↔ n < expansions.length

theorem filter_ne_countExceeded {labels : List String} (h : countExceeded ∉ labels) :
    labels.filter (fun label => decide (label ≠ countExceeded)) = labels := by
  refine List.filter_eq_self.mpr fun label hlabel => ?_
  have hne : label ≠ countExceeded := fun heq => h (heq ▸ hlabel)
  simpa using hne

/-- **The loop**, from the entries that have been examined to the end. -/
theorem Accounts.ends {seen : List RawExpansion} (h : Accounts range sampled seen a)
    (xs : List RawExpansion) :
    Ends range sampled (seen ++ xs) (seen.length + examined range sampled a xs)
      (loop range sampled (seen ++ xs).length a xs) := by
  induction xs generalizing seen a with
  | nil =>
    rw [examined, loop, List.append_nil, Nat.add_zero]
    refine ⟨le_rfl, by rw [List.take_length]; exact h.order, h.within, h.length, h.distinct, ?_, ?_⟩
    · rw [filter_ne_countExceeded h.labels, h.count]
    · exact iff_of_false h.labels (lt_irrefl _)
  | cons x xs ih =>
    rw [examined, loop]
    by_cases hfull : maxDetailCalls ≤ a.validated.length
    · have hcount := h.count
      have hlength : (seen ++ x :: xs).length = seen.length + xs.length + 1 := by
        rw [List.length_append, List.length_cons, Nat.add_assoc]
      -- two are accepted, so with this entry there are more than two
      have hmore : maxDetailCalls < (seen ++ x :: xs).length := by omega
      rw [if_pos hfull, if_pos hfull, if_pos hmore, Nat.add_zero]
      refine ⟨by omega, ?_, h.within, h.length, h.distinct, ?_, ?_⟩
      · rw [List.take_left]
        exact h.order
      · have hfilter : (a.reject countExceeded).rejections.filter
            (fun label => decide (label ≠ countExceeded)) = a.rejections := by
          rw [reject, List.filter_append, filter_ne_countExceeded h.labels]
          simp
        show ((a.reject countExceeded).rejections.filter _).length + _ = _
        rw [hfilter]
        exact hcount
      · refine iff_of_true ?_ (by omega)
        exact List.mem_append_right _ List.mem_cons_self
    · rw [if_neg hfull, if_neg hfull]
      have hnext := ih (h.step (not_le.mp hfull) x)
      rw [List.append_assoc, List.singleton_append, List.length_append, List.length_singleton] at hnext
      rw [← Nat.add_assoc, Nat.add_right_comm]
      exact hnext

end ExpansionScan

/-- **Accepted expansions.**  Each lies inside the range and names sampled event ids only. -/
theorem validateEventLogExpansions_within {expansions : List RawExpansion} {range : TimeRange}
    {sampled : List String} {e : EventLogExpansion}
    (h : e ∈ (validateEventLogExpansions expansions range sampled).1) : e.Within range sampled :=
  ((@ExpansionScan.accounts_start range sampled).ends expansions).within e h

end AssetInventory.DeepAgent
