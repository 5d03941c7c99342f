import AssetInventory.Profiles.Model

/-!
# Dossiers

What a profile is for.  A dossier has a level, stands at some point of the procedure, and has marks: how far
each of its requirements is.  Which requirements a level has is for someone else to say, and may change.

* `Dossier`, `Dossier.Met`: the dossiers, and those whose requirements have all been verified.
* `Edge`: how a status may change.
* `syncMarks`: the marks when the requirements are taken from a list anew.
* `Step`: what a single request may do to a dossier.
* `Step.verified`: an implemented dossier stays met, but for a change of its level.
* `Step.follows`: the requirements are those of the list when the dossier was made or its level changed.
-/

namespace AssetInventory.Profiles

variable {R : Type}

/-- A dossier with requirements `R`. -/
structure Dossier (R : Type) where
  status : ProfileStatus
  level : ℤ
  /-- How far a requirement is, if the dossier has it. -/
  marks : R → Option RequirementStatus

/-- The dossier has requirements, and all of them are verified. -/
structure Dossier.Met (x : Dossier R) : Prop where
  nonempty : ∃ r, x.marks r ≠ none
  verified : ∀ r s, x.marks r = some s → s = .verified

/-- **The procedure**: how the status of a dossier may change. -/
inductive Edge : ProfileStatus → ProfileStatus → Prop where
  | submit : Edge .drafted .pendingReview
  | resubmit : Edge .rejected .pendingReview
  | approve : Edge .pendingReview .approved
  | reject : Edge .pendingReview .rejected
  | reopen : Edge .rejected .drafted
  | report : Edge .approved .implemented
  | confirm : Edge .implemented .fulfilled

/-- The dossier has been implemented. -/
def ProfileStatus.IsImplemented (status : ProfileStatus) : Prop :=
  status = .implemented ∨ status = .fulfilled

instance : DecidablePred ProfileStatus.IsImplemented := fun status =>
  inferInstanceAs (Decidable (status = .implemented ∨ status = .fulfilled))

theorem Edge.isImplemented {s t : ProfileStatus} (h : Edge s t) (ht : t.IsImplemented) :
    s.IsImplemented ∨ s = .approved ∧ t = .implemented := by
  cases h with
  | report => exact Or.inr ⟨rfl, rfl⟩
  | confirm => exact Or.inl (Or.inl rfl)
  | _ => exact absurd ht (by decide)

/-- The marks when the requirements are taken from a list anew: who is on it keeps its mark, or starts. -/
def syncMarks (active : R → Bool) (marks : R → Option RequirementStatus) (r : R) :
    Option RequirementStatus :=
  if active r then some ((marks r).getD .pending) else none

theorem syncMarks_ne_none (active : R → Bool) (marks : R → Option RequirementStatus) (r : R) :
    syncMarks active marks r ≠ none ↔ active r = true := by
  rw [syncMarks]
  split
  · rename_i h
    exact iff_of_true (Option.some_ne_none _) h
  · rename_i h
    exact iff_of_false (fun hne => hne rfl) h

/-- **What one request may do to a dossier**, when `active` are the requirements of a level and `Relevels`
says which changes of a level are asked for. -/
inductive Step [DecidableEq R] (active : ℤ → R → Bool) (Relevels : ProfileStatus → ℤ → Prop) :
    Option (Dossier R) → Option (Dossier R) → Prop where
  /-- Nothing. -/
  | still (x : Option (Dossier R)) : Step active Relevels x x
  /-- It is made, as a draft or approved at once. -/
  | create (status : ProfileStatus) (level : ℤ) (h : status = .drafted ∨ status = .approved) :
    Step active Relevels none (some ⟨status, level, syncMarks (active level) fun _ => none⟩)
  /-- It moves on.  It is reported as implemented only when its requirements are met. -/
  | move (x : Dossier R) (status : ProfileStatus) (h : Edge x.status status)
    (hmet : status = .implemented → x.Met) :
    Step active Relevels (some x) (some { x with status := status })
  /-- The mark of a requirement changes.  What is verified stays so. -/
  | mark (x : Dossier R) (r : R) (s t : RequirementStatus) (h : x.marks r = some s)
    (hs : s ≠ .verified) :
    Step active Relevels (some x) (some { x with marks := Function.update x.marks r (some t) })
  /-- It gets another level, and the requirements of that. -/
  | relevel (x : Dossier R) (status : ProfileStatus) (level : ℤ) (hlevel : level ≠ x.level)
    (h : Relevels x.status level) (hstatus : status = x.status ∨ Edge x.status status ∧ status = .drafted) :
    Step active Relevels (some x) (some ⟨status, level, syncMarks (active level) x.marks⟩)
  | delete (x : Dossier R) : Step active Relevels (some x) none

section Step

variable [DecidableEq R] {active : ℤ → R → Bool} {Relevels : ProfileStatus → ℤ → Prop}
  {before after : Option (Dossier R)}

def Dossier.Sound (x : Dossier R) : Prop := x.status.IsImplemented → x.Met

omit [DecidableEq R] in
theorem met_syncMarks {marks : R → Option RequirementStatus} {level : ℤ} {status : ProfileStatus}
    (hsome : ∃ r, active level r = true)
    (hall : ∀ r, active level r = true → marks r = some .verified) :
    (⟨status, level, syncMarks (active level) marks⟩ : Dossier R).Met where
  nonempty := by
    obtain ⟨r, hr⟩ := hsome
    exact ⟨r, (syncMarks_ne_none _ _ r).mpr hr⟩
  verified := by
    intro r s hs
    change syncMarks (active level) marks r = some s at hs
    have hr : active level r = true :=
      (syncMarks_ne_none _ marks r).mp (by rw [hs]; exact Option.some_ne_none s)
    rw [syncMarks, if_pos hr, hall r hr] at hs
    exact (Option.some.inj hs).symm

/-- **Implemented means verified**: a request keeps it, if it gives no implemented dossier a level whose
requirements are not all verified. -/
theorem Step.verified (h : Step active Relevels before after) (hbefore : ∀ x ∈ before, x.Sound)
    (hlevel : ∀ x ∈ before, x.status.IsImplemented → ∀ level, level ≠ x.level →
      Relevels x.status level → (∃ r, active level r = true) ∧
        ∀ r, active level r = true → x.marks r = some .verified) : ∀ y ∈ after, y.Sound := by
  cases h with
  | still => exact hbefore
  | create status level h =>
    rintro _ ⟨⟩ himpl
    rcases h with rfl | rfl
    · exact absurd himpl (show ¬ ProfileStatus.IsImplemented .drafted by decide)
    · exact absurd himpl (show ¬ ProfileStatus.IsImplemented .approved by decide)
  | move x status h hmet =>
    rintro _ ⟨⟩ himpl
    rcases h.isImplemented himpl with hx | ⟨-, hstatus⟩
    · obtain ⟨hnonempty, hverified⟩ := hbefore x rfl hx
      exact ⟨hnonempty, hverified⟩
    · obtain ⟨hnonempty, hverified⟩ := hmet hstatus
      exact ⟨hnonempty, hverified⟩
  | mark x r s t h hs =>
    rintro _ ⟨⟩ himpl
    exact absurd ((hbefore x rfl himpl).verified r s h) hs
  | relevel x status level hne h hstatus =>
    rintro _ ⟨⟩ himpl
    have hx : x.status.IsImplemented := by
      rcases hstatus with rfl | ⟨-, rfl⟩
      · exact himpl
      · exact absurd himpl (show ¬ ProfileStatus.IsImplemented .drafted by decide)
    obtain ⟨hsome, hall⟩ := hlevel x rfl hx level hne h
    exact met_syncMarks hsome hall
  | delete x =>
    rintro _ ⟨⟩

/-- **The requirements follow the list** when the dossier is made or its level changes, and only then. -/
theorem Step.follows (h : Step active Relevels before after) : ∀ y ∈ after,
    ((∀ x ∈ before, x.level ≠ y.level) ∧ ∀ r, y.marks r ≠ none ↔ active y.level r = true) ∨
      ∃ x ∈ before, x.level = y.level ∧ ∀ r, y.marks r ≠ none ↔ x.marks r ≠ none := by
  cases h with
  | still => exact fun y hy => Or.inr ⟨y, hy, rfl, fun _ => Iff.rfl⟩
  | create status level h =>
    rintro _ ⟨⟩
    refine Or.inl ⟨?_, syncMarks_ne_none (active level) _⟩
    rintro _ ⟨⟩
  | move x status h hmet =>
    rintro _ ⟨⟩
    exact Or.inr ⟨x, rfl, rfl, fun _ => Iff.rfl⟩
  | mark x r s t h hs =>
    rintro _ ⟨⟩
    refine Or.inr ⟨x, rfl, rfl, fun q => ?_⟩
    change Function.update x.marks r (some t) q ≠ none ↔ x.marks q ≠ none
    by_cases hq : q = r
    · rw [hq, Function.update_self, h]
      exact iff_of_true (Option.some_ne_none t) (Option.some_ne_none s)
    · rw [Function.update_of_ne hq]
  | relevel x status level hne h hstatus =>
    rintro _ ⟨⟩
    refine Or.inl ⟨?_, syncMarks_ne_none (active level) _⟩
    rintro _ ⟨⟩
    exact hne.symm
  | delete x =>
    rintro _ ⟨⟩

end Step

end AssetInventory.Profiles
