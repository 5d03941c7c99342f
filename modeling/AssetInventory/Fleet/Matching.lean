import AssetInventory.Fleet.Routes

/-!
# Which machine a fingerprint is matched with

Where no machine has the id of a fingerprint, all the machines of the organisation are compared with it, in
an order that nothing is known of, and the first one whose score reaches the threshold is taken.

* `similarityScore`, `isSameMachine`: the score; the ratio of two strings is a parameter.
* `candidatesOfEnroll`, `candidatesOfImport`: the machines that are compared.
* `BestChosen`: what is expected, that the order does not count and the best one is taken.
* `OnlyOne`: the condition, that no other machine may be taken.
* `matching_bestChosen_iff`: enrollments and imports do what is expected exactly under the condition.
-/

namespace AssetInventory.Fleet

open PyJson PyTime Orm RowStore ReadCommitted Server

/-! ## The score -/

section Score

variable (ratio : Json → Json → Option ℚ)

/-- The weights of the components. -/
def similarityWeights : List (String × ℚ) :=
  [("smbios_uuid", 1 / 2), ("machine_guid", 3 / 10), ("mainboard_serial", 1 / 5)]

/-- The loop over the components, with `total` and `score`; `none` is an exception. -/
def similarityLoop (fp1 fp2 : Fingerprint) : List (String × ℚ) → ℚ → ℚ → Option (ℚ × ℚ)
  | [], total, score => some (total, score)
  | (k, weight) :: weights, total, score =>
    let v1 := getD fp1 k (.str "")
    let v2 := getD fp2 k (.str "")
    if v1.truthy = false ∨ v2.truthy = false then similarityLoop fp1 fp2 weights total score
    else if v1 = v2 then similarityLoop fp1 fp2 weights (total + weight) (score + weight)
    else
      match ratio v1 v2 with
      | none => none
      | some ratio =>
        similarityLoop fp1 fp2 weights (total + weight)
          (if 4 / 5 < ratio then score + weight * ratio else score)

/-- `similarity_score`; `none` is an exception. -/
def similarityScore (fp1 fp2 : Fingerprint) : Option ℚ :=
  (similarityLoop ratio fp1 fp2 similarityWeights 0 0).map fun (total, score) =>
    if total = 0 then 0 else score / total

/-- `is_same_machine`; `none` is an exception. -/
def isSameMachine (fp1 fp2 : Fingerprint) : Option Bool :=
  (similarityScore ratio fp1 fp2).map fun score => decide (3 / 5 ≤ score)

/-- Fingerprints are compared by their scores. -/
def Identification.withRatio (I : Identification) : Identification :=
  { I with isSameMachine := Fleet.isSameMachine ratio }

end Score

/-! ## The machines that are compared -/

section Candidates

variable (I : Identification) (data : Data) (orgId : Uuid)

/-- The machines that an enrollment compares: all, if none has the id. -/
def candidatesOfEnroll (weighted : String) : List (Uuid × Machine) :=
  if exactMatch data orgId weighted = some none then machinesOf data orgId else []

/-- The machines that an import compares. -/
def candidatesOfImport (machineUuid : String) (fingerprint : Fingerprint) (weighted : String) :
    List (Uuid × Machine) :=
  if (machineUuid = "" ∨ exactMatch data orgId machineUuid = some none) ∧ fingerprint ≠ [] then
    candidatesOfEnroll data orgId weighted
  else []

/-- What is found, with what the database answers.  The outer `none` is an exception. -/
def selected (find : Handler (Option (Option (Uuid × Machine)))) (answers : ℕ → Env) :
    Option (Option (Uuid × Machine)) :=
  (find.alone ⟨data, [], 0, answers⟩).1

end Candidates

/-! ## The first candidate that is the same machine -/

section First

variable {I : Identification} {fingerprint : Fingerprint} {xs : List (Uuid × Machine)} {x : Uuid × Machine}

theorem of_firstSame (h : firstSame I fingerprint xs = some (some x)) :
    x ∈ xs ∧ I.isSameMachine fingerprint x.2.fingerprint = some true := by
  induction xs with
  | nil => cases h
  | cons y ys ih =>
    rw [firstSame] at h
    cases hsame : I.isSameMachine fingerprint y.2.fingerprint with
    | none =>
      rw [hsame] at h
      cases h
    | some same =>
      rw [hsame] at h
      cases same with
      | true =>
        cases h
        exact ⟨List.mem_cons_self, hsame⟩
      | false => exact ⟨List.mem_cons_of_mem y (ih h).1, (ih h).2⟩

theorem firstSame_eq_none : firstSame I fingerprint xs = some none ↔
    ∀ y ∈ xs, I.isSameMachine fingerprint y.2.fingerprint = some false := by
  induction xs with
  | nil => exact iff_of_true rfl (List.forall_mem_nil _)
  | cons y ys ih =>
    rw [firstSame, List.forall_mem_cons]
    cases hsame : I.isSameMachine fingerprint y.2.fingerprint with
    | none => simp
    | some same =>
      cases same with
      | true => simp
      | false => simpa using ih

/-- **A candidate is taken in every order** if all the others are told apart. -/
theorem firstSame_of_only (hx : x ∈ xs) (hsame : I.isSameMachine fingerprint x.2.fingerprint = some true)
    (hothers : ∀ y ∈ xs, I.isSameMachine fingerprint y.2.fingerprint ≠ some false → y = x) :
    firstSame I fingerprint xs = some (some x) := by
  induction xs with
  | nil => cases hx
  | cons y ys ih =>
    rw [firstSame]
    by_cases hy : I.isSameMachine fingerprint y.2.fingerprint = some false
    · rw [hy]
      refine ih ?_ fun z hz => hothers z (List.mem_cons_of_mem y hz)
      rcases List.mem_cons.mp hx with rfl | hrest
      · rw [hsame] at hy
        cases hy
      · exact hrest
    · rw [hothers y List.mem_cons_self hy, hsame]

/-- Nothing is decided when no candidate is the same machine and one cannot be compared. -/
theorem firstSame_of_not_same
    (hsame : ∀ y ∈ xs, I.isSameMachine fingerprint y.2.fingerprint ≠ some true)
    (hraises : ¬ ∀ y ∈ xs, I.isSameMachine fingerprint y.2.fingerprint = some false) :
    firstSame I fingerprint xs = none := by
  match hfirst : firstSame I fingerprint xs with
  | none => rfl
  | some none => exact absurd (firstSame_eq_none.mp hfirst) hraises
  | some (some x) => exact absurd (of_firstSame hfirst).2 (hsame x (of_firstSame hfirst).1)

/-- **The order does not count** if a candidate that may be taken is the only one. -/
theorem firstSame_congr {ys : List (Uuid × Machine)} (hmem : ∀ x, x ∈ xs ↔ x ∈ ys)
    (honly : ∀ x ∈ xs, I.isSameMachine fingerprint x.2.fingerprint = some true →
      ∀ y ∈ xs, I.isSameMachine fingerprint y.2.fingerprint ≠ some false → y = x) :
    firstSame I fingerprint xs = firstSame I fingerprint ys := by
  by_cases htaken : ∃ x ∈ xs, I.isSameMachine fingerprint x.2.fingerprint = some true
  · obtain ⟨x, hx, hsame⟩ := htaken
    rw [firstSame_of_only hx hsame (honly x hx hsame),
      firstSame_of_only ((hmem x).mp hx) hsame fun y hy => honly x hx hsame y ((hmem y).mpr hy)]
  have hnot : ∀ y ∈ xs, I.isSameMachine fingerprint y.2.fingerprint ≠ some true :=
    fun y hy hsame => htaken ⟨y, hy, hsame⟩
  by_cases hnone : ∀ y ∈ xs, I.isSameMachine fingerprint y.2.fingerprint = some false
  · rw [firstSame_eq_none.mpr hnone, firstSame_eq_none.mpr fun y hy => hnone y ((hmem y).mpr hy)]
  · rw [firstSame_of_not_same hnot hnone, firstSame_of_not_same (fun y hy => hnot y ((hmem y).mpr hy))
      fun hall => hnone fun y hy => hall y ((hmem y).mp hy)]

end First

/-! ## When the order does not count -/

section Choice

variable (ratio : Json → Json → Option ℚ) (fingerprint : Fingerprint)

/-- **What is expected of a choice among candidates**: it does not depend on what the database answers, and
no candidate has a higher score than the one that is chosen. -/
def BestChosen (candidates : List (Uuid × Machine))
    (choice : (ℕ → Env) → Option (Option (Uuid × Machine))) : Prop :=
  (∀ answers answers', choice answers = choice answers') ∧
    ∀ answers x, choice answers = some (some x) → ∀ y ∈ candidates,
      ∀ score ∈ similarityScore ratio fingerprint y.2.fingerprint,
        ∃ best ∈ similarityScore ratio fingerprint x.2.fingerprint, score ≤ best

/-- **What a choice does in any case**: none is made only if no candidate reaches the threshold, and the
candidate that is chosen reaches it. -/
def ByThreshold (candidates : List (Uuid × Machine))
    (choice : (ℕ → Env) → Option (Option (Uuid × Machine))) : Prop :=
  candidates ≠ [] → ∀ answers,
    (choice answers = some none ↔
      ∀ y ∈ candidates, isSameMachine ratio fingerprint y.2.fingerprint = some false) ∧
    ∀ x, choice answers = some (some x) →
      x ∈ candidates ∧ isSameMachine ratio fingerprint x.2.fingerprint = some true

/-- **The condition on the candidates**: one that reaches the threshold is the only one that does, or that
cannot be compared. -/
def OnlyOne (candidates : List (Uuid × Machine)) : Prop :=
  ∀ x ∈ candidates, isSameMachine ratio fingerprint x.2.fingerprint = some true →
    ∀ y ∈ candidates, isSameMachine ratio fingerprint y.2.fingerprint ≠ some false → y = x

variable {ratio fingerprint} {I : Identification} {data : Data} {orgId : Uuid}

theorem isSameMachine_eq_some {f g : Fingerprint} {b : Bool} : isSameMachine ratio f g = some b ↔
      ∃ score, similarityScore ratio f g = some score ∧ decide (3 / 5 ≤ score) = b :=
  Option.map_eq_some_iff

/-- How a choice comes about: there are no candidates, or the first one that is the same machine is taken. -/
def ChoosesFirst (ratio : Json → Json → Option ℚ) (I : Identification) (fingerprint : Fingerprint)
    (candidates : List (Uuid × Machine)) (choice : (ℕ → Env) → Option (Option (Uuid × Machine))) : Prop :=
  candidates = [] ∧ (∀ answers answers', choice answers = choice answers') ∨
    (candidates.map Prod.fst).Nodup ∧ ∀ answers, choice answers =
      firstSame (I.withRatio ratio) fingerprint (inOrder (answers 0).rank candidates)

variable {candidates : List (Uuid × Machine)} {choice : (ℕ → Env) → Option (Option (Uuid × Machine))}

theorem ChoosesFirst.byThreshold (h : ChoosesFirst ratio I fingerprint candidates choice) :
    ByThreshold ratio fingerprint candidates choice := by
  intro hne answers
  rcases h with ⟨hnil, -⟩ | ⟨-, hchoice⟩
  · exact absurd hnil hne
  · rw [hchoice, firstSame_eq_none]
    simp only [mem_inOrder]
    refine ⟨Iff.rfl, fun x hx => ?_⟩
    obtain ⟨hmem, hsame⟩ := of_firstSame hx
    exact ⟨mem_inOrder.mp hmem, hsame⟩

/-- The candidate that is taken has the highest score if it is the only one that reaches the threshold. -/
theorem OnlyOne.best (h : OnlyOne ratio fingerprint candidates) {x y : Uuid × Machine} (hx : x ∈ candidates)
    (hsame : isSameMachine ratio fingerprint x.2.fingerprint = some true) (hy : y ∈ candidates) :
    ∀ score ∈ similarityScore ratio fingerprint y.2.fingerprint,
      ∃ best ∈ similarityScore ratio fingerprint x.2.fingerprint, score ≤ best := by
  intro score hscore
  by_cases hother : isSameMachine ratio fingerprint y.2.fingerprint = some false
  · obtain ⟨low, hlow, hbelow⟩ := isSameMachine_eq_some.mp hother
    obtain ⟨best, hbest, habove⟩ := isSameMachine_eq_some.mp hsame
    rw [decide_eq_false_iff_not, not_le] at hbelow
    rw [decide_eq_true_iff] at habove
    cases hscore.symm.trans hlow
    exact ⟨best, hbest, hbelow.le.trans habove⟩
  · cases h x hx hsame y hy hother
    exact ⟨score, hscore, le_rfl⟩

/-- **When the best candidate is chosen in every order.** -/
theorem ChoosesFirst.bestChosen_iff (h : ChoosesFirst ratio I fingerprint candidates choice) :
    BestChosen ratio fingerprint candidates choice ↔ OnlyOne ratio fingerprint candidates := by
  rcases h with ⟨rfl, hconst⟩ | ⟨hkeys, hchoice⟩
  · exact iff_of_true ⟨hconst, fun _ _ _ => List.forall_mem_nil _⟩ (List.forall_mem_nil _)
  constructor
  · -- Of two candidates that may be taken, each comes first in some order.
    intro hbest x hx hsame y hy hother
    obtain ⟨rank, rest, hfirst⟩ := exists_inOrder_cons hkeys hx
    obtain ⟨rank', rest', hfirst'⟩ := exists_inOrder_cons hkeys hy
    have heq := hbest.1 (fun _ => ⟨0, rank, 0, none⟩) fun _ => ⟨0, rank', 0, none⟩
    have hsame' : (I.withRatio ratio).isSameMachine fingerprint x.2.fingerprint = some true := hsame
    have hother' : (I.withRatio ratio).isSameMachine fingerprint y.2.fingerprint ≠ some false := hother
    rw [hchoice, hchoice, hfirst, hfirst', firstSame, hsame', firstSame] at heq
    cases hy' : (I.withRatio ratio).isSameMachine fingerprint y.2.fingerprint with
    | none =>
      rw [hy'] at heq
      cases heq
    | some same =>
      cases same with
      | true =>
        rw [hy'] at heq
        cases heq
        rfl
      | false => exact absurd hy' hother'
  · intro honly
    refine ⟨fun answers answers' => ?_, fun answers x hx y hy => ?_⟩
    · rw [hchoice, hchoice]
      refine firstSame_congr (fun x => by rw [mem_inOrder, mem_inOrder]) fun x hx hsame y hy hother => ?_
      exact honly x (mem_inOrder.mp hx) hsame y (mem_inOrder.mp hy) hother
    · rw [hchoice] at hx
      obtain ⟨hmem, hsame⟩ := of_firstSame hx
      exact honly.best (mem_inOrder.mp hmem) hsame hy

theorem selected_findMachine (weighted : String) (answers : ℕ → Env) :
    selected data (findMachine I orgId weighted fingerprint) answers =
      match exactMatch data orgId weighted with
      | none => none
      | some (some x) => some (some x)
      | some none => firstSame I fingerprint (inOrder (answers 0).rank (machinesOf data orgId)) := by
  have hview : (⟨data, [], 0, answers⟩ : Alone Data DataWrite Env).view = data := rfl
  rw [selected, findMachine, alone_select, hview]
  cases exactMatch data orgId weighted with
  | none => rfl
  | some found => cases found <;> rfl

/-- What an import finds: a machine with the id that is named, or else what an enrollment finds. -/
theorem selected_findImported (machineUuid weighted : String) (answers : ℕ → Env) :
    selected data (findImported I orgId machineUuid fingerprint weighted) answers =
      match if machineUuid = "" then some none else exactMatch data orgId machineUuid with
      | none => none
      | some (some x) => some (some x)
      | some none => if fingerprint = [] then some none
        else selected data (findMachine I orgId weighted fingerprint) answers := by
  have hview : (⟨data, [], 0, answers⟩ : Alone Data DataWrite Env).view = data := rfl
  rw [selected, findImported, alone_select, hview]
  cases (if machineUuid = "" then some none else exactMatch data orgId machineUuid) with
  | none => rfl
  | some found =>
    cases found with
    | some x => rfl
    | none =>
      dsimp only
      split_ifs <;> rfl

theorem choosesFirst_findMachine (weighted : String) :
    ChoosesFirst ratio I fingerprint (candidatesOfEnroll data orgId weighted)
      (selected data (findMachine (I.withRatio ratio) orgId weighted fingerprint)) := by
  have hselected := @selected_findMachine fingerprint (I.withRatio ratio) data orgId weighted
  rw [candidatesOfEnroll]
  by_cases hnone : exactMatch data orgId weighted = some none
  · refine .inr ⟨?_, fun answers => ?_⟩
    · rw [if_pos hnone]
      exact data.machines.nodup_rowsWhere _
    · rw [hselected, if_pos hnone, hnone]
  · refine .inl ⟨if_neg hnone, fun answers answers' => ?_⟩
    rw [hselected, hselected]
    cases hexact : exactMatch data orgId weighted with
    | none => rfl
    | some found =>
      cases found with
      | some x => rfl
      | none => exact absurd hexact hnone

theorem choosesFirst_findImported (machineUuid weighted : String) :
    ChoosesFirst ratio I fingerprint (candidatesOfImport data orgId machineUuid fingerprint weighted)
      (selected data (findImported (I.withRatio ratio) orgId machineUuid fingerprint weighted)) := by
  have hselected := @selected_findImported fingerprint (I.withRatio ratio) data orgId machineUuid weighted
  rw [candidatesOfImport]
  by_cases hcompares : (machineUuid = "" ∨ exactMatch data orgId machineUuid = some none) ∧ fingerprint ≠ []
  · have hnamed : (if machineUuid = "" then some none else exactMatch data orgId machineUuid) =
        some none := by
      split_ifs with hempty
      · rfl
      · exact hcompares.1.resolve_left hempty
    rw [if_pos hcompares]
    have hfound : selected data (findImported (I.withRatio ratio) orgId machineUuid fingerprint weighted) =
        selected data (findMachine (I.withRatio ratio) orgId weighted fingerprint) := by
      funext answers
      rw [hselected, hnamed]
      exact if_neg hcompares.2
    rw [hfound]
    exact choosesFirst_findMachine weighted
  · refine .inl ⟨if_neg hcompares, fun answers answers' => ?_⟩
    rw [hselected, hselected]
    cases hnamed : (if machineUuid = "" then some none else exactMatch data orgId machineUuid) with
    | none => rfl
    | some found =>
      cases found with
      | some x => rfl
      | none =>
        have hempty : fingerprint = [] := by
          by_contra hne
          refine hcompares ⟨?_, hne⟩
          by_cases hid : machineUuid = ""
          · exact .inl hid
          · rw [if_neg hid] at hnamed
            exact .inr hnamed
        dsimp only
        rw [if_pos hempty, if_pos hempty]

/-- **When the matching of machines does not depend on the order of the rows**: exactly when a candidate
that reaches the threshold is the only one.  It has the highest score then. -/
theorem matching_bestChosen_iff (ratio : Json → Json → Option ℚ) (I : Identification) (data : Data)
    (orgId : Uuid) (fingerprint : Fingerprint) (machineUuid weighted : String) :
    let enrolled := selected data (findMachine (I.withRatio ratio) orgId weighted fingerprint)
    let imported := selected data
      (findImported (I.withRatio ratio) orgId machineUuid fingerprint weighted)
    let compared := candidatesOfEnroll data orgId weighted
    let compared' := candidatesOfImport data orgId machineUuid fingerprint weighted
    (BestChosen ratio fingerprint compared enrolled ↔ OnlyOne ratio fingerprint compared) ∧
      (BestChosen ratio fingerprint compared' imported ↔ OnlyOne ratio fingerprint compared') ∧
      ByThreshold ratio fingerprint compared enrolled ∧
      ByThreshold ratio fingerprint compared' imported :=
  ⟨(choosesFirst_findMachine weighted).bestChosen_iff,
    (choosesFirst_findImported machineUuid weighted).bestChosen_iff,
    (choosesFirst_findMachine weighted).byThreshold,
    (choosesFirst_findImported machineUuid weighted).byThreshold⟩

end Choice

/-! Two machines that were cloned, and one of them has a component more. -/

/-- A machine that is known by its firmware. -/
def clonedMachine : Machine := exampleMachine "4C4C4544"

/-- A machine with the same firmware, and an id of its system. -/
def otherClone : Machine :=
  { exampleMachine "4C4C4544" with
    machineUuid := "4C4C4544 aaaa"
    fingerprint := [("smbios_uuid", .str "4C4C4544"), ("machine_guid", .str "aaaa")] }

/-- The inventory with both. -/
def clonesData : Data :=
  { noData with machines := (Table.empty.insert 0 clonedMachine).insert 1 otherClone }

/-- Another system on the same firmware. -/
def thirdClone : Fingerprint := [("smbios_uuid", .str "4C4C4544"), ("machine_guid", .str "bbbb")]

/-- No two of the texts have a character in common. -/
def nothingInCommon : Json → Json → Option ℚ := fun _ _ => some 0

/-- The machine with the given key comes first. -/
def firstKey (key : Uuid) : ℕ → Env := fun _ =>
  { exampleAnswer with rank := fun k => if k = key then 0 else 1 }

/-- **Each of the two is found** if it comes first, although their scores differ. -/
theorem clones_not_bestChosen :
    ¬ ∀ (ratio : Json → Json → Option ℚ) (I : Identification) (data : Data) (orgId : Uuid)
      (fingerprint : Fingerprint) (weighted : String),
      BestChosen ratio fingerprint (candidatesOfEnroll data orgId weighted)
        (selected data (findMachine (I.withRatio ratio) orgId weighted fingerprint)) := by
  intro h
  have horder := (h nothingInCommon exampleIdentification clonesData 0 thirdClone "4C4C4544 bbbb").1
    (firstKey 0) (firstKey 1)
  have hkeys := congrArg (Option.map (Option.map Prod.fst)) horder
  revert hkeys
  decide +kernel

end AssetInventory.Fleet
