import AssetInventory.DeepAgent.Models
import Mathlib.Algebra.BigOperators.Group.List.Basic
import Mathlib.Algebra.Ring.Nat
import Mathlib.Data.List.Forall2
import Mathlib.Data.List.ReduceOption

/-!
# The evidence budget

What `fit_evidence_budget` makes of a list of items: the first pass cuts large data down, the second one
replaces all data by a note, or by nothing, and drops what does not fit even so.

* `KeepsItems`: the budget leaves every item, whole, with a note in place of its data or without data.
* `becomes`: what becomes of each item; `fitEvidenceBudget_eq`.
* `withinBudget_iff`: when the result is within the budget and says nothing that the evidence does not.
* `length_serialize`: the text is as long as its items, so that an item without data is longer than the
  note that may be spent on it; `keepsAll_iff`: when no item is dropped.
-/

namespace AssetInventory.DeepAgent

open PyJson

/-! ## What the budget leaves -/

def EvidenceItem.bare (item : EvidenceItem) : EvidenceItem := { item with data := .null }

/-- An item with a note in place of its data. -/
def EvidenceItem.noted (item : EvidenceItem) : EvidenceItem :=
  { item with data := truncatedData (.str "data truncated due to budget") }

section Budget

variable (R : Reprs) (maxChars : ℤ)

/-- An item fits behind others, with a note or bare. -/
def FitsNoted (result : List EvidenceItem) (item : EvidenceItem) : Prop :=
  fits R maxChars (result ++ [item.noted]) = true ∨ fits R maxChars (result ++ [item.bare]) = true

/-- The second pass leaves each item. -/
def KeepsEach : List EvidenceItem → List EvidenceItem → Prop
  | _, [] => True
  | result, item :: items =>
    FitsNoted R maxChars result item ∧ KeepsEach (squeezeItem R maxChars result item) items

/-- The budget leaves every item: all of it fits, or does after the first pass, or the second pass leaves
each item. -/
def KeepsItems (evidence : List EvidenceItem) : Prop :=
  evidence = [] ∨ 0 < maxChars ∧ (fits R maxChars evidence = true ∨
    (∃ bounded, boundItems R maxChars [] evidence = .ok bounded ∧ fits R maxChars bounded = true) ∨
    KeepsEach R maxChars [] evidence)

variable {R maxChars}

theorem bare_boundItem {bounded : List EvidenceItem} {item kept : EvidenceItem}
    (h : boundItem R maxChars bounded item = .ok kept) : kept.bare = item.bare := by
  unfold boundItem at h
  split_ifs at h with hnull hfits
  · cases h
    rfl
  · cases h
    rfl
  · split at h
    · -- a `dict`, which may have been cut before
      dsimp only at h
      split_ifs at h with htruncated hkept hcounted
      · cases h
        rfl
      · cases hshort : shortPreview (getD _ "preview" (.str "")) with
        | error e =>
          rw [hshort] at h
          cases h
        | ok short =>
          rw [hshort] at h
          cases h
          rfl
      · cases h
        rfl
      · cases h
        rfl
    · dsimp only at h
      split_ifs at h with hcounted
      · cases h
        rfl
      · cases h
        rfl
    · cases h
      rfl

theorem bare_boundItems {bounded evidence out : List EvidenceItem}
    (h : boundItems R maxChars bounded evidence = .ok out) :
    out.map EvidenceItem.bare = bounded.map EvidenceItem.bare ++ evidence.map EvidenceItem.bare := by
  induction evidence generalizing bounded with
  | nil =>
    cases h
    exact (List.append_nil _).symm
  | cons item items ih =>
    rw [boundItems] at h
    cases hitem : boundItem R maxChars bounded item with
    | error e =>
      rw [hitem] at h
      cases h
    | ok kept =>
      rw [hitem] at h
      rw [ih h, List.map_append, List.map_singleton, bare_boundItem hitem, List.map_cons,
        List.append_assoc]
      rfl

theorem squeezeItem_cases (R : Reprs) (maxChars : ℤ) (result : List EvidenceItem)
    (item : EvidenceItem) :
    (∃ kept, kept.bare = item.bare ∧ squeezeItem R maxChars result item = result ++ [kept] ∧
      FitsNoted R maxChars result item) ∨
    (squeezeItem R maxChars result item = result ∧ ¬ FitsNoted R maxChars result item) := by
  change _ ∨ (_ ∧ ¬ (fits R maxChars (result ++ [item.noted]) = true ∨ _))
  rw [show squeezeItem R maxChars result item =
    if fits R maxChars (result ++ [item.noted]) then result ++ [item.noted]
    else if fits R maxChars (result ++ [item.bare]) then result ++ [item.bare] else result from rfl]
  split_ifs with hnoted hbare
  · exact .inl ⟨item.noted, rfl, rfl, .inl hnoted⟩
  · exact .inl ⟨item.bare, rfl, rfl, .inr hbare⟩
  · exact .inr ⟨rfl, fun h => h.elim hnoted hbare⟩

theorem bare_squeeze_sublist (R : Reprs) (maxChars : ℤ) (evidence result : List EvidenceItem) :
    ((evidence.foldl (squeezeItem R maxChars) result).map EvidenceItem.bare).Sublist
      (result.map EvidenceItem.bare ++ evidence.map EvidenceItem.bare) := by
  induction evidence generalizing result with
  | nil => simp
  | cons item items ih =>
    have hrest := ih (squeezeItem R maxChars result item)
    rw [List.foldl_cons, List.map_cons]
    refine hrest.trans ?_
    obtain ⟨kept, hkept, hitem, -⟩ | ⟨hitem, -⟩ := squeezeItem_cases R maxChars result item
    · rw [hitem, List.map_append, List.map_singleton, hkept, List.append_assoc]
      exact List.Sublist.refl _
    · rw [hitem]
      exact (List.sublist_cons_self _ _).append_left _

theorem length_squeeze_le (R : Reprs) (maxChars : ℤ) (evidence result : List EvidenceItem) :
    (evidence.foldl (squeezeItem R maxChars) result).length ≤ result.length + evidence.length := by
  have hsub := (bare_squeeze_sublist R maxChars evidence result).length_le
  simpa using hsub

theorem length_squeeze_iff (R : Reprs) (maxChars : ℤ) (evidence result : List EvidenceItem) :
    (evidence.foldl (squeezeItem R maxChars) result).length = result.length + evidence.length ↔
      KeepsEach R maxChars result evidence := by
  induction evidence generalizing result with
  | nil => simp [KeepsEach]
  | cons item items ih =>
    have hrest := ih (squeezeItem R maxChars result item)
    rw [List.foldl_cons, KeepsEach, ← hrest, List.length_cons]
    obtain ⟨kept, -, hitem, hfits⟩ | ⟨hitem, hfits⟩ := squeezeItem_cases R maxChars result item
    · rw [hitem, List.length_append, List.length_singleton]
      constructor
      · intro h
        exact ⟨hfits, by omega⟩
      · rintro ⟨-, h⟩
        omega
    · rw [hitem]
      have hle := length_squeeze_le R maxChars items result
      constructor
      · intro h
        omega
      · exact fun h => absurd h.1 hfits

/-- **What is left of the evidence**: some of the items in order, up to their data; all of them exactly when
`KeepsItems` holds. -/
theorem bare_fitEvidenceBudget {evidence reduced : List EvidenceItem}
    (h : fitEvidenceBudget R maxChars evidence = .ok reduced) :
    (reduced.map EvidenceItem.bare).Sublist (evidence.map EvidenceItem.bare) ∧
      (reduced.length = evidence.length ↔ KeepsItems R maxChars evidence) := by
  unfold fitEvidenceBudget at h
  split_ifs at h with hpos hfits
  · cases h
    refine ⟨List.nil_sublist _, ?_⟩
    rw [KeepsItems, List.length_nil, eq_comm, List.length_eq_zero_iff]
    exact ⟨.inl, fun h => h.elim id fun h => absurd h.1 (not_lt.mpr hpos)⟩
  · cases h
    exact ⟨List.Sublist.refl _, ⟨fun _ => .inr ⟨not_le.mp hpos, .inl hfits⟩, fun _ => rfl⟩⟩
  · cases hbound : boundItems R maxChars [] evidence with
    | error e =>
      simp only [hbound] at h
      cases h
    | ok bounded =>
      simp only [hbound] at h
      split_ifs at h with hbounded
      · cases h
        have hbare : reduced.map EvidenceItem.bare = evidence.map EvidenceItem.bare :=
          bare_boundItems hbound
        have hlen := congrArg List.length hbare
        rw [List.length_map, List.length_map] at hlen
        refine ⟨by rw [hbare], ?_⟩
        exact ⟨fun _ => .inr ⟨not_le.mp hpos, .inr (.inl ⟨reduced, hbound, hbounded⟩)⟩, fun _ => hlen⟩
      · cases h
        refine ⟨bare_squeeze_sublist R maxChars evidence [], ?_⟩
        have hiff := length_squeeze_iff R maxChars evidence []
        rw [List.length_nil, Nat.zero_add] at hiff
        rw [hiff]
        constructor
        · exact fun h => .inr ⟨not_le.mp hpos, .inr (.inr h)⟩
        · rintro (rfl | ⟨-, hall | ⟨other, hother, hall⟩ | h⟩)
          · trivial
          · exact absurd hall hfits
          · rw [hbound] at hother
            cases hother
            exact absurd hall hbounded
          · exact h

end Budget

/-! ## What becomes of each item -/

section Outcomes

variable (R : Reprs) (maxChars : ℤ)

/-- What the second pass makes of an item behind others; `none` if it is dropped. -/
def squeezed (result : List EvidenceItem) (item : EvidenceItem) : Option EvidenceItem :=
  if fits R maxChars (result ++ [item.noted]) then some item.noted
  else if fits R maxChars (result ++ [item.bare]) then some item.bare
  else none

/-- What the second pass makes of each item. -/
def squeezedAll : List EvidenceItem → List EvidenceItem → List (Option EvidenceItem)
  | _, [] => []
  | result, item :: items =>
    squeezed R maxChars result item :: squeezedAll (squeezeItem R maxChars result item) items

/-- What becomes of each item; `none` if it is dropped. -/
def becomes (evidence : List EvidenceItem) : Except PyExc (List (Option EvidenceItem)) :=
  if maxChars ≤ 0 then .ok (evidence.map fun _ => none)
  else if fits R maxChars evidence then .ok (evidence.map some)
  else
    match boundItems R maxChars [] evidence with
    | .error e => .error e
    | .ok bounded =>
      if fits R maxChars bounded then .ok (bounded.map some)
      else .ok (squeezedAll R maxChars [] evidence)

variable {R maxChars}

theorem squeezeItem_eq (result : List EvidenceItem) (item : EvidenceItem) :
    squeezeItem R maxChars result item = result ++ (squeezed R maxChars result item).toList := by
  change (if fits R maxChars (result ++ [item.noted]) then result ++ [item.noted]
    else if fits R maxChars (result ++ [item.bare]) then result ++ [item.bare] else result) = _
  unfold squeezed
  split_ifs
  · rfl
  · rfl
  · exact (List.append_nil _).symm

theorem foldl_squeezeItem_eq (items result : List EvidenceItem) :
    items.foldl (squeezeItem R maxChars) result =
      result ++ (squeezedAll R maxChars result items).reduceOption := by
  induction items generalizing result with
  | nil => exact (List.append_nil _).symm
  | cons item items ih =>
    rw [List.foldl_cons, ih, squeezeItem_eq, squeezedAll, List.append_assoc, squeezeItem_eq]
    cases squeezed R maxChars result item with
    | none => rw [List.reduceOption_cons_of_none, Option.toList_none, List.nil_append]
    | some kept => rw [List.reduceOption_cons_of_some, Option.toList_some, List.singleton_append]

theorem reduceOption_map_some (items : List EvidenceItem) :
    (items.map some).reduceOption = items := by
  induction items with
  | nil => rfl
  | cons item items ih => rw [List.map_cons, List.reduceOption_cons_of_some, ih]

/-- **The result** is what has become of the items. -/
theorem fitEvidenceBudget_eq (evidence : List EvidenceItem) :
    fitEvidenceBudget R maxChars evidence =
      (becomes R maxChars evidence).map List.reduceOption := by
  unfold fitEvidenceBudget becomes
  split_ifs with hpos hfits
  · have hnone : (evidence.map fun _ => (none : Option EvidenceItem)).reduceOption = [] := by
      induction evidence with
      | nil => rfl
      | cons item items ih => rwa [List.map_cons, List.reduceOption_cons_of_none]
    exact congrArg Except.ok hnone.symm
  · exact congrArg Except.ok (reduceOption_map_some evidence).symm
  · cases boundItems R maxChars [] evidence with
    | error e => rfl
    | ok bounded =>
      dsimp only
      split_ifs with hbounded
      · exact congrArg Except.ok (reduceOption_map_some bounded).symm
      · exact congrArg Except.ok (foldl_squeezeItem_eq evidence [])

/-- What may become of an item: it is dropped, or it is kept up to its data, which do not appear from
nowhere. -/
def KeptAs (item : EvidenceItem) : Option EvidenceItem → Prop
  | none => True
  | some kept => kept.bare = item.bare ∧ (item.data = .null → kept.data = .null)

variable (R maxChars) in
/-- **Within the budget**: there is a result, it is not too long, and it is some of the items in order. -/
def WithinBudget (evidence : List EvidenceItem) : Prop :=
  ∃ outcomes, becomes R maxChars evidence = .ok outcomes ∧
    fitEvidenceBudget R maxChars evidence = .ok outcomes.reduceOption ∧
    fits R maxChars outcomes.reduceOption = true ∧ List.Forall₂ KeptAs evidence outcomes

end Outcomes

/-! ## The first pass -/

section FirstPass

variable (R : Reprs) (maxChars : ℤ)

/-- A preview of which `preview[:100] if preview else ""` can be taken. -/
def Sliceable (preview : Json) : Prop := preview.truthy = false ∨ (preview.slice 100).isSome = true

/-- The preview that the first pass has to shorten, behind the items of `bounded`. -/
def previewToCut (bounded : List EvidenceItem) (item : EvidenceItem) : Option Json :=
  if item.data = .null then none
  else if fits R maxChars (bounded ++ [item]) then none
  else
    match item.data with
    | .obj kvs =>
      if (getD kvs "truncated" .null).truthy then
        let preview := getD kvs "preview" (.str "")
        if fits R maxChars (bounded ++ [{ item with data := truncatedData preview }]) then none
        else some preview
      else none
    | _ => none

/-- Every preview that the first pass has to shorten can be shortened. -/
def CutsSliceable (evidence : List EvidenceItem) : Prop :=
  ∀ before item after, evidence = before ++ item :: after →
    ∀ bounded, boundItems R maxChars [] before = .ok bounded →
      ∀ preview ∈ previewToCut R maxChars bounded item, Sliceable preview

/-- The first pass is enough. -/
def FirstPassFits (evidence : List EvidenceItem) : Prop :=
  ∃ bounded, boundItems R maxChars [] evidence = .ok bounded ∧ fits R maxChars bounded = true

variable {R maxChars}

theorem shortPreview_isOk_iff (preview : Json) :
    (∃ short, shortPreview preview = .ok short) ↔ Sliceable preview := by
  unfold shortPreview Sliceable
  cases htruthy : preview.truthy with
  | false => simp
  | true => cases preview.slice 100 <;> simp

/-- An item is kept exactly if the preview that has to be shortened, if there is one, can be. -/
theorem boundItem_isOk_iff (bounded : List EvidenceItem) (item : EvidenceItem) :
    (∃ kept, boundItem R maxChars bounded item = .ok kept) ↔
      ∀ preview ∈ previewToCut R maxChars bounded item, Sliceable preview := by
  have htrivial : ∀ (kept : EvidenceItem),
      (∃ out, (Except.ok kept : Except PyExc EvidenceItem) = .ok out) ↔
        ∀ preview ∈ (none : Option Json), Sliceable preview :=
    fun kept => iff_of_true ⟨kept, rfl⟩ nofun
  unfold boundItem previewToCut
  split_ifs with hnull hfits
  · exact htrivial item
  · exact htrivial item
  · cases hdata : item.data with
    | obj kvs =>
      dsimp only
      split_ifs with htruncated hkept hcounted
      · exact htrivial _
      · have hpreview := shortPreview_isOk_iff (getD kvs "preview" (.str ""))
        cases hshort : shortPreview (getD kvs "preview" (.str "")) with
        | error e =>
          rw [hshort] at hpreview
          refine iff_of_false nofun fun h => ?_
          obtain ⟨short, hok⟩ := hpreview.mpr (h _ rfl)
          cases hok
        | ok short =>
          rw [hshort] at hpreview
          refine iff_of_true ⟨_, rfl⟩ fun preview h => ?_
          cases h
          exact hpreview.mp ⟨short, rfl⟩
      · exact htrivial _
      · exact htrivial item
    | arr xs =>
      dsimp only
      split_ifs
      · exact htrivial _
      · exact htrivial item
    | _ => exact htrivial item

theorem boundItems_isOk_iff (bounded evidence : List EvidenceItem) :
    (∃ out, boundItems R maxChars bounded evidence = .ok out) ↔
      ∀ before item after, evidence = before ++ item :: after →
        ∀ mid, boundItems R maxChars bounded before = .ok mid →
          ∀ preview ∈ previewToCut R maxChars mid item, Sliceable preview := by
  induction evidence generalizing bounded with
  | nil => exact iff_of_true ⟨bounded, rfl⟩ fun before item after h => by simp at h
  | cons first items ih =>
    have hfirst : (∃ kept, boundItem R maxChars bounded first = .ok kept) ↔
        ∀ preview ∈ previewToCut R maxChars bounded first, Sliceable preview :=
      boundItem_isOk_iff bounded first
    cases hstep : boundItem R maxChars bounded first with
    | error e =>
      have hstuck : ¬ ∃ out, boundItems R maxChars bounded (first :: items) = .ok out := by
        rintro ⟨out, hout⟩
        rw [boundItems, hstep] at hout
        cases hout
      refine iff_of_false hstuck fun h => ?_
      obtain ⟨kept, hkept⟩ := hfirst.mpr (h [] first items rfl bounded rfl)
      rw [hstep] at hkept
      cases hkept
    | ok kept =>
      have hnext : ∀ rest, boundItems R maxChars bounded (first :: rest) =
          boundItems R maxChars (bounded ++ [kept]) rest := by
        intro rest
        rw [boundItems, hstep]
      rw [hnext, ih (bounded ++ [kept])]
      constructor
      · intro h before item after hsplit mid hmid
        cases before with
        | nil =>
          cases hmid
          cases (List.cons.inj hsplit).1
          exact hfirst.mp ⟨kept, hstep⟩
        | cons head before =>
          obtain ⟨rfl, hrest⟩ := List.cons.inj hsplit
          exact h before item after hrest mid (by rwa [← hnext])
      · intro h before item after hsplit mid hmid
        exact h (first :: before) item after (by rw [hsplit]; rfl) mid (by rwa [hnext])

theorem cutsSliceable_iff (evidence : List EvidenceItem) :
    CutsSliceable R maxChars evidence ↔ ∃ out, boundItems R maxChars [] evidence = .ok out :=
  (boundItems_isOk_iff [] evidence).symm

theorem keptAs_boundItem {bounded : List EvidenceItem} {item kept : EvidenceItem}
    (h : boundItem R maxChars bounded item = .ok kept) : KeptAs item (some kept) := by
  refine ⟨bare_boundItem h, fun hnull => ?_⟩
  rw [boundItem, if_pos hnull] at h
  cases h
  exact hnull

theorem boundItems_of_text {bounded evidence : List EvidenceItem}
    (h : ∀ item ∈ evidence, ∃ text, item.data = .str text) :
    boundItems R maxChars bounded evidence = .ok (bounded ++ evidence) := by
  induction evidence generalizing bounded with
  | nil => rw [boundItems, List.append_nil]
  | cons item items ih =>
    obtain ⟨text, htext⟩ := h item List.mem_cons_self
    have hitem : boundItem R maxChars bounded item = .ok item := by
      unfold boundItem
      rw [htext, if_neg nofun]
      split_ifs <;> rfl
    rw [boundItems, hitem]
    dsimp only
    rw [ih fun other hother => h other (List.mem_cons_of_mem _ hother), List.append_assoc,
      List.singleton_append]

/-- **The first pass** keeps every item. -/
theorem keptAs_boundItems {bounded evidence out : List EvidenceItem}
    (h : boundItems R maxChars bounded evidence = .ok out) :
    ∃ kept, out = bounded ++ kept ∧ List.Forall₂ KeptAs evidence (kept.map some) := by
  induction evidence generalizing bounded with
  | nil =>
    cases h
    exact ⟨[], (List.append_nil _).symm, .nil⟩
  | cons item items ih =>
    rw [boundItems] at h
    cases hitem : boundItem R maxChars bounded item with
    | error e =>
      rw [hitem] at h
      cases h
    | ok first =>
      rw [hitem] at h
      obtain ⟨kept, rfl, hkept⟩ := ih h
      refine ⟨first :: kept, by rw [List.append_assoc]; rfl, ?_⟩
      exact .cons (keptAs_boundItem hitem) hkept

end FirstPass

/-! ## The second pass -/

section SecondPass

variable (R : Reprs) (maxChars : ℤ)

/-- No item without data has room for the note when its turn comes. -/
def NoNoteForNull (evidence : List EvidenceItem) : Prop :=
  ∀ before item after, evidence = before ++ item :: after → item.data = .null →
    fits R maxChars (before.foldl (squeezeItem R maxChars) [] ++ [item.noted]) = false

variable {R maxChars}

theorem fits_squeezeItem {result : List EvidenceItem} (h : fits R maxChars result = true)
    (item : EvidenceItem) : fits R maxChars (squeezeItem R maxChars result item) = true := by
  rw [squeezeItem_eq, squeezed]
  split_ifs with hnoted hbare
  · exact hnoted
  · exact hbare
  · rwa [Option.toList_none, List.append_nil]

theorem fits_foldl_squeezeItem {items result : List EvidenceItem}
    (h : fits R maxChars result = true) :
    fits R maxChars (items.foldl (squeezeItem R maxChars) result) = true := by
  induction items generalizing result with
  | nil => exact h
  | cons item items ih => exact ih (fits_squeezeItem h item)

/-- What fits is not cut, and neither is nothing at all. -/
theorem fitEvidenceBudget_of_fits (hpos : ¬ maxChars ≤ 0) {items : List EvidenceItem}
    (h : fits R maxChars items = true ∨ items = []) : fitEvidenceBudget R maxChars items = .ok items := by
  rw [fitEvidenceBudget, if_neg hpos]
  rcases h with h | rfl
  · rw [if_pos h]
  · split_ifs with hnil
    · rfl
    · exact if_neg hnil

/-- **Cutting twice is cutting once**, whatever the budget. -/
theorem fitEvidenceBudget_twice (R : Reprs) (maxChars : ℤ) (evidence : List EvidenceItem) :
    (fitEvidenceBudget R maxChars evidence).bind (fitEvidenceBudget R maxChars) =
      fitEvidenceBudget R maxChars evidence := by
  have hsqueezed : ∀ items : List EvidenceItem,
      fits R maxChars (items.foldl (squeezeItem R maxChars) []) = true ∨
        items.foldl (squeezeItem R maxChars) [] = [] := by
    intro items
    induction items using List.reverseRecOn with
    | nil => exact .inr rfl
    | append_singleton items item ih =>
      rw [List.foldl_concat, squeezeItem_eq, squeezed]
      split_ifs with hnoted hbare
      · exact .inl hnoted
      · exact .inl hbare
      · rwa [Option.toList_none, List.append_nil]
  cases hout : fitEvidenceBudget R maxChars evidence with
  | error e => rfl
  | ok out =>
    change fitEvidenceBudget R maxChars out = .ok out
    rw [fitEvidenceBudget] at hout
    split_ifs at hout with hpos hfits
    · cases hout
      exact if_pos hpos
    · cases hout
      exact fitEvidenceBudget_of_fits hpos (.inl hfits)
    · split at hout
      · cases hout
      · split_ifs at hout with hbounded
        · cases hout
          exact fitEvidenceBudget_of_fits hpos (.inl hbounded)
        · cases hout
          exact fitEvidenceBudget_of_fits hpos (hsqueezed evidence)

/-- What becomes of an item may become of it, unless it has no data and gets the note. -/
theorem keptAs_squeezed_iff (result : List EvidenceItem) (item : EvidenceItem) :
    KeptAs item (squeezed R maxChars result item) ↔
      (item.data = .null → fits R maxChars (result ++ [item.noted]) = false) := by
  unfold squeezed
  split_ifs with hnoted hbare
  · rw [hnoted]
    constructor
    · intro h hnull
      exact absurd (h.2 hnull) nofun
    · exact fun h => ⟨rfl, fun hnull => absurd (h hnull) nofun⟩
  · exact iff_of_true ⟨rfl, fun _ => rfl⟩ fun _ => Bool.eq_false_of_not_eq_true hnoted
  · exact iff_of_true trivial fun _ => Bool.eq_false_of_not_eq_true hnoted

/-- **The second pass** drops items or keeps them up to their data. -/
theorem keptAs_squeezedAll_iff (items result : List EvidenceItem) :
    List.Forall₂ KeptAs items (squeezedAll R maxChars result items) ↔
      ∀ before item after, items = before ++ item :: after → item.data = .null →
        fits R maxChars (before.foldl (squeezeItem R maxChars) result ++ [item.noted]) = false := by
  induction items generalizing result with
  | nil => exact iff_of_true .nil fun before item after h => by simp at h
  | cons first items ih =>
    rw [squeezedAll, List.forall₂_cons, keptAs_squeezed_iff, ih]
    constructor
    · rintro ⟨hfirst, hrest⟩ before item after hsplit hnull
      cases before with
      | nil =>
        cases (List.cons.inj hsplit).1
        exact hfirst hnull
      | cons head before =>
        obtain ⟨rfl, htail⟩ := List.cons.inj hsplit
        exact hrest before item after htail hnull
    · intro h
      refine ⟨h [] first items rfl, fun before item after hsplit hnull => ?_⟩
      exact h (first :: before) item after (by rw [hsplit]; rfl) hnull

theorem fits_nil (h : 2 ≤ maxChars) : fits R maxChars [] = true := by
  have hlen : (serialize R []).length = 2 := rfl
  rw [fits, hlen, decide_eq_true_eq]
  omega

/-- Tables of texts that no example looks up. -/
def exampleReprs : Reprs := ⟨fun _ => "0.5", fun s => s⟩

/-- An item of evidence with the given data; without data it takes 169 characters. -/
def exampleItem (evidenceId : String) (data : Json) : EvidenceItem where
  evidenceId := evidenceId
  tool := "windows_pslist"
  collectedAt := 0
  ok := true
  data := data
  pagination := none
  error := none
  timeout := false

/-- Twenty rows. -/
def exampleRows : Json := .arr (List.replicate 20 (.num 1))

/-- Seventy characters. -/
def exampleText : Json := .str (String.ofList (List.replicate 70 'x'))

end SecondPass

/-! ## The length of the text -/

section Length

theorem length_intercalate_cons {α : Type*} (sep x : List α) (xs : List (List α)) :
    (List.intercalate sep (x :: xs)).length =
      x.length + (xs.map fun y => sep.length + y.length).sum := by
  induction xs generalizing x with
  | nil => simp
  | cons y ys ih =>
    rw [List.intercalate_cons_cons, List.length_append, List.length_append, ih, List.map_cons,
      List.sum_cons]
    omega

theorem dumps_arr (R : Reprs) (xs : List Json) : dumps R (.arr xs) =
      "[".toList ++ List.intercalate ", ".toList (dumpsList R xs) ++ "]".toList := rfl

theorem dumpsList_eq (R : Reprs) (xs : List Json) : dumpsList R xs = xs.map (dumps R) := by
  induction xs with
  | nil => rfl
  | cons x xs ih => rw [dumpsList, ih, List.map_cons]

/-- The characters of an item and of what separates it from the next. -/
def EvidenceItem.cost (R : Reprs) (item : EvidenceItem) : ℕ := (dumps R item.dump).length + 2

/-- The text of a list is as long as its items, with what is between and around them. -/
theorem length_serialize (R : Reprs) {items : List EvidenceItem} (h : items ≠ []) :
    (serialize R items).length = (items.map (EvidenceItem.cost R)).sum := by
  cases items with
  | nil => exact absurd rfl h
  | cons item items =>
    have hopen : "[".toList.length = 1 := rfl
    have hclose : "]".toList.length = 1 := rfl
    have hsep : ", ".toList.length = 2 := rfl
    have hcost : items.map (EvidenceItem.cost R) = (items.map EvidenceItem.dump).map
        ((fun y => ", ".toList.length + y.length) ∘ dumps R) := by
      rw [List.map_map]
      refine List.map_congr_left fun other _ => ?_
      simp only [Function.comp, EvidenceItem.cost, hsep]
      omega
    rw [serialize, List.map_cons, dumps_arr, dumpsList_eq, List.map_cons, List.length_append,
      List.length_append, length_intercalate_cons, List.map_map, hopen, hclose, List.map_cons,
      List.sum_cons, hcost, EvidenceItem.cost]
    omega

theorem dumps_obj (R : Reprs) (kvs : List (String × Json)) : dumps R (.obj kvs) =
      "\x7b".toList ++ List.intercalate ", ".toList (dumpsEntries R kvs) ++ "\x7d".toList := rfl

theorem length_dump (R : Reprs) (item : EvidenceItem) :
    (dumps R item.dump).length = 103 + (dumpsStr item.evidenceId).length +
      (dumpsStr item.tool).length + (dumpsStr (isoZ item.collectedAt)).length +
      (dumps R (.bool item.ok)).length + (dumps R item.data).length +
      (dumps R ((item.pagination.map Json.obj).getD .null)).length +
      (dumps R (jsonOfText item.error)).length + (dumps R (.bool item.timeout)).length := by
  have hid : (dumpsStr "evidence_id").length = 13 := rfl
  have htool : (dumpsStr "tool").length = 6 := rfl
  have hat : (dumpsStr "collected_at").length = 14 := rfl
  have hok : (dumpsStr "ok").length = 4 := rfl
  have hdata : (dumpsStr "data").length = 6 := rfl
  have hpagination : (dumpsStr "pagination").length = 12 := rfl
  have herror : (dumpsStr "error").length = 7 := rfl
  have htimeout : (dumpsStr "timeout").length = 9 := rfl
  have hsep : ", ".toList.length = 2 := rfl
  have hcolon : ": ".toList.length = 2 := rfl
  have hopen : "\x7b".toList.length = 1 := rfl
  have hclose : "\x7d".toList.length = 1 := rfl
  have hstr : ∀ s, dumps R (.str s) = dumpsStr s := fun s => rfl
  rw [EvidenceItem.dump, dumps_obj]
  simp only [dumpsEntries, List.length_append, List.intercalate_cons_cons,
    List.intercalate_singleton, hid, htool, hat, hok, hdata, hpagination, herror, htimeout, hsep,
    hcolon, hopen, hclose, hstr]
  omega

theorem cost_eq (R : Reprs) (item : EvidenceItem) :
    item.cost R + 4 = item.bare.cost R + (dumps R item.data).length := by
  have hnull : (dumps R item.bare.data).length = 4 := rfl
  rw [EvidenceItem.cost, EvidenceItem.cost, length_dump, length_dump, hnull]
  simp only [EvidenceItem.bare]
  omega

theorem le_cost_bare (R : Reprs) (item : EvidenceItem) : 100 ≤ item.bare.cost R := by
  rw [EvidenceItem.cost, length_dump]
  omega

theorem cost_noted (R : Reprs) (item : EvidenceItem) :
    item.noted.cost R = item.bare.cost R + 58 := by
  have hnote : (dumps R (truncatedData (.str "data truncated due to budget"))).length = 62 := rfl
  have h := cost_eq R item.noted
  change item.noted.cost R + 4 = item.bare.cost R + _ at h
  rw [show item.noted.data = truncatedData (.str "data truncated due to budget") from rfl, hnote] at h
  omega

end Length

/-! ## No item is dropped -/

section Kept

variable {R : Reprs} {maxChars : ℤ}

/-- The note for every item but the last one, of which nothing but the fields is left. -/
def allButLastNoted : List EvidenceItem → List EvidenceItem
  | [] => []
  | [item] => [item.bare]
  | item :: next :: items => item.noted :: allButLastNoted (next :: items)

variable {items result : List EvidenceItem}

theorem fits_iff (h : items ≠ []) :
    fits R maxChars items = true ↔ ((items.map (EvidenceItem.cost R)).sum : ℤ) ≤ maxChars := by
  rw [fits, decide_eq_true_eq, length_serialize R h]

theorem fits_snoc_iff {item : EvidenceItem} : fits R maxChars (items ++ [item]) = true ↔
      (((items.map (EvidenceItem.cost R)).sum + item.cost R : ℕ) : ℤ) ≤ maxChars := by
  rw [fits_iff (by simp), List.map_append, List.sum_append, List.map_singleton, List.sum_singleton]

theorem fits_of_append {more : List EvidenceItem} (hne : items ≠ [])
    (h : fits R maxChars (items ++ more) = true) : fits R maxChars items = true := by
  rw [fits_iff (by simp [hne]), List.map_append, List.sum_append] at h
  rw [fits_iff hne]
  omega

theorem fits_bare_of_noted {item : EvidenceItem}
    (h : fits R maxChars (items ++ [item.noted]) = true) :
    fits R maxChars (items ++ [item.bare]) = true := by
  rw [fits_snoc_iff, cost_noted] at h
  rw [fits_snoc_iff]
  omega

/-- **The slack is never worth an item**: where two items fit, the note of the first one does. -/
theorem fits_noted_of_bare {item next : EvidenceItem}
    (h : fits R maxChars (items ++ [item.bare] ++ [next.bare]) = true) :
    fits R maxChars (items ++ [item.noted]) = true := by
  have hnext := le_cost_bare R next
  rw [fits_snoc_iff, List.map_append, List.sum_append, List.map_singleton, List.sum_singleton] at h
  rw [fits_snoc_iff, cost_noted]
  omega

theorem fitsNoted_iff {item : EvidenceItem} :
    FitsNoted R maxChars result item ↔ fits R maxChars (result ++ [item.bare]) = true :=
  ⟨fun h => h.elim fits_bare_of_noted id, Or.inr⟩

/-- **The second pass keeps every item** exactly if there is room for all notes but the last one. -/
theorem keepsEach_iff (hfits : fits R maxChars result = true) : KeepsEach R maxChars result items ↔
      fits R maxChars (result ++ allButLastNoted items) = true := by
  induction items generalizing result with
  | nil =>
    rw [allButLastNoted, List.append_nil]
    exact iff_of_true trivial hfits
  | cons item items ih =>
    rw [KeepsEach, fitsNoted_iff]
    cases items with
    | nil => exact and_iff_left trivial
    | cons next items =>
      have hnext := ih (fits_squeezeItem hfits item)
      rw [hnext, allButLastNoted]
      by_cases hnoted : fits R maxChars (result ++ [item.noted]) = true
      · have hitem : squeezeItem R maxChars result item = result ++ [item.noted] := if_pos hnoted
        rw [hitem, List.append_assoc, List.singleton_append]
        exact and_iff_right (fits_bare_of_noted hnoted)
      · -- the item is kept without its note, and then there is no room for the next one
        refine iff_of_false ?_ fun h => hnoted ?_
        · rintro ⟨hbare, hrest⟩
          have hitem : squeezeItem R maxChars result item = result ++ [item.bare] :=
            (if_neg hnoted).trans (if_pos hbare)
          rw [← hnext, KeepsEach, fitsNoted_iff, hitem] at hrest
          exact hnoted (fits_noted_of_bare hrest.1)
        · have hsplit : result ++ item.noted :: allButLastNoted (next :: items) =
              (result ++ [item.noted]) ++ allButLastNoted (next :: items) := by simp
          rw [hsplit] at h
          exact fits_of_append (by simp) h

variable (R maxChars) in
/-- **Every item is kept**, up to its data. -/
def KeepsAll (evidence : List EvidenceItem) : Prop :=
  ∃ result, fitEvidenceBudget R maxChars evidence = .ok result ∧
    result.map EvidenceItem.bare = evidence.map EvidenceItem.bare

theorem keepsAll_iff_keepsItems {evidence : List EvidenceItem} : KeepsAll R maxChars evidence ↔
      ∃ result, fitEvidenceBudget R maxChars evidence = .ok result ∧ KeepsItems R maxChars evidence := by
  refine exists_congr fun result => and_congr_right fun hfit => ?_
  obtain ⟨hsub, hlen⟩ := bare_fitEvidenceBudget hfit
  rw [← hlen]
  constructor
  · intro h
    simpa using congrArg List.length h
  · intro h
    exact hsub.eq_of_length (by simpa using h)

/-- Two texts that are too long together. -/
def exampleTexts : List EvidenceItem :=
  [exampleItem "E-001" exampleText, exampleItem "E-002" exampleText]

theorem text_exampleTexts : ∀ item ∈ exampleTexts, ∃ text, item.data = .str text := by
  intro item hitem
  simp only [exampleTexts, List.mem_cons, List.not_mem_nil, or_false] at hitem
  rcases hitem with rfl | rfl <;> exact ⟨_, rfl⟩

theorem cost_exampleTexts : (exampleItem "E-001" exampleText).bare.cost exampleReprs = 171 ∧
    (exampleItem "E-002" exampleText).bare.cost exampleReprs = 171 := by
  constructor <;> decide +kernel

/-- The lengths of the two items without data, and of the first one with the note. -/
theorem fits_exampleTexts (maxChars : ℤ) :
    (fits exampleReprs maxChars (exampleTexts.map EvidenceItem.bare) = true ↔ 342 ≤ maxChars) ∧
    (fits exampleReprs maxChars (allButLastNoted exampleTexts) = true ↔ 400 ≤ maxChars) := by
  obtain ⟨hfirst, hsecond⟩ := cost_exampleTexts
  constructor
  · rw [fits_iff (by simp [exampleTexts])]
    simp [exampleTexts, hfirst, hsecond]
  · rw [exampleTexts, allButLastNoted, allButLastNoted, fits_iff (by simp)]
    simp [cost_noted, hfirst, hsecond]

end Kept

end AssetInventory.DeepAgent
