import AssetInventory.Fleet.Enroll
import Mathlib.Data.List.Flatten
import Mathlib.Data.List.Sublists

/-!
# Which fingerprints share an id

The id of a fingerprint is the hash of a text.  A fingerprint with components contributes a piece of the
digest of each, and the pieces are put together without the names of the components and without separators.

* `cuts`: how long a piece of which digest a fingerprint contributes.
* `sum_cuts`: a single component contributes 32 digits, two or three components 31.
* `LineUp`: the pieces of two fingerprints, cut at different places, spell the same.
* `tellsApart_iff`: which fingerprints have the same id only if their components are the same.
-/

namespace AssetInventory.Fleet

open PyJson PyTime

/-! ## The components of a fingerprint -/

/-- The text of a component; an empty one counts as missing. -/
def valueOf (fingerprint : Fingerprint) (field : String) : Option String :=
  ((lookup field fingerprint).filter Json.truthy).bind textOf

/-- The components are texts, or empty. -/
def Textual (fingerprint : Fingerprint) : Prop :=
  ∀ field ∈ components.map Prod.fst, ∀ value ∈ (lookup field fingerprint).filter Json.truthy,
    textOf value ≠ none

/-- Two fingerprints have the same components. -/
def SameFields (f g : Fingerprint) : Prop :=
  ∀ field ∈ components.map Prod.fst, valueOf f field = valueOf g field

/-- The components that are there, with their weights. -/
def presentTexts (fingerprint : Fingerprint) : List (String × ℕ) :=
  components.filterMap fun (field, weight) =>
    (valueOf fingerprint field).map fun text => (text, weight)

/-- The weights tell which components are there. -/
def weightsOf (fingerprint : Fingerprint) : List ℕ := (presentTexts fingerprint).map Prod.snd

/-- The components that are there. -/
def textsOf (fingerprint : Fingerprint) : List String := (presentTexts fingerprint).map Prod.fst

/-- The components that are there, and how many digits of the digest of each are used. -/
def cuts (fingerprint : Fingerprint) : List (String × ℕ) :=
  (textsOf fingerprint).zip (sliceLengths (weightsOf fingerprint))

variable {f g : Fingerprint}

theorem presentComponents_eq (h : Textual f) :
    presentComponents f = (presentTexts f).map fun x => (.str x.1, x.2) := by
  rw [presentComponents, presentTexts, List.map_filterMap]
  refine List.filterMap_congr fun c hc => ?_
  have htext := h c.1 (List.mem_map_of_mem hc)
  dsimp only
  rw [valueOf]
  cases hvalue : (lookup c.1 f).filter Json.truthy with
  | none => rfl
  | some value =>
    cases value with
    | str text => rfl
    | _ => exact absurd rfl (htext _ hvalue)

theorem weightsOf_sublist (f : Fingerprint) : (weightsOf f).Sublist [5, 3, 2] := by
  cases h5 : valueOf f "smbios_uuid" <;> cases h3 : valueOf f "machine_guid" <;>
    cases h2 : valueOf f "mainboard_serial" <;> simp [weightsOf, presentTexts, components, h5, h3, h2]

theorem valueOf_eq_find (f : Fingerprint) {field : String} {weight : ℕ} (h : (field, weight) ∈ components) :
    valueOf f field = ((presentTexts f).find? fun x => decide (x.2 = weight)).map Prod.fst := by
  simp only [components, List.mem_cons, Prod.mk.injEq, List.not_mem_nil, or_false] at h
  rcases h with ⟨rfl, rfl⟩ | ⟨rfl, rfl⟩ | ⟨rfl, rfl⟩ <;>
    cases h5 : valueOf f "smbios_uuid" <;> cases h3 : valueOf f "machine_guid" <;>
      cases h2 : valueOf f "mainboard_serial" <;> simp [presentTexts, components, h5, h3, h2]

/-- **Fingerprints with the same components** have the same list of components. -/
theorem sameFields_iff : SameFields f g ↔ presentTexts f = presentTexts g := by
  constructor
  · intro h
    refine List.filterMap_congr fun c hc => ?_
    dsimp only
    rw [h c.1 (List.mem_map_of_mem hc)]
  · intro h field hfield
    obtain ⟨c, hc, rfl⟩ := List.mem_map.mp hfield
    rw [valueOf_eq_find f hc, valueOf_eq_find g hc, h]

/-! ## The pieces -/

theorem length_sliceLengths (h : presentTexts f ≠ []) :
    (sliceLengths (weightsOf f)).length = (weightsOf f).length := by
  have hall : ∀ weights ∈ [5, 3, 2].sublists, weights ≠ [] →
      (sliceLengths weights).length = weights.length := by decide
  exact hall _ (List.mem_sublists.mpr (weightsOf_sublist f)) fun hnil => h (List.map_eq_nil_iff.mp hnil)

/-- **How many digits are used**: all that one component contributes, or one less in total. -/
theorem sum_sliceLengths (h : presentTexts f ≠ []) :
    (sliceLengths (weightsOf f)).sum = if (weightsOf f).length = 1 then 32 else 31 := by
  have hall : ∀ weights ∈ [5, 3, 2].sublists, weights ≠ [] →
      (sliceLengths weights).sum = if weights.length = 1 then 32 else 31 := by decide
  exact hall _ (List.mem_sublists.mpr (weightsOf_sublist f)) fun hnil => h (List.map_eq_nil_iff.mp hnil)

theorem le_of_mem_sliceLengths {n : ℕ} (h : n ∈ sliceLengths (weightsOf f)) : n ≤ 32 := by
  have hall : ∀ weights ∈ [5, 3, 2].sublists, ∀ n ∈ sliceLengths weights, n ≤ 32 := by decide
  exact hall _ (List.mem_sublists.mpr (weightsOf_sublist f)) n h

variable (I : Identification)

/-- The text that stands for a fingerprint. -/
def hashedText (fingerprint : Fingerprint) : String :=
  if presentTexts fingerprint = [] then I.dumpsSorted fingerprint
  else join "" ((cuts fingerprint).map fun x => truncate x.2 (I.sha256 x.1))

variable {I}

/-- **The id** is the hash of the text. -/
theorem computeWeightedId_eq (h : Textual f) :
    computeWeightedId I f = some (I.sha256 (hashedText I f)) := by
  have hpresent := presentComponents_eq h
  rw [computeWeightedId, hpresent, hashedText]
  by_cases hnil : presentTexts f = []
  · rw [hnil]
    rfl
  · have htexts : (((presentTexts f).map fun x => (Json.str x.1, x.2)).mapM fun x => textOf x.1) =
        some (textsOf f) := by
      rw [List.mapM_map]
      exact List.mapM_pure
    have hweights : ((presentTexts f).map fun x => (Json.str x.1, x.2)).map Prod.snd =
        weightsOf f := by
      rw [List.map_map]
      rfl
    rw [if_neg hnil]
    dsimp only
    rw [if_neg (by simpa using hnil), hweights, htexts, cuts, List.map_zip_eq_zipWith]
    rfl

/-! ## What the pieces spell -/

variable (I)

/-- The digits that two or three components are given by, one after the other. -/
def spelled (fingerprint : Fingerprint) : List Char :=
  ((cuts fingerprint).map fun x => (I.sha256 x.1).toList.take x.2).flatten

/-- The digit at a position, where a number of digits of the digest of each text is used. -/
def digitAt : List (String × ℕ) → ℕ → Option Char
  | [], _ => none
  | (text, n) :: rest, i => if i < n then (I.sha256 text).toList[i]? else digitAt rest (i - n)

/-- **The digests of the components line up**, although they are cut at different places. -/
def LineUp (f g : Fingerprint) : Prop := ∀ i, digitAt I (cuts f) i = digitAt I (cuts g) i

/-- **What is relied on**: digests of 64 digits, objects in braces, and no collisions among the digests, cut
or not, that are used for some fingerprints. -/
structure CollisionFree (fs : List Fingerprint) : Prop where
  length : ∀ text, (I.sha256 text).toList.length = 64
  digits : ∀ text, (I.sha256 text).toList.all Char.isAlphanum = true
  object : ∀ f, (I.dumpsSorted f).toList.head? = some '\x7b'
  pieces : ∀ f ∈ fs, ∀ g ∈ fs, ∀ x ∈ cuts f, ∀ y ∈ cuts g, x.2 = y.2 →
    (I.sha256 x.1).toList.take x.2 = (I.sha256 y.1).toList.take y.2 → x.1 = y.1
  final : ∀ f ∈ fs, ∀ g ∈ fs, I.sha256 (hashedText I f) = I.sha256 (hashedText I g) →
    hashedText I f = hashedText I g

variable {I} {fs : List Fingerprint}

theorem length_textsOf (f : Fingerprint) : (textsOf f).length = (weightsOf f).length := by
  rw [textsOf, weightsOf, List.length_map, List.length_map]

theorem map_snd_cuts (h : presentTexts f ≠ []) : (cuts f).map Prod.snd = sliceLengths (weightsOf f) := by
  rw [cuts, List.map_snd_zip]
  rw [length_sliceLengths h, length_textsOf]

theorem le_of_mem_cuts {x : String × ℕ} (h : x ∈ cuts f) : x.2 ≤ 32 :=
  le_of_mem_sliceLengths (List.of_mem_zip h).2

theorem toList_hashedText (h : presentTexts f ≠ []) : (hashedText I f).toList = spelled I f := by
  have hflatten : ∀ xs : List (List Char), ([] : List Char).intercalate xs = xs.flatten := by
    intro xs
    induction xs with
    | nil => rfl
    | cons x xs ih => cases xs <;> simp_all
  rw [hashedText, if_neg h, join, String.toList_intercalate, String.toList_empty, hflatten, spelled,
    List.map_map]
  congr 1
  refine List.map_congr_left fun x _ => ?_
  simp [truncate]

/-- **How long the text is.** -/
theorem length_spelled (hI : CollisionFree I fs) (h : presentTexts f ≠ []) :
    (spelled I f).length = if (textsOf f).length = 1 then 32 else 31 := by
  have hlengths : (((cuts f).map fun x => (I.sha256 x.1).toList.take x.2).map List.length) =
      (cuts f).map Prod.snd := by
    rw [List.map_map]
    refine List.map_congr_left fun x hx => ?_
    have hle := le_of_mem_cuts hx
    simp only [Function.comp_apply, List.length_take, hI.length]
    omega
  rw [spelled, List.length_flatten, hlengths, map_snd_cuts h, sum_sliceLengths h, length_textsOf]

theorem getElem?_flatten_cuts (hI : CollisionFree I fs) (xs : List (String × ℕ))
    (hxs : ∀ x ∈ xs, x.2 ≤ 32) (i : ℕ) :
    (xs.map fun x => (I.sha256 x.1).toList.take x.2).flatten[i]? = digitAt I xs i := by
  induction xs generalizing i with
  | nil => rfl
  | cons x xs ih =>
    have hlength : ((I.sha256 x.1).toList.take x.2).length = x.2 := by
      have hle := hxs x List.mem_cons_self
      rw [List.length_take, hI.length]
      omega
    rw [List.map_cons, List.flatten_cons, digitAt]
    split
    · rename_i hlt
      rw [List.getElem?_append_left (by omega), List.getElem?_take_of_lt hlt]
    · rename_i hge
      rw [List.getElem?_append_right (by omega), hlength,
        ih fun y hy => hxs y (List.mem_cons_of_mem x hy)]

theorem lineUp_iff (hI : CollisionFree I fs) : LineUp I f g ↔ spelled I f = spelled I g := by
  rw [LineUp, List.ext_getElem?_iff]
  refine forall_congr' fun i => ?_
  rw [spelled, spelled, getElem?_flatten_cuts hI _ fun x hx => le_of_mem_cuts hx,
    getElem?_flatten_cuts hI _ fun x hx => le_of_mem_cuts hx]

/-! ## Which fingerprints are told apart -/

theorem eq_of_map_zip {β : Type} {cut : String × ℕ → β} {ns : List ℕ} {xs ys : List String}
    (hx : xs.length = ns.length) (hy : ys.length = ns.length)
    (hcut : ∀ x ∈ xs.zip ns, ∀ y ∈ ys.zip ns, x.2 = y.2 → cut x = cut y → x.1 = y.1)
    (h : (xs.zip ns).map cut = (ys.zip ns).map cut) : xs = ys := by
  induction ns generalizing xs ys with
  | nil => rw [List.eq_nil_of_length_eq_zero hx, List.eq_nil_of_length_eq_zero hy]
  | cons n ns ih =>
    obtain ⟨x, xs, rfl⟩ := List.exists_cons_of_length_eq_add_one hx
    obtain ⟨y, ys, rfl⟩ := List.exists_cons_of_length_eq_add_one hy
    rw [List.zip_cons_cons, List.zip_cons_cons, List.map_cons, List.map_cons, List.cons.injEq] at h
    have hhead : x = y := hcut (x, n) List.mem_cons_self (y, n) List.mem_cons_self rfl h.1
    have htail : xs = ys := ih (by simpa using hx) (by simpa using hy) (fun x hx y hy =>
      hcut x (List.mem_cons_of_mem _ hx) y (List.mem_cons_of_mem _ hy)) h.2
    rw [hhead, htail]

/-- **Fingerprints with the same kinds of components** are spelled the same only if they are the same. -/
theorem textsOf_eq_of_spelled (hI : CollisionFree I fs) (hf : f ∈ fs) (hg : g ∈ fs)
    (hne : presentTexts f ≠ []) (hweights : weightsOf f = weightsOf g)
    (h : spelled I f = spelled I g) : textsOf f = textsOf g := by
  have hlengths : ∀ f' : Fingerprint, presentTexts f' ≠ [] →
      (((cuts f').map fun x => (I.sha256 x.1).toList.take x.2).map List.length) =
        sliceLengths (weightsOf f') := by
    intro f' hf'
    rw [← map_snd_cuts hf', List.map_map]
    refine List.map_congr_left fun x hx => ?_
    have hle := le_of_mem_cuts hx
    simp only [Function.comp_apply, List.length_take, hI.length]
    omega
  have hne' : presentTexts g ≠ [] := by
    intro hnil
    have hlen := congrArg List.length hweights
    rw [weightsOf, weightsOf, hnil, List.length_map] at hlen
    exact hne (List.eq_nil_of_length_eq_zero hlen)
  have hpieces := List.eq_iff_flatten_eq.mpr ⟨h, by rw [hlengths f hne, hlengths g hne', hweights]⟩
  have hcuts : cuts f = (textsOf f).zip (sliceLengths (weightsOf f)) := rfl
  have hcuts' : cuts g = (textsOf g).zip (sliceLengths (weightsOf f)) := by rw [cuts, hweights]
  have hinj := hI.pieces f hf g hg
  rw [hcuts, hcuts'] at hinj hpieces
  refine eq_of_map_zip ?_ ?_ hinj hpieces
  · rw [length_sliceLengths hne, length_textsOf]
  · rw [length_sliceLengths hne, length_textsOf, hweights]

theorem sameFields_iff_texts : SameFields f g ↔ weightsOf f = weightsOf g ∧ textsOf f = textsOf g := by
  rw [sameFields_iff]
  constructor
  · intro h
    rw [weightsOf, textsOf, h]
    exact ⟨rfl, rfl⟩
  · rintro ⟨hweights, htexts⟩
    calc presentTexts f = (textsOf f).zip (weightsOf f) := List.zip_of_prod rfl rfl
      _ = (textsOf g).zip (weightsOf g) := congrArg₂ List.zip htexts hweights
      _ = presentTexts g := (List.zip_of_prod rfl rfl).symm

theorem cuts_single (h : (textsOf f).length = 1) :
    ∃ text, textsOf f = [text] ∧ cuts f = [(text, 32)] := by
  obtain ⟨text, htext⟩ := List.length_eq_one_iff.mp h
  obtain ⟨weight, hweight⟩ := List.length_eq_one_iff.mp ((length_textsOf f).symm.trans h)
  have hslice : sliceLengths [weight] = [32] := by simp [sliceLengths]
  refine ⟨text, htext, ?_⟩
  rw [cuts, htext, hweight, hslice]
  rfl

theorem spelled_single_iff (hI : CollisionFree I fs) (hf : f ∈ fs) (hg : g ∈ fs)
    (hone : (textsOf f).length = 1) (hone' : (textsOf g).length = 1) :
    spelled I f = spelled I g ↔ textsOf f = textsOf g := by
  obtain ⟨text, htext, hcuts⟩ := cuts_single hone
  obtain ⟨text', htext', hcuts'⟩ := cuts_single hone'
  have hpieces := hI.pieces f hf g hg (text, 32) (by simp [hcuts]) (text', 32) (by simp [hcuts']) rfl
  rw [spelled, spelled, hcuts, hcuts', htext, htext']
  simp only [List.map_cons, List.map_nil, List.flatten_cons, List.flatten_nil, List.append_nil,
    List.cons.injEq, and_true]
  exact ⟨hpieces, fun h => by rw [h]⟩

/-- **A fingerprint without components** is given by an object, and not by digits. -/
theorem hashedText_ne (hI : CollisionFree I fs) (hnone : presentTexts f = [])
    (hsome : presentTexts g ≠ []) : hashedText I f ≠ hashedText I g := by
  intro heq
  have hbrace : (spelled I g).head? = some '\x7b' := by
    rw [← toList_hashedText hsome, ← heq, hashedText, if_pos hnone]
    exact hI.object f
  obtain ⟨piece, hpiece, hmem⟩ := List.mem_flatten.mp (List.mem_of_mem_head? hbrace)
  obtain ⟨x, -, rfl⟩ := List.mem_map.mp hpiece
  exact absurd (List.all_eq_true.mp (hI.digits x.1) _ (List.mem_of_mem_take hmem)) (by decide)

variable (I)

/-- **What is expected of the ids of two fingerprints** with components and of one without: the ids of the
two are the same exactly when their components are, and that of the third is another. -/
def TellsApart (f g empty : Fingerprint) : Prop :=
  (computeWeightedId I f = computeWeightedId I g ↔ SameFields f g) ∧
    computeWeightedId I empty ≠ computeWeightedId I f ∧ computeWeightedId I empty ≠ computeWeightedId I g

/-- **The condition on two fingerprints**: if they have different kinds of components, then not both have
just one, with the same text, and not both have several, with digests that line up. -/
def Separable (f g : Fingerprint) : Prop :=
  weightsOf f ≠ weightsOf g →
    ((textsOf f).length = 1 → (textsOf g).length = 1 → textsOf f ≠ textsOf g) ∧
      (1 < (textsOf f).length → 1 < (textsOf g).length → ¬ LineUp I f g)

variable {I}

/-- **Which fingerprints are told apart.** -/
theorem tellsApart_iff {empty : Fingerprint} (hI : CollisionFree I [f, g, empty])
    (hf : Textual f) (hg : Textual g) (hempty : Textual empty) (hsome : presentTexts f ≠ [])
    (hsome' : presentTexts g ≠ []) (hnone : presentTexts empty = []) :
    TellsApart I f g empty ↔ Separable I f g := by
  have hid : ∀ f' ∈ [f, g, empty], ∀ g' ∈ [f, g, empty], Textual f' → Textual g' →
      (computeWeightedId I f' = computeWeightedId I g' ↔ hashedText I f' = hashedText I g') := by
    intro f' hf' g' hg' htext htext'
    rw [computeWeightedId_eq htext, computeWeightedId_eq htext', Option.some.injEq]
    exact ⟨hI.final f' hf' g' hg', congrArg I.sha256⟩
  have hspelled : hashedText I f = hashedText I g ↔ spelled I f = spelled I g := by
    rw [← toList_hashedText hsome, ← toList_hashedText hsome', String.toList_inj]
  have hapart : ∀ f' : Fingerprint, presentTexts f' ≠ [] → hashedText I empty ≠ hashedText I f' :=
    fun f' hf' => hashedText_ne hI hnone hf'
  have hothers : computeWeightedId I empty ≠ computeWeightedId I f ∧
      computeWeightedId I empty ≠ computeWeightedId I g :=
    ⟨fun h => hapart f hsome ((hid empty (by simp) f (by simp) hempty hf).mp h),
      fun h => hapart g hsome' ((hid empty (by simp) g (by simp) hempty hg).mp h)⟩
  rw [TellsApart, and_iff_left hothers, hid f (by simp) g (by simp) hf hg, hspelled, sameFields_iff_texts,
    Separable]
  by_cases hweights : weightsOf f = weightsOf g
  · refine iff_of_true ⟨fun h => ⟨hweights, ?_⟩, fun h => ?_⟩ fun hne => absurd hweights hne
    · exact textsOf_eq_of_spelled hI (by simp) (by simp) hsome hweights h
    · rw [spelled, spelled, cuts, cuts, h.1, h.2]
  have hlength := length_spelled hI hsome
  have hlength' := length_spelled hI hsome'
  have hpos : 0 < (textsOf f).length := by
    rw [textsOf, List.length_map]
    exact List.length_pos_iff.mpr hsome
  have hpos' : 0 < (textsOf g).length := by
    rw [textsOf, List.length_map]
    exact List.length_pos_iff.mpr hsome'
  have hdifferent : ¬ (weightsOf f = weightsOf g ∧ textsOf f = textsOf g) := fun h => hweights h.1
  rw [iff_false_right hdifferent, forall_prop_of_true hweights]
  by_cases hone : (textsOf f).length = 1
  · by_cases hone' : (textsOf g).length = 1
    · -- One component each: the same text has the same digest.
      have hsingle := spelled_single_iff hI (f := f) (g := g) (by simp) (by simp) hone hone'
      constructor
      · intro h
        exact ⟨fun _ _ htexts => h (hsingle.mpr htexts), fun hlt => absurd hone (by omega)⟩
      · rintro ⟨h, -⟩ heq
        exact h hone hone' (hsingle.mp heq)
    · refine iff_of_true (fun heq => ?_) ⟨fun _ h => absurd h hone', fun hlt => absurd hone (by omega)⟩
      rw [← heq, hlength, if_pos hone, if_neg hone'] at hlength'
      omega
  · by_cases hone' : (textsOf g).length = 1
    · refine iff_of_true (fun heq => ?_) ⟨fun h => absurd h hone, fun _ hlt => absurd hone' (by omega)⟩
      rw [← heq, hlength, if_neg hone, if_pos hone'] at hlength'
      omega
    · -- Several components each: as many digits, cut at different places.
      rw [← lineUp_iff hI]
      exact ⟨fun h => ⟨fun h1 => absurd h1 hone, fun _ _ => h⟩,
        fun h => h.2 (by omega) (by omega)⟩

/-! A machine that reports its id under two names. -/

/-- The id that a machine reports. -/
def reportedUuid : String := "4C4C4544-0051-3510-8052-B4C04F4E3332"

/-- SHA-256 of the texts that are hashed for it. -/
def digestOf (text : String) : String :=
  if text = reportedUuid then "afb9b541e8ed13f0ef9f1791d4a3edd1b5e524030417a2f9654918745886fc72"
  else if text = "afb9b541e8ed13f0ef9f1791d4a3edd1" then
    "da875ec4f7a19fc56f4fec394f11ed54a5b8a3cf18c32ed23dc0640313e73c1d"
  else if text = "\x7b\x7d" then "44136fa355b3678a1146ad16f7e8649e94fb4fc21fe77e8310c060f61caaff8a"
  else "e3b0c44298fc1c149afbf4c8996fb92427ae41e4649b934ca495991b7852b855"

/-- Fingerprints are hashed so. -/
def sampleIdentification : Identification where
  sha256 := digestOf
  dumpsSorted := fun fingerprint => String.ofList (dumps ⟨fun _ => "", fun _ => ""⟩ (.obj fingerprint))
  isSameMachine := fun _ _ => some false
  attemptDefinedAt := 0

/-- The id as it is reported by the firmware. -/
def byFirmware : Fingerprint := [("smbios_uuid", .str reportedUuid)]

/-- The same id, reported by the operating system. -/
def bySystem : Fingerprint := [("machine_guid", .str reportedUuid)]

theorem collisionFree_reported : CollisionFree sampleIdentification [byFirmware, bySystem, []] where
  length := by
    intro text
    unfold sampleIdentification digestOf
    dsimp only
    split_ifs <;> decide +kernel
  digits := by
    intro text
    unfold sampleIdentification digestOf
    dsimp only
    split_ifs <;> decide +kernel
  object := by
    intro f
    change (String.ofList ("\x7b".toList ++ _ ++ _)).toList.head? = _
    rw [String.toList_ofList, List.append_assoc]
    rfl
  pieces := by decide +kernel
  final := by decide +kernel

theorem textual_byFirmware : Textual byFirmware := by
  unfold Textual
  decide +kernel

theorem textual_bySystem : Textual bySystem := by
  unfold Textual
  decide +kernel

theorem textual_nil : Textual [] := by
  unfold Textual
  decide +kernel

theorem tellsApart_iff_reported : TellsApart sampleIdentification byFirmware bySystem [] ↔
      Separable sampleIdentification byFirmware bySystem :=
  tellsApart_iff collisionFree_reported textual_byFirmware textual_bySystem textual_nil
    (by decide) (by decide) (by decide)

/-- **The name of a component does not count**: the same text has the same id under each of the names. -/
theorem reported_not_told_apart :
    ¬ ∀ (I : Identification) (f g empty : Fingerprint), CollisionFree I [f, g, empty] →
      Textual f → Textual g → Textual empty → presentTexts f ≠ [] → presentTexts g ≠ [] →
      presentTexts empty = [] → TellsApart I f g empty := by
  intro h
  have hsame := (h sampleIdentification byFirmware bySystem [] collisionFree_reported textual_byFirmware
    textual_bySystem textual_nil (by decide) (by decide) (by decide)).1.mp (by decide +kernel)
  exact absurd (hsame "smbios_uuid" (by decide)) (by decide +kernel)

end AssetInventory.Fleet
