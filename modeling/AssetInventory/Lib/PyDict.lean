import Mathlib.Algebra.GroupWithZero.Nat
import Mathlib.Data.List.MinMax
import Mathlib.Data.List.Nodup
import Mathlib.Tactic.SplitIfs

/-!
# Dictionaries in insertion order

A dictionary is the list of its entries; a key that is assigned again keeps its place.

* `get?`, `setItem`: `d.get(key)` and `d[key] = value`.
* `Extends`: a dictionary that has the entries of another one.
* `without`: what `d.pop(key)` leaves.
* `update`: `d.update(entries)`.
* `keepNewest`: a loop that keeps one of the values that come under a key.
* `get?_keepNewest`: what is kept is the first of the greatest.
-/

namespace PyDict

variable {κ ν ρ : Type*} [DecidableEq κ]

/-- `d.get(key)`. -/
def get? (d : List (κ × ν)) (key : κ) : Option ν :=
  (d.find? fun entry => decide (entry.1 = key)).map Prod.snd

/-- `d[key] = value`. -/
def setItem (key : κ) (value : ν) : List (κ × ν) → List (κ × ν)
  | [] => [(key, value)]
  | entry :: d => if entry.1 = key then (key, value) :: d else entry :: setItem key value d

theorem get?_cons (entry : κ × ν) (d : List (κ × ν)) (key : κ) :
    get? (entry :: d) key = if entry.1 = key then some entry.2 else get? d key := by
  unfold get?
  split_ifs with h
  · rw [List.find?_cons_of_pos (by simpa using h), Option.map_some]
  · rw [List.find?_cons_of_neg (by simpa using h)]

theorem get?_setItem (key : κ) (value : ν) (d : List (κ × ν)) (k : κ) :
    get? (setItem key value d) k = if key = k then some value else get? d k := by
  induction d with
  | nil => rw [setItem, get?_cons]
  | cons entry d ih =>
    rw [setItem]
    by_cases hkey : entry.1 = key
    · rw [if_pos hkey, get?_cons, get?_cons, hkey]
      split_ifs <;> rfl
    · rw [if_neg hkey, get?_cons, get?_cons, ih]
      split_ifs with hentry hk
      · exact absurd (hentry.trans hk.symm) hkey
      all_goals rfl

theorem keys_setItem (key : κ) (value : ν) (d : List (κ × ν)) : (setItem key value d).map Prod.fst =
      if key ∈ d.map Prod.fst then d.map Prod.fst else d.map Prod.fst ++ [key] := by
  induction d with
  | nil => rfl
  | cons entry d ih =>
    rw [setItem]
    by_cases hkey : entry.1 = key
    · rw [if_pos hkey, List.map_cons, List.map_cons, if_pos (by rw [← hkey]; exact List.mem_cons_self), hkey]
    · rw [if_neg hkey, List.map_cons, List.map_cons, ih]
      by_cases hmem : key ∈ d.map Prod.fst
      · rw [if_pos hmem, if_pos (List.mem_cons_of_mem _ hmem)]
      · rw [if_neg hmem, if_neg, List.cons_append]
        exact fun h => (List.mem_cons.mp h).elim (fun h => hkey h.symm) hmem

variable {d d' entries : List (κ × ν)}

theorem nodup_setItem (h : (d.map Prod.fst).Nodup) (key : κ) (value : ν) :
    ((setItem key value d).map Prod.fst).Nodup := by
  rw [keys_setItem]
  split_ifs with hmem
  · exact h
  · exact h.append (List.nodup_singleton _) (List.disjoint_singleton.mpr hmem)

variable {key : κ} {value : ν}

theorem get?_eq_some_iff (h : (d.map Prod.fst).Nodup) :
    get? d key = some value ↔ (key, value) ∈ d := by
  induction d with
  | nil => simp [get?]
  | cons entry d ih =>
    rw [List.map_cons, List.nodup_cons] at h
    rw [get?_cons, List.mem_cons]
    split_ifs with hkey
    · have hnot : (key, value) ∉ d := fun hmem => h.1 (hkey ▸ List.mem_map_of_mem hmem)
      rw [or_iff_left hnot, Option.some.injEq, Prod.ext_iff]
      exact ⟨fun hvalue => ⟨hkey.symm, hvalue.symm⟩, fun hentry => hentry.2.symm⟩
    · rw [ih h.2, or_iff_right]
      exact fun hentry => hkey (congrArg Prod.fst hentry).symm

theorem get?_eq_none_iff : get? d key = none ↔ key ∉ d.map Prod.fst := by
  rw [get?, Option.map_eq_none_iff, List.find?_eq_none, List.mem_map]
  exact ⟨fun h ⟨entry, hentry, hkey⟩ => h entry hentry (decide_eq_true hkey),
    fun h entry hentry hkey => h ⟨entry, hentry, of_decide_eq_true hkey⟩⟩

theorem mem_keys_iff : key ∈ d.map Prod.fst ↔ ∃ value, get? d key = some value := by
  rw [← Option.isSome_iff_exists, Option.isSome_iff_ne_none, ne_eq, get?_eq_none_iff, not_not]

theorem mem_of_get? (h : get? d key = some value) : (key, value) ∈ d := by
  obtain ⟨entry, hfind, rfl⟩ := Option.map_eq_some_iff.mp h
  have hkey := List.find?_some hfind
  rw [decide_eq_true_eq] at hkey
  exact hkey ▸ List.mem_of_find?_eq_some hfind

theorem setItem_of_get? (h : get? d key = some value) : setItem key value d = d := by
  induction d with
  | nil => cases h
  | cons entry d ih =>
    rw [get?_cons] at h
    rw [setItem]
    split_ifs at h ⊢ with hkey
    · rw [← hkey, ← Option.some.inj h]
    · rw [ih h]

theorem mem_of_mem_setItem {entry : κ × ν}
    (h : entry ∈ setItem key value d) : entry = (key, value) ∨ entry ∈ d := by
  induction d with
  | nil => exact .inl (List.mem_singleton.mp h)
  | cons e d ih =>
    rw [setItem] at h
    split_ifs at h
    · exact (List.mem_cons.mp h).imp_right (List.mem_cons_of_mem e)
    · rcases List.mem_cons.mp h with rfl | h
      · exact .inr List.mem_cons_self
      · exact (ih h).imp_right (List.mem_cons_of_mem e)

theorem setItem_eq_append (h : get? d key = none) (value : ν) : setItem key value d = d ++ [(key, value)] := by
  induction d with
  | nil => rfl
  | cons entry d ih =>
    rw [get?_cons] at h
    rw [setItem]
    split_ifs at h ⊢
    rw [ih h, List.cons_append]

/-- A sum over the values of a dictionary, after one of them has been replaced. -/
theorem sum_setItem (g : ν → ℕ) (new : ν) (h : get? d key = some value) :
    ((setItem key new d).map fun entry => g entry.2).sum + g value =
      (d.map fun entry => g entry.2).sum + g new := by
  induction d with
  | nil => cases h
  | cons entry d ih =>
    rw [get?_cons] at h
    rw [setItem]
    split_ifs at h ⊢
    · cases h
      simp only [List.map_cons, List.sum_cons]
      omega
    · simp only [List.map_cons, List.sum_cons]
      have htail := ih h
      omega

/-- Every entry of the one dictionary is one of the other. -/
def Extends (d d' : List (κ × ν)) : Prop := ∀ key value, get? d key = some value → get? d' key = some value

theorem Extends.refl (d : List (κ × ν)) : Extends d d := fun _ _ h => h

theorem Extends.trans {d'' : List (κ × ν)} (h : Extends d d') (h' : Extends d' d'') : Extends d d'' :=
  fun key value hvalue => h' key value (h key value hvalue)

theorem Extends.mem_keys (h : Extends d d') (hkey : key ∈ d.map Prod.fst) :
    key ∈ d'.map Prod.fst := by
  obtain ⟨value, hvalue⟩ := mem_keys_iff.mp hkey
  exact mem_keys_iff.mpr ⟨value, h key value hvalue⟩

theorem extends_setItem (h : key ∉ d.map Prod.fst) (value : ν) :
    Extends d (setItem key value d) := by
  intro k v hk
  rw [get?_setItem, if_neg, hk]
  rintro rfl
  exact h (mem_keys_iff.mpr ⟨v, hk⟩)

theorem mem_keys_setItem {k : κ} :
    k ∈ (setItem key value d).map Prod.fst ↔ k = key ∨ k ∈ d.map Prod.fst := by
  rw [keys_setItem]
  split_ifs with hmem
  · exact ⟨.inr, fun h => h.elim (fun hk => hk ▸ hmem) id⟩
  · rw [List.mem_append, List.mem_singleton, or_comm]

theorem get?_append (d d' : List (κ × ν)) (key : κ) : get? (d ++ d') key = (get? d key).or
    (get? d' key) := by
  unfold get?
  rw [List.find?_append]
  cases d.find? fun entry => decide (entry.1 = key) <;> rfl

theorem or_get?_eq_get? {other : Option ν} (h : key ∈ d.map Prod.fst) :
    (get? d key).or other = get? d key := by
  obtain ⟨value, hvalue⟩ := mem_keys_iff.mp h
  rw [hvalue, Option.some_or]

theorem or_get?_eq_other {other : Option ν} (h : key ∉ d.map Prod.fst) :
    (get? d key).or other = other := by
  rw [get?_eq_none_iff.mpr h, Option.none_or]

/-- What `d.pop(key, None)` leaves. -/
def without (key : κ) (d : List (κ × ν)) : List (κ × ν) := d.filter fun entry => decide (entry.1 ≠ key)

theorem get?_without (key : κ) (d : List (κ × ν)) (k : κ) :
    get? (without key d) k = if k = key then none else get? d k := by
  induction d with
  | nil => split_ifs <;> rfl
  | cons entry d ih =>
    rw [without]
    by_cases hkey : entry.1 = key
    · rw [List.filter_cons_of_neg (by simpa using hkey), get?_cons]
      refine ih.trans ?_
      split_ifs with hk hentry
      · rfl
      · exact absurd (hentry.symm.trans hkey) hk
      · rfl
    · rw [List.filter_cons_of_pos (by simpa using hkey), get?_cons, get?_cons]
      change (if entry.1 = k then some entry.2 else get? (without key d) k) = _
      rw [ih]
      split_ifs with hentry hk
      · exact absurd (hentry.trans hk) hkey
      all_goals rfl

/-! ## Many assignments -/

/-- `d.update(entries)`. -/
def update (entries d : List (κ × ν)) : List (κ × ν) := entries.foldl (fun d entry => setItem entry.1 entry.2 d) d

theorem update_concat (entries : List (κ × ν)) (entry : κ × ν) (d : List (κ × ν)) :
    update (entries ++ [entry]) d = setItem entry.1 entry.2 (update entries d) := by
  rw [update, List.foldl_append]
  rfl

theorem mem_keys_update :
    key ∈ (update entries d).map Prod.fst ↔ key ∈ entries.map Prod.fst ∨ key ∈ d.map Prod.fst := by
  induction entries using List.reverseRecOn with
  | nil => exact (or_iff_right List.not_mem_nil).symm
  | append_singleton entries entry ih =>
    rw [update_concat, mem_keys_setItem, ih, List.map_append, List.mem_append, List.map_singleton,
      List.mem_singleton, or_assoc, or_left_comm]

theorem mem_of_mem_update {entry : κ × ν} (h : entry ∈ update entries d) :
    entry ∈ entries ∨ entry ∈ d := by
  induction entries using List.reverseRecOn with
  | nil => exact .inr h
  | append_singleton entries e ih =>
    rw [update_concat] at h
    rcases mem_of_mem_setItem h with rfl | h
    · exact .inl (List.mem_append_right _ (List.mem_singleton_self _))
    · exact (ih h).imp_left (List.mem_append_left _)

theorem extends_update (h : ∀ entry ∈ entries, entry.1 ∉ d.map Prod.fst) :
    Extends d (update entries d) := by
  induction entries using List.reverseRecOn with
  | nil => exact .refl d
  | append_singleton entries e ih =>
    intro key value hvalue
    rw [update_concat, get?_setItem, if_neg]
    · exact ih (fun entry hentry => h entry (List.mem_append_left _ hentry)) key value hvalue
    · rintro rfl
      exact h e (List.mem_append_right _ (List.mem_singleton_self _)) (mem_keys_iff.mpr ⟨value, hvalue⟩)

/-! ## One value for each key -/

section Newest

variable [LinearOrder ρ] (rank : ν → ρ)

/-- The values that come under a key. -/
def valuesOf (entries : List (κ × ν)) (key : κ) : List ν :=
  entries.filterMap fun entry => if entry.1 = key then some entry.2 else none

theorem mem_valuesOf : value ∈ valuesOf entries key ↔ (key, value) ∈ entries := by
  unfold valuesOf
  rw [List.mem_filterMap]
  constructor
  · rintro ⟨entry, hentry, h⟩
    split_ifs at h with hkey
    · cases h
      exact hkey ▸ hentry
  · exact fun h => ⟨(key, value), h, if_pos rfl⟩

theorem valuesOf_concat (entries : List (κ × ν)) (entry : κ × ν) (key : κ) :
    valuesOf (entries ++ [entry]) key = valuesOf entries key ++ if entry.1 = key then [entry.2] else
    [] := by
  unfold valuesOf
  rw [List.filterMap_append]
  split_ifs with hkey <;> simp [hkey]

/-- One round of the loop: a greater value takes the place of the one that is there. -/
def keepStep (d : List (κ × ν)) (entry : κ × ν) : List (κ × ν) :=
  match get? d entry.1 with
  | none => setItem entry.1 entry.2 d
  | some cur => if rank cur < rank entry.2 then setItem entry.1 entry.2 d else d

/-- The dictionary after the loop. -/
def keepNewest (entries : List (κ × ν)) : List (κ × ν) := entries.foldl (keepStep rank) []

theorem keepNewest_concat (entries : List (κ × ν)) (entry : κ × ν) :
    keepNewest rank (entries ++ [entry]) = keepStep rank (keepNewest rank entries) entry := by
  rw [keepNewest, List.foldl_append]
  rfl

/-- **What is kept under a key** is the first of its greatest values. -/
theorem get?_keepNewest (entries : List (κ × ν)) (key : κ) :
    get? (keepNewest rank entries) key = (valuesOf entries key).argmax rank := by
  induction entries using List.reverseRecOn with
  | nil => rfl
  | append_singleton entries entry ih =>
    rw [keepNewest_concat, keepStep, valuesOf_concat]
    by_cases hkey : entry.1 = key
    · rw [if_pos hkey, List.argmax_concat, ← ih, hkey]
      cases hget : get? (keepNewest rank entries) key with
      | none => exact (get?_setItem _ _ _ _).trans (if_pos rfl)
      | some cur =>
        dsimp only
        split_ifs
        · exact (get?_setItem _ _ _ _).trans (if_pos rfl)
        · exact hget
    · rw [if_neg hkey, List.append_nil, ← ih]
      cases get? (keepNewest rank entries) entry.1 with
      | none => exact (get?_setItem _ _ _ _).trans (if_neg hkey)
      | some cur =>
        dsimp only
        split_ifs
        · exact (get?_setItem _ _ _ _).trans (if_neg hkey)
        · rfl

theorem nodup_keepNewest (entries : List (κ × ν)) :
    ((keepNewest rank entries).map Prod.fst).Nodup := by
  induction entries using List.reverseRecOn with
  | nil => exact List.nodup_nil
  | append_singleton entries entry ih =>
    rw [keepNewest_concat, keepStep]
    split
    · exact nodup_setItem ih _ _
    · split_ifs
      · exact nodup_setItem ih _ _
      · exact ih

theorem mem_keepNewest :
    (key, value) ∈ keepNewest rank entries ↔ (valuesOf entries key).argmax rank = some value := by
  rw [← get?_eq_some_iff (nodup_keepNewest rank entries), get?_keepNewest]

theorem mem_of_mem_keepNewest {entry : κ × ν} (h : entry ∈ keepNewest rank entries) :
    entry ∈ entries :=
  mem_valuesOf.mp (List.argmax_mem (Option.mem_def.mpr ((mem_keepNewest rank).mp h)))

end Newest

end PyDict
