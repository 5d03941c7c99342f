import Mathlib.Data.Rat.Defs
import Mathlib.Algebra.Order.Ring.Rat
import Mathlib.Data.List.Nodup

/-!
# JSON values as Python sees them

The values a JSON column or a JSON body decodes to, with the Python operations that code applies to
them without looking at their type first: truth value, `dict.get`, comparison with `<`.  A comparison
of values of unordered types raises `TypeError`, which is `none` here.

Numbers are rational: JSON integers and decimals are compared by value, as Python compares `int` and
`float`.
-/

namespace PyJson

/-- A decoded JSON value.  The entries of an object are in insertion order. -/
inductive Json where
  | null
  | bool (b : Bool)
  | num (q : ℚ)
  | str (s : String)
  | arr (xs : List Json)
  | obj (entries : List (String × Json))
  deriving Repr, Inhabited

/-! ## Equality is decidable -/

mutual

/-- Structural equality test. -/
def Json.same : Json → Json → Bool
  | .null, .null => true
  | .bool a, .bool b => a == b
  | .num a, .num b => decide (a = b)
  | .str a, .str b => decide (a = b)
  | .arr xs, .arr ys => sameList xs ys
  | .obj xs, .obj ys => sameEntries xs ys
  | _, _ => false

/-- Structural equality test on arrays. -/
def sameList : List Json → List Json → Bool
  | [], [] => true
  | x :: xs, y :: ys => x.same y && sameList xs ys
  | _, _ => false

/-- Structural equality test on objects. -/
def sameEntries : List (String × Json) → List (String × Json) → Bool
  | [], [] => true
  | (k, x) :: xs, (l, y) :: ys => decide (k = l) && x.same y && sameEntries xs ys
  | _, _ => false

end

mutual

theorem Json.eq_of_same : ∀ {x y : Json}, x.same y = true → x = y
  | .null, y, h => by cases y <;> simp_all [Json.same]
  | .bool a, y, h => by cases y <;> simp_all [Json.same]
  | .num a, y, h => by cases y <;> simp_all [Json.same]
  | .str a, y, h => by cases y <;> simp_all [Json.same]
  | .arr xs, y, h => by
    cases y with
    | arr ys =>
      rw [Json.same] at h
      rw [eq_of_sameList h]
    | _ => simp [Json.same] at h
  | .obj xs, y, h => by
    cases y with
    | obj ys =>
      rw [Json.same] at h
      rw [eq_of_sameEntries h]
    | _ => simp [Json.same] at h

theorem eq_of_sameList : ∀ {xs ys : List Json}, sameList xs ys = true → xs = ys
  | [], ys, h => by cases ys <;> simp_all [sameList]
  | x :: xs, ys, h => by
    cases ys with
    | nil => simp [sameList] at h
    | cons y ys =>
      rw [sameList, Bool.and_eq_true] at h
      rw [Json.eq_of_same h.1, eq_of_sameList h.2]

theorem eq_of_sameEntries : ∀ {xs ys : List (String × Json)}, sameEntries xs ys = true → xs = ys
  | [], ys, h => by cases ys <;> simp_all [sameEntries]
  | (k, x) :: xs, ys, h => by
    cases ys with
    | nil => simp [sameEntries] at h
    | cons p ys =>
      obtain ⟨l, y⟩ := p
      rw [sameEntries, Bool.and_eq_true, Bool.and_eq_true, decide_eq_true_eq] at h
      rw [h.1.1, Json.eq_of_same h.1.2, eq_of_sameEntries h.2]

end

mutual

theorem Json.same_refl : ∀ x : Json, x.same x = true
  | .null => by simp [Json.same]
  | .bool _ => by simp [Json.same]
  | .num _ => by simp [Json.same]
  | .str _ => by simp [Json.same]
  | .arr xs => by rw [Json.same]; exact sameList_refl xs
  | .obj xs => by rw [Json.same]; exact sameEntries_refl xs

theorem sameList_refl : ∀ xs : List Json, sameList xs xs = true
  | [] => by simp [sameList]
  | x :: xs => by rw [sameList, Json.same_refl x, sameList_refl xs]; rfl

theorem sameEntries_refl : ∀ xs : List (String × Json), sameEntries xs xs = true
  | [] => by simp [sameEntries]
  | (k, x) :: xs => by
    rw [sameEntries, Json.same_refl x, sameEntries_refl xs]
    simp

end

instance : DecidableEq Json := fun x y =>
  decidable_of_iff (x.same y = true) ⟨Json.eq_of_same, fun h => h ▸ Json.same_refl x⟩

/-! ## Python operations -/

/-- `bool(x)`. -/
def Json.truthy : Json → Bool
  | .null => false
  | .bool b => b
  | .num q => decide (q ≠ 0)
  | .str s => decide (s ≠ "")
  | .arr xs => !xs.isEmpty
  | .obj kvs => !kvs.isEmpty

/-- `x or y`. -/
def Json.orElse (x y : Json) : Json := if x.truthy then x else y

/-- `isinstance(x, dict)`, with the entries. -/
def Json.entries? : Json → Option (List (String × Json))
  | .obj kvs => some kvs
  | _ => none

/-- The value under a key of an object; a repeated key keeps its last value, as a decoder does. -/
def lookup (key : String) (kvs : List (String × Json)) : Option Json :=
  (kvs.filter fun p => decide (p.1 = key)).getLast?.map Prod.snd

/-- `d.get(key, default)`. -/
def getD (kvs : List (String × Json)) (key : String) (default : Json) : Json :=
  (lookup key kvs).getD default

/-- The numeric value of a `bool` or a number. -/
def Json.number? : Json → Option ℚ
  | .bool b => some (if b then 1 else 0)
  | .num q => some q
  | _ => none

/-- `x < y` where `x` is a number: `none` is `TypeError`. -/
def ltNum (x : ℚ) (y : Json) : Option Bool := y.number?.map fun q => decide (x < q)

/-- `x == y` where `x` is a number. -/
def eqNum (x : ℚ) (y : Json) : Bool := y.number? == some x

/-- A value that can be a key of a `dict`. -/
def Json.hashable : Json → Bool
  | .arr _ => false
  | .obj _ => false
  | _ => true

/-- `type(x).__name__`.  A number counts as an `int` when it is integral. -/
def Json.typeName : Json → String
  | .null => "NoneType"
  | .bool _ => "bool"
  | .num q => if q.den = 1 then "int" else "float"
  | .str _ => "str"
  | .arr _ => "list"
  | .obj _ => "dict"

@[simp] theorem truthy_null : Json.null.truthy = false := rfl

@[simp] theorem truthy_num (q : ℚ) : (Json.num q).truthy = decide (q ≠ 0) := rfl

@[simp] theorem number?_num (q : ℚ) : (Json.num q).number? = some q := rfl

@[simp] theorem ltNum_num (x q : ℚ) : ltNum x (.num q) = some (decide (x < q)) := rfl

@[simp] theorem eqNum_num (x q : ℚ) : eqNum x (.num q) = decide (q = x) := by
  by_cases h : q = x <;> simp [eqNum, h]

theorem orElse_of_truthy {x : Json} (h : x.truthy = true) (y : Json) : x.orElse y = x := if_pos h

theorem orElse_of_not_truthy {x : Json} (h : x.truthy = false) (y : Json) : x.orElse y = y :=
  if_neg (by rw [h]; exact Bool.false_ne_true)

/-! ## Keys -/

@[simp] theorem lookup_nil (key : String) : lookup key [] = none := rfl

theorem lookup_append (key : String) (xs ys : List (String × Json)) :
    lookup key (xs ++ ys) = (lookup key ys).or (lookup key xs) := by
  rw [lookup, List.filter_append, List.getLast?_append, lookup, lookup]
  cases (ys.filter fun p => decide (p.1 = key)).getLast? <;> rfl

theorem lookup_eq_none {key : String} {xs : List (String × Json)} (h : ∀ p ∈ xs, p.1 ≠ key) :
    lookup key xs = none := by
  rw [lookup, List.filter_eq_nil_iff.mpr fun p hp => by simpa using h p hp]
  rfl

theorem lookup_cons (key : String) (p : String × Json) (kvs : List (String × Json)) :
    lookup key (p :: kvs) = (lookup key kvs).or (if p.1 = key then some p.2 else none) := by
  rw [← List.singleton_append, lookup_append]
  congr 1
  by_cases hkey : p.1 = key <;> simp [lookup, hkey]

variable {kvs : List (String × Json)}

theorem mem_of_lookup {key : String} {x : Json} (h : lookup key kvs = some x) : (key, x) ∈ kvs := by
  obtain ⟨p, hp, rfl⟩ := Option.map_eq_some_iff.mp h
  obtain ⟨hmem, hkey⟩ := List.mem_filter.mp (List.mem_of_getLast? hp)
  rw [← of_decide_eq_true hkey]
  exact hmem

theorem not_mem_of_lookup_eq_none {key : String} {x : Json}
    (h : lookup key kvs = none) : (key, x) ∉ kvs := by
  have hnil : kvs.filter (fun p => decide (p.1 = key)) = [] := by
    simpa [lookup] using h
  exact fun hmem => absurd (decide_eq_true rfl) (List.filter_eq_nil_iff.mp hnil _ hmem)

theorem lookup_of_mem {key : String} {x : Json}
    (hkeys : (kvs.map Prod.fst).Nodup) (h : (key, x) ∈ kvs) : lookup key kvs = some x := by
  cases hlookup : lookup key kvs with
  | none => exact absurd h (not_mem_of_lookup_eq_none hlookup)
  | some y =>
    have hsame := List.inj_on_of_nodup_map hkeys h (mem_of_lookup hlookup) rfl
    rw [(Prod.mk.inj hsame).2]

end PyJson
