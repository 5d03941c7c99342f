import AssetInventory.Lib.PyLoads

/-!
# Decoded values in Python code

What code does to the values of a decoded document without looking at their types first.  `none` is an
`AttributeError` or a `TypeError` where an operation can fail.

* `Floats`: what the operations need of floats, and the texts of values that `str` composes.
* `Value.truthy`, `Value.asDict`, `Value.text`: `bool(v)`, the dictionary of `v.get`, `str(v)`.
* `Value.items`, `Value.hashable`: what `for x in v` goes through, and the values that are members of a set.
* `encodable`, `strip`, `startsWith`, `afterSpace`: texts.
-/

namespace PyLoads

variable {F : Type}

/-- What is needed of floats. -/
structure Floats (F : Type) where
  isZero : F → Bool
  /-- `str(v)` of a float, a list or a dictionary. -/
  text : Value F → Str

/-- An interpreter for documents without floats. -/
def noFloat : Interpreter Unit := ⟨4300, 1000, fun _ => (), (), (), ()⟩

/-- Its values, of which none is a float. -/
def noFloats : Floats Unit := ⟨fun _ => false, fun _ => []⟩

/-- `bool(v)`. -/
def Value.truthy (fl : Floats F) : Value F → Bool
  | .none => false
  | .bool b => b
  | .int n => decide (n ≠ 0)
  | .float x => !fl.isZero x
  | .str s => !s.isEmpty
  | .list xs => !xs.isEmpty
  | .dict entries => !entries.isEmpty

/-- The dictionary of which `v.get` is a method. -/
def Value.asDict : Value F → Option (List (Str × Value F))
  | .dict entries => some entries
  | _ => Option.none

/-- `str(v)`. -/
def Value.text (fl : Floats F) : Value F → Str
  | .none => codes "None"
  | .bool true => codes "True"
  | .bool false => codes "False"
  | .int n => codes (toString n)
  | .str s => s
  | v => fl.text v

/-- `d.get(key, default)`. -/
def getD (d : List (Str × Value F)) (key : String) (default : Value F) : Value F :=
  (PyDict.get? d (codes key)).getD default

/-- The values that `for x in v` goes through: the keys of a dictionary, the characters of a text. -/
def Value.items : Value F → Option (List (Value F))
  | .list xs => some xs
  | .str s => some (s.map fun n => .str [n])
  | .dict entries => some (entries.map fun e => .str e.1)
  | _ => Option.none

/-- A value that can be looked up in a set. -/
def Value.hashable : Value F → Bool
  | .list _ => false
  | .dict _ => false
  | _ => true

/-! ## Texts -/

/-- A code point of white space. -/
def isSpaceCode (n : ℕ) : Bool :=
  decide (9 ≤ n ∧ n ≤ 13) || decide (28 ≤ n ∧ n ≤ 32) || decide (0x2000 ≤ n ∧ n ≤ 0x200a) ||
    decide (n ∈ [0x85, 0xa0, 0x1680, 0x2028, 0x2029, 0x202f, 0x205f, 0x3000])

/-- A text that can be encoded: no surrogate stands on its own in it. -/
def encodable (s : Str) : Bool := s.all fun n => !decide (0xd800 ≤ n ∧ n ≤ 0xdfff)

/-- `s.strip()`. -/
def strip (s : Str) : Str := ((s.dropWhile isSpaceCode).reverse.dropWhile isSpaceCode).reverse

/-- `s.startswith(prefix)`. -/
def startsWith (front : String) (s : Str) : Bool := (codes front).isPrefixOf s

/-- `s.split(" ", 1)[1]`, if there is a space in the text. -/
def afterSpace (s : Str) : Str := (s.dropWhile fun n => decide (n ≠ 32)).tail

theorem codes_injective : Function.Injective codes := fun _ _ h =>
  String.toList_injective (List.map_injective_iff.mpr (fun _ _ hc => Char.toNat_inj.mp hc) h)

theorem encodable_codes (s : String) : encodable (codes s) = true := by
  unfold encodable codes
  rw [List.all_map, List.all_eq_true]
  intro c _
  rw [Function.comp_apply, Bool.not_eq_true', decide_eq_false_iff_not]
  have hvalid := c.valid
  change c.toNat < 0xd800 ∨ 0xdfff < c.toNat ∧ c.toNat < 0x110000 at hvalid
  omega

theorem encodable_append {s t : Str} : encodable (s ++ t) =
    (encodable s && encodable t) := List.all_append

end PyLoads
