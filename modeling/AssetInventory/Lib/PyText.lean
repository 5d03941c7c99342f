import AssetInventory.Lib.PyJson
import AssetInventory.Lib.PyTime
import Mathlib.Data.List.Infix

/-!
# Texts of values, as Python writes them

* `startsWith`, `removePrefix`, `contains`, `join`, `takeTo`: `str.startswith`, `str.removeprefix`,
  `in`, `str.join` and the slice `[:n]`, whose bound may be negative.
* `given`: a text that counts as true.
* `replace`, `strip`, `split`: `str.replace`, `str.strip` and `str.split`.
* `intOf`: `int(s)`.
* `Json.str`: `str(x)` of a decoded JSON value; `dumps`: `json.dumps(x, ensure_ascii=False)`.
* `Json.len`: `len(x)`; `Json.slice`: `x[:n]`.
* `setKey`: `d[key] = value`.
* `isoZ`: an instant in ISO format with the suffix `Z`.
* `dumpsStr_append_inj`: a text can be read off its JSON string.
* `zeroPad_inj`: a number can be read off its padded decimal; `toString_prefix_inj`: off its decimal.
* `intOf_zeroPad`: `int` reads a padded decimal.
* `linesText`: lines with their ends; `prefix_strip`: what `strip` keeps.

The shortest decimal of a `float` and the quoted form of a `str` depend on tables that are not
modelled; they are the two fields of `Reprs`.
-/

namespace PyJson

open PyTime

/-! ## Strings -/

/-- `s.startswith(p)`. -/
def startsWith (p s : String) : Bool := p.toList.isPrefixOf s.toList

/-- `s[len(p):]`. -/
def dropPrefix (p s : String) : String := String.ofList (s.toList.drop p.length)

/-- `s.removeprefix(p)`. -/
def removePrefix (p s : String) : String := if startsWith p s then dropPrefix p s else s

/-- `p in s`, for texts. -/
def contains (p s : String) : Bool := decide (p.toList <:+: s.toList)

/-- `sep.join(xs)`. -/
def join (sep : String) (xs : List String) : String := String.intercalate sep xs

/-- The text if it is there and not empty. -/
def given (text : Option String) : Option String := text.filter fun s => decide (s ≠ "")

variable {s t : String}

theorem given_of_ne (h : s ≠ "") : given (some s) = some s :=
  Option.filter_eq_some_iff.mpr ⟨rfl, decide_eq_true h⟩

/-- `xs[:n]`: a negative bound counts from the end. -/
def takeTo {α : Type*} (n : ℤ) (xs : List α) : List α :=
  if 0 ≤ n then xs.take n.toNat else xs.take (xs.length - n.natAbs)

/-- `replace` on characters; `skip` characters of a match are still to be passed over. -/
def replaceChars (old new : List Char) : ℕ → List Char → List Char
  | _, [] => []
  | skip + 1, _ :: cs => replaceChars old new skip cs
  | 0, c :: cs =>
    if old.isPrefixOf (c :: cs) then new ++ replaceChars old new (old.length - 1) cs
    else c :: replaceChars old new 0 cs

/-- `s.replace(old, new)` for an `old` that is not empty. -/
def replace (old new s : String) : String :=
  String.ofList (replaceChars old.toList new.toList 0 s.toList)

/-- `c.isspace()`. -/
def isSpace (c : Char) : Bool :=
  let n := c.toNat
  decide (9 ≤ n ∧ n ≤ 13) || decide (28 ≤ n ∧ n ≤ 32) || decide (0x2000 ≤ n ∧ n ≤ 0x200a) ||
    decide (n ∈ [0x85, 0xa0, 0x1680, 0x2028, 0x2029, 0x202f, 0x205f, 0x3000])

/-- `s.strip()`. -/
def strip (s : String) : String :=
  String.ofList (((s.toList.dropWhile isSpace).reverse.dropWhile isSpace).reverse)

/-- `s.split(sep)` at a separator of one character. -/
def split (sep : Char) (s : String) : List String := (s.toList.splitOn sep).map String.ofList

/-- The digits of a number; single underscores may stand between them. -/
def natOf (cs : List Char) : Option ℕ :=
  if (cs.splitOn '_').all fun part => decide (part ≠ []) && part.all Char.isDigit then
    some ((cs.filter Char.isDigit).foldl (fun n c => 10 * n + (c.toNat - 48)) 0)
  else none

/-- `int(s)` for a text of ASCII characters; `none` is `ValueError`. -/
def intOf (s : String) : Option ℤ :=
  match (strip s).toList with
  | '-' :: cs => (natOf cs).map fun n => -(n : ℤ)
  | '+' :: cs => (natOf cs).map fun n => (n : ℤ)
  | cs => (natOf cs).map fun n => (n : ℤ)

example : intOf " 1_007 " = some 1007 ∧ intOf "1__7" = none := by decide

theorem replaceChars_singleton (c : Char) (new s : List Char) :
    replaceChars [c] new 0 s = s.flatMap fun d => if c = d then new else [d] := by
  induction s with
  | nil => rfl
  | cons d s ih =>
    rw [replaceChars, List.flatMap_cons, ← ih]
    by_cases h : c = d
    · simp [List.isPrefixOf, h]
    · simp [List.isPrefixOf, h]

variable {sep c d : Char}

theorem split_append_cons (ht : sep ∉ t.toList) :
    split sep (s ++ String.singleton sep ++ t) = split sep s ++ [t] := by
  rw [split, String.toList_append, String.toList_append, String.toList_singleton, List.append_assoc,
    List.singleton_append, List.splitOn_append_cons_self, List.splitOn_eq_singleton ht,
    List.map_append, List.map_singleton, String.ofList_toList, split]

theorem split_of_notMem (hs : sep ∉ s.toList) : split sep s = [s] := by
  rw [split, List.splitOn_eq_singleton hs, List.map_singleton, String.ofList_toList]

theorem strip_space_append (s : String) : strip (" " ++ s) = strip s := by
  have hspace : " ".toList = [' '] := by decide
  rw [strip, String.toList_append, hspace, List.singleton_append,
    List.dropWhile_cons_of_pos (by decide), strip]

theorem mem_dropWhile_of_not {α : Type*} {p : α → Bool} {xs : List α} {a : α} (ha : a ∈ xs)
    (hp : p a = false) : a ∈ xs.dropWhile p := by
  induction xs with
  | nil => exact absurd ha List.not_mem_nil
  | cons x xs ih =>
    rw [List.dropWhile_cons]
    split
    · rename_i hx
      rcases List.mem_cons.mp ha with rfl | hmem
      · rw [hp] at hx
        cases hx
      · exact ih hmem
    · exact ha

theorem mem_strip (hc : c ∈ s.toList) (hspace : isSpace c = false) : c ∈ (strip s).toList := by
  rw [strip, String.toList_ofList, List.mem_reverse]
  refine mem_dropWhile_of_not (List.mem_reverse.mpr ?_) hspace
  exact mem_dropWhile_of_not hc hspace

theorem startsWith_append (p s : String) : startsWith p (p ++ s) = true := by
  rw [startsWith, List.isPrefixOf_iff_prefix, String.toList_append]
  exact List.prefix_append _ _

@[simp] theorem dropPrefix_append (p s : String) : dropPrefix p (p ++ s) = s := by
  rw [dropPrefix, String.toList_append, ← String.length_toList, List.drop_left,
    String.ofList_toList]

@[simp] theorem removePrefix_append (p s : String) : removePrefix p (p ++ s) = s := by
  rw [removePrefix, if_pos (startsWith_append p s), dropPrefix_append]

theorem append_dropPrefix {p : String} (h : startsWith p s = true) : p ++ dropPrefix p s = s := by
  rw [startsWith, List.isPrefixOf_iff_prefix] at h
  obtain ⟨t, ht⟩ := h
  rw [← String.toList_inj, String.toList_append, dropPrefix, String.toList_ofList, ← ht,
    ← String.length_toList, List.drop_left]

theorem takeTo_of_nonneg {α : Type*} {n : ℤ} (h : 0 ≤ n) (xs : List α) :
    takeTo n xs = xs.take n.toNat := if_pos h

/-! ## Values -/

/-- The texts that come from tables: the shortest decimal of a `float`, the quoted form of a
`str`. -/
structure Reprs where
  float : ℚ → String
  str : String → String

variable (R : Reprs)

/-- The text of a number. -/
def numText (q : ℚ) : String := if q.den = 1 then toString q.num else R.float q

mutual

/-- `repr(x)`. -/
def Json.repr : Json → String
  | .null => "None"
  | .bool true => "True"
  | .bool false => "False"
  | .num q => numText R q
  | .str s => R.str s
  | .arr xs => "[" ++ join ", " (reprList xs) ++ "]"
  | .obj kvs => "\x7b" ++ join ", " (reprEntries kvs) ++ "\x7d"

/-- The texts of the entries of a list. -/
def reprList : List Json → List String
  | [] => []
  | x :: xs => x.repr :: reprList xs

/-- The texts of the entries of a `dict`. -/
def reprEntries : List (String × Json) → List String
  | [] => []
  | (k, x) :: kvs => (R.str k ++ ": " ++ x.repr) :: reprEntries kvs

end

/-- `str(x)`. -/
def Json.pyStr : Json → String
  | .str s => s
  | x => x.repr R

/-- A character as `json.dumps(..., ensure_ascii=False)` writes it. -/
def escapeChar (c : Char) : List Char :=
  if c = '"' then "\\\"".toList
  else if c = '\\' then "\\\\".toList
  else if c = '\n' then "\\n".toList
  else if c = '\r' then "\\r".toList
  else if c = '\t' then "\\t".toList
  else if c.toNat = 8 then "\\b".toList
  else if c.toNat = 12 then "\\f".toList
  else if c.toNat < 32 then
    "\\u00".toList ++ [Nat.digitChar (c.toNat / 16), Nat.digitChar (c.toNat % 16)]
  else [c]

/-- A text as JSON. -/
def dumpsStr (s : String) : List Char := "\"".toList ++ s.toList.flatMap escapeChar ++ "\"".toList

mutual

/-- `json.dumps(x, ensure_ascii=False)`, as the list of its characters. -/
def dumps : Json → List Char
  | .null => "null".toList
  | .bool true => "true".toList
  | .bool false => "false".toList
  | .num q => (numText R q).toList
  | .str s => dumpsStr s
  | .arr xs => "[".toList ++ List.intercalate ", ".toList (dumpsList xs) ++ "]".toList
  | .obj kvs =>
    "\x7b".toList ++ List.intercalate ", ".toList (dumpsEntries kvs) ++ "\x7d".toList

/-- The texts of the entries of an array. -/
def dumpsList : List Json → List (List Char)
  | [] => []
  | x :: xs => dumps x :: dumpsList xs

/-- The texts of the entries of an object. -/
def dumpsEntries : List (String × Json) → List (List Char)
  | [] => []
  | (k, x) :: kvs => (dumpsStr k ++ ": ".toList ++ dumps x) :: dumpsEntries kvs

end

/-- `len(x)`; `none` is `TypeError`. -/
def Json.len : Json → Option ℕ
  | .str s => some s.length
  | .arr xs => some xs.length
  | .obj kvs => some kvs.length
  | _ => none

/-- `x[:n]` for a bound that is not negative; `none` is an exception. -/
def Json.slice (n : ℕ) : Json → Option Json
  | .str s => some (.str (truncate n s))
  | .arr xs => some (.arr (xs.take n))
  | _ => none

/-- `d[key] = value`: the entry keeps its place. -/
def setKey (key : String) (value : Json) : List (String × Json) → List (String × Json)
  | [] => [(key, value)]
  | (k, x) :: kvs => if k = key then (k, value) :: kvs else (k, x) :: setKey key value kvs

section SetKey

variable {key : String} {value : Json} {kvs : List (String × Json)} {p : String × Json}

theorem mem_setKey_self : (key, value) ∈ setKey key value kvs := by
  induction kvs with
  | nil => exact List.mem_cons_self
  | cons kv kvs ih =>
    rw [setKey]
    split
    · rename_i hkey
      exact hkey ▸ List.mem_cons_self
    · exact List.mem_cons_of_mem _ ih

theorem mem_of_mem_setKey (h : p ∈ setKey key value kvs) : p = (key, value) ∨ p ∈ kvs := by
  induction kvs with
  | nil => exact .inl (List.mem_singleton.mp h)
  | cons kv kvs ih =>
    rw [setKey] at h
    split at h
    · rename_i hkey
      rcases List.mem_cons.mp h with rfl | h
      · exact .inl (Prod.ext hkey rfl)
      · exact .inr (List.mem_cons_of_mem _ h)
    · rcases List.mem_cons.mp h with rfl | h
      · exact .inr List.mem_cons_self
      · exact (ih h).imp_right (List.mem_cons_of_mem _)

theorem mem_keys_setKey {k : String} (h : k ∈ kvs.map Prod.fst) : k ∈
    (setKey key value kvs).map Prod.fst := by
  induction kvs with
  | nil => cases h
  | cons kv kvs ih =>
    rw [setKey]
    split
    · exact h
    · rcases List.mem_cons.mp h with rfl | h
      · exact List.mem_cons_self
      · exact List.mem_cons_of_mem _ (ih h)

theorem setKey_of_mem (hkeys : (kvs.map Prod.fst).Nodup) (h : (key, value) ∈ kvs) :
    setKey key value kvs = kvs := by
  induction kvs with
  | nil => cases h
  | cons kv kvs ih =>
    obtain ⟨hnew, hkeys⟩ := List.nodup_cons.mp hkeys
    rw [setKey]
    rcases List.mem_cons.mp h with rfl | h
    · rw [if_pos rfl]
    · have hne : kv.1 ≠ key := by
        rintro rfl
        exact hnew (List.mem_map.mpr ⟨_, h, rfl⟩)
      rw [if_neg hne, ih hkeys h]

end SetKey

/-! ## Instants -/

/-- `value.isoformat().replace("+00:00", "Z")` of an instant in UTC. -/
def isoZ (t : Time) : String := truncate ((isoformat t).length - 6) (isoformat t) ++ "Z"

example : isoZ (seconds 1790899200) = "2026-10-02T00:00:00Z" := by decide

/-! ## Reading a JSON string -/

/-- The value of a hexadecimal digit. -/
def hexValue (c : Char) : ℕ := if c.toNat < 58 then c.toNat - 48 else c.toNat - 87

/-- The first character of the contents of a JSON string, and the rest. -/
def readChar : List Char → Option (Char × List Char)
  | '\\' :: '"' :: cs => some ('"', cs)
  | '\\' :: '\\' :: cs => some ('\\', cs)
  | '\\' :: 'n' :: cs => some ('\n', cs)
  | '\\' :: 'r' :: cs => some ('\r', cs)
  | '\\' :: 't' :: cs => some ('\t', cs)
  | '\\' :: 'b' :: cs => some (Char.ofNat 8, cs)
  | '\\' :: 'f' :: cs => some (Char.ofNat 12, cs)
  | '\\' :: 'u' :: '0' :: '0' :: a :: b :: cs =>
    some (Char.ofNat (16 * hexValue a + hexValue b), cs)
  | c :: cs => some (c, cs)
  | [] => none

variable {n width m : ℕ}

theorem ofNat_hexValue (h : n < 32) :
    16 * hexValue (Nat.digitChar (n / 16)) + hexValue (Nat.digitChar (n % 16)) = n := by
  have hall : ∀ m : Fin 32, 16 * hexValue (Nat.digitChar (m.val / 16)) +
      hexValue (Nat.digitChar (m.val % 16)) = m.val := by decide
  exact hall ⟨n, h⟩

/-- **A character is read back** from what is written for it. -/
theorem readChar_escapeChar (c : Char) (cs : List Char) :
    readChar (escapeChar c ++ cs) = some (c, cs) := by
  unfold escapeChar
  split_ifs with hquote hback hn hr ht hb hf hcontrol
  · rw [hquote]
    rfl
  · rw [hback]
    rfl
  · rw [hn]
    rfl
  · rw [hr]
    rfl
  · rw [ht]
    rfl
  · rw [← Char.ofNat_toNat c, hb]
    rfl
  · rw [← Char.ofNat_toNat c, hf]
    rfl
  · change some (Char.ofNat (16 * hexValue (Nat.digitChar (c.toNat / 16)) +
      hexValue (Nat.digitChar (c.toNat % 16))), cs) = _
    rw [ofNat_hexValue hcontrol, Char.ofNat_toNat]
  · rw [List.singleton_append]
    unfold readChar
    split <;> simp_all

theorem escapeChar_ne_quote (c : Char) (cs xs : List Char) : escapeChar c ++ cs ≠ '"' :: xs := by
  unfold escapeChar
  split_ifs with hquote
  case neg => simpa using fun h => absurd h hquote
  all_goals simp

variable {cs xs ys : List Char}

theorem escaped_append_inj {ds : List Char}
    (h : cs.flatMap escapeChar ++ '"' :: xs = ds.flatMap escapeChar ++ '"' :: ys) :
    cs = ds ∧ xs = ys := by
  induction cs generalizing ds with
  | nil =>
    cases ds with
    | nil => exact ⟨rfl, (List.cons.inj h).2⟩
    | cons d ds =>
      rw [List.flatMap_cons, List.append_assoc] at h
      exact absurd h.symm (escapeChar_ne_quote _ _ _)
  | cons c cs ih =>
    rw [List.flatMap_cons, List.append_assoc] at h
    cases ds with
    | nil => exact absurd h (escapeChar_ne_quote _ _ _)
    | cons d ds =>
      rw [List.flatMap_cons, List.append_assoc] at h
      have hread := congrArg readChar h
      rw [readChar_escapeChar, readChar_escapeChar, Option.some.injEq, Prod.mk.injEq] at hread
      obtain ⟨rfl, hrest⟩ := hread
      obtain ⟨rfl, hxs⟩ := ih hrest
      exact ⟨rfl, hxs⟩

/-- **A JSON string is read back**, whatever follows it. -/
theorem dumpsStr_append_inj (h : dumpsStr s ++ xs = dumpsStr t ++ ys) : s = t ∧ xs = ys := by
  unfold dumpsStr at h
  rw [List.append_assoc, List.append_assoc, List.append_assoc, List.append_assoc,
    List.append_cancel_left_eq] at h
  obtain ⟨hchars, hrest⟩ := escaped_append_inj h
  exact ⟨String.toList_inj.mp hchars, hrest⟩

/-! ## Padded numbers -/

theorem toList_zeroPad (width n : ℕ) : (zeroPad width n).toList =
    List.replicate (width - n.repr.length) '0' ++ Nat.toDigits 10 n := by
  have hrepr : toString (n : ℤ) = n.repr := rfl
  rw [zeroPad, String.toList_append, String.toList_ofList, hrepr, Nat.toList_repr]

/-- **Padding loses nothing.**  The number is read off its padded decimal. -/
theorem zeroPad_inj (h : zeroPad width m = zeroPad width n) : m = n := by
  have hread : ∀ k : ℕ, Nat.ofDigitChars 10 (zeroPad width k).toList 0 = k := fun k => by
    rw [toList_zeroPad, Nat.ofDigitChars_append, Nat.ofDigitChars_replicate_zero, Nat.mul_zero,
      Nat.ofDigitChars_ten_toDigits]
  rw [← hread m, h, hread n]

theorem length_zeroPad (hwidth : 0 < width) (hn : n < 10 ^ width) :
    (zeroPad width n).toList.length = width := by
  have hlen : n.repr.length ≤ width := (Nat.length_repr_le_iff hwidth).mpr hn
  rw [toList_zeroPad, List.length_append, List.length_replicate, ← Nat.toList_repr,
    String.length_toList]
  omega

theorem zeroPad_append_inj {m n : ℤ} (hwidth : 0 < width)
    (hm : 0 ≤ m ∧ m < 10 ^ width) (hn : 0 ≤ n ∧ n < 10 ^ width)
    (h : (zeroPad width m).toList ++ xs = (zeroPad width n).toList ++ ys) : m = n ∧ xs = ys := by
  obtain ⟨m, rfl⟩ := Int.eq_ofNat_of_zero_le hm.1
  obtain ⟨n, rfl⟩ := Int.eq_ofNat_of_zero_le hn.1
  have hlen : (zeroPad width m).toList.length = (zeroPad width n).toList.length := by
    rw [length_zeroPad hwidth (by exact_mod_cast hm.2), length_zeroPad hwidth (by exact_mod_cast hn.2)]
  obtain ⟨hnum, hrest⟩ := List.append_inj h hlen
  rw [zeroPad_inj (String.toList_inj.mp hnum)]
  exact ⟨rfl, hrest⟩

theorem zeroPad_inj_int {m n : ℤ} (hwidth : 0 < width) (hm : 0 ≤ m ∧ m < 10 ^ width)
    (hn : 0 ≤ n ∧ n < 10 ^ width) (h : zeroPad width m = zeroPad width n) : m = n := by
  have htext : (zeroPad width m).toList ++ [] = (zeroPad width n).toList ++ [] := by rw [h]
  exact (zeroPad_append_inj hwidth hm hn htext).1

theorem intOf_of_digits (hne : s.toList ≠ []) (hs : ∀ c ∈ s.toList, c.isDigit = true) :
    intOf s = some ((Nat.ofDigitChars 10 s.toList 0 : ℕ) : ℤ) := by
  have hspace : ∀ c : Char, c.isDigit = true → isSpace c = false := by
    intro c hc
    simp only [Char.isDigit, ge_iff_le, Bool.and_eq_true, decide_eq_true_eq] at hc
    have hlow : 48 ≤ c.toNat := hc.1
    have hhigh : c.toNat ≤ 57 := hc.2
    simp only [isSpace, Bool.or_eq_false_iff, decide_eq_false_iff_not]
    refine ⟨⟨⟨?_, ?_⟩, ?_⟩, ?_⟩
    · omega
    · omega
    · omega
    · simp
      omega
  have hkept : ∀ cs : List Char, (∀ c ∈ cs, c.isDigit = true) → cs.dropWhile isSpace = cs := by
    intro cs hcs
    cases cs with
    | nil => rfl
    | cons c cs => exact List.dropWhile_cons_of_neg (by simp [hspace c (hcs c List.mem_cons_self)])
  have hstrip : (strip s).toList = s.toList := by
    rw [strip, String.toList_ofList, hkept _ hs, hkept _ fun c hc => hs c (List.mem_reverse.mp hc),
      List.reverse_reverse]
  have hnat : natOf s.toList = some (Nat.ofDigitChars 10 s.toList 0) := by
    have hsplit : s.toList.splitOn '_' = [s.toList] :=
      List.splitOn_eq_singleton fun h => absurd (hs _ h) (by decide)
    rw [natOf, hsplit, List.filter_eq_self.mpr hs]
    refine if_pos ?_
    simp only [List.all_cons, List.all_nil, Bool.and_true, Bool.and_eq_true, decide_eq_true_eq]
    exact ⟨hne, List.all_eq_true.mpr hs⟩
  rw [intOf, hstrip]
  -- a digit is no sign
  split
  · rename_i cs hcs
    exact absurd (hs '-' (hcs ▸ List.mem_cons_self)) (by decide)
  · rename_i cs hcs
    exact absurd (hs '+' (hcs ▸ List.mem_cons_self)) (by decide)
  · rw [hnat]
    rfl

/-- **A padded decimal is read as the number**, however long it is. -/
theorem intOf_zeroPad (width n : ℕ) : intOf (zeroPad width n) = some (n : ℤ) := by
  have hdigits : ∀ c ∈ (zeroPad width n).toList, c.isDigit = true := by
    intro c hc
    rw [toList_zeroPad, List.mem_append] at hc
    rcases hc with hzero | hdigit
    · rw [List.eq_of_mem_replicate hzero]
      decide
    · exact Nat.isDigit_of_mem_toDigits (by decide) (by decide) hdigit
  have hne : (zeroPad width n).toList ≠ [] := by
    rw [toList_zeroPad]
    exact List.append_ne_nil_of_right_ne_nil _ Nat.toDigits_ne_nil
  rw [intOf_of_digits hne hdigits, toList_zeroPad, Nat.ofDigitChars_append,
    Nat.ofDigitChars_replicate_zero, Nat.mul_zero, Nat.ofDigitChars_ten_toDigits]

/-! ## Lines -/

/-- Lines, each with its end. -/
def linesText (lines : List String) : List Char := lines.flatMap fun line => line.toList ++ ['\n']

theorem linesText_cons (line : String) (lines : List String) :
    linesText (line :: lines) = line.toList ++ '\n' :: linesText lines := by
  rw [linesText, List.flatMap_cons, List.append_assoc]
  rfl

theorem linesText_append (lines more : List String) :
    linesText (lines ++ more) = linesText lines ++ linesText more := List.flatMap_append

theorem toList_join_newline {lines : List String} (h : lines ≠ []) :
    (join "\n" lines).toList ++ ['\n'] = linesText lines := by
  induction lines with
  | nil => exact absurd rfl h
  | cons line lines ih =>
    cases lines with
    | nil =>
      rw [join, String.intercalate_singleton]
      exact (linesText_cons line []).symm
    | cons next lines =>
      have hnewline : "\n".toList = ['\n'] := by decide
      have hrest := ih (List.cons_ne_nil next lines)
      rw [join] at hrest ⊢
      rw [String.intercalate_cons_cons, String.toList_append, String.toList_append, linesText_cons,
        ← hrest, hnewline, List.append_assoc, List.append_assoc]
      rfl

/-- What begins and ends with a character that is no white space is not stripped. -/
theorem prefix_strip (hc : isSpace c = false)
    (hd : isSpace d = false) (h : c :: (cs ++ [d]) <+: s.toList) :
    c :: (cs ++ [d]) <+: (strip s).toList := by
  obtain ⟨rest, hrest⟩ := h
  have hfront : s.toList.dropWhile isSpace = s.toList := by
    rw [← hrest, List.cons_append, List.dropWhile_cons_of_neg (by simp [hc])]
  have hreverse : s.toList.reverse = rest.reverse ++ d :: (cs.reverse ++ [c]) := by
    rw [← hrest]
    simp
  have hback : ∃ kept, (rest.reverse ++ d :: (cs.reverse ++ [c])).dropWhile isSpace =
      kept ++ d :: (cs.reverse ++ [c]) := by
    rw [List.dropWhile_append]
    split
    · exact ⟨[], by rw [List.dropWhile_cons_of_neg (by simp [hd]), List.nil_append]⟩
    · exact ⟨_, rfl⟩
  obtain ⟨kept, hkept⟩ := hback
  rw [strip, String.toList_ofList, hfront, hreverse, hkept]
  exact ⟨kept.reverse, by simp⟩

/-- The first lines of joined lines are not stripped up to a line that does not end with white space. -/
theorem prefix_strip_join {front tail : List String} {line : String}
    (hc : isSpace c = false) (hd : isSpace d = false)
    (h : linesText front ++ line.toList = c :: (cs ++ [d])) :
    c :: (cs ++ [d]) <+: (strip (join "\n" (front ++ line :: tail))).toList := by
  have hne : front ++ line :: tail ≠ [] := List.append_ne_nil_of_right_ne_nil _ (List.cons_ne_nil _ _)
  have htext : (join "\n" (front ++ line :: tail)).toList ++ ['\n'] =
      c :: (cs ++ [d]) ++ '\n' :: linesText tail := by
    rw [toList_join_newline hne, linesText_append, linesText_cons, ← h, List.append_assoc]
  refine prefix_strip hc hd ?_
  refine List.prefix_of_prefix_length_le ⟨_, htext.symm⟩ (List.prefix_append _ _) ?_
  have hlen := congrArg List.length htext
  simp only [List.length_append, List.length_cons, List.length_nil] at hlen ⊢
  omega

/-- **A number is read off a text that goes on** with something that is no digit. -/
theorem toString_prefix_inj {text : List Char} (hc : c.isDigit = false)
    (hd : d.isDigit = false) (hm : (toString m).toList ++ c :: xs <+: text)
    (hn : (toString n).toList ++ d :: ys <+: text) : m = n := by
  have hread : ∀ {k : ℕ} {e : Char} {zs : List Char}, e.isDigit = false →
      (toString k).toList ++ e :: zs <+: text → text.takeWhile Char.isDigit = (toString k).toList := by
    intro k e zs he h
    obtain ⟨rest, rfl⟩ := h
    have hdigits : ∀ x ∈ (toString k).toList, x.isDigit = true := by
      intro x hx
      rw [show toString k = k.repr from rfl, Nat.toList_repr] at hx
      exact Nat.isDigit_of_mem_toDigits (by decide) (by decide) hx
    rw [List.append_assoc, List.takeWhile_append_of_pos hdigits, List.cons_append,
      List.takeWhile_cons_of_neg (by simp [he]), List.append_nil]
  have hchars : (toString m).toList = (toString n).toList := (hread hc hm).symm.trans (hread hd hn)
  rw [show toString m = m.repr from rfl, show toString n = n.repr from rfl, Nat.toList_repr,
    Nat.toList_repr] at hchars
  rw [← Nat.ofDigitChars_ten_toDigits (n := m), hchars, Nat.ofDigitChars_ten_toDigits]

end PyJson
