import AssetInventory.Lib.PyText
import Mathlib.Data.UInt

/-!
# Parts of URLs, and UUIDs

* `rstrip`: `s.rstrip(c)` for one character.
* `quote`: `urllib.parse.quote(s)`, and `quote_injective`: a text can be read off its quoted form.
* `uuidOf`, `uuidText`: `uuid.UUID(s)` and `str(u)`.
-/

namespace PyUrl

open PyJson

variable {α β : Type*}

/-! ## Codes that can be read off from the left -/

/-- A code whose words can be read off a text one by one. -/
structure ReadOff (f : α → List β) : Prop where
  ne_nil : ∀ a, f a ≠ []
  head_eq : ∀ {a b xs ys}, f a ++ xs = f b ++ ys → a = b

/-- **A text can be read off its code.** -/
theorem ReadOff.flatMap_injective {f : α → List β} (h : ReadOff f) : Function.Injective
    (List.flatMap f) := by
  intro as
  induction as with
  | nil =>
    intro bs heq
    cases bs with
    | nil => rfl
    | cons b bs =>
      rw [List.flatMap_nil, List.flatMap_cons] at heq
      exact absurd (List.append_eq_nil_iff.mp heq.symm).1 (h.ne_nil b)
  | cons a as ih =>
    intro bs heq
    cases bs with
    | nil =>
      rw [List.flatMap_nil, List.flatMap_cons] at heq
      exact absurd (List.append_eq_nil_iff.mp heq).1 (h.ne_nil a)
    | cons b bs =>
      simp only [List.flatMap_cons] at heq
      obtain rfl := h.head_eq heq
      rw [ih (List.append_cancel_left heq)]

/-! ## URLs -/

/-- `s.rstrip(c)` for one character. -/
def rstrip (c : Char) (s : String) : String :=
  String.ofList (s.toList.reverse.dropWhile fun d => decide (d = c)).reverse

/-- The bytes that `quote` leaves as they are: letters, digits, and some marks. -/
def isSafe (b : UInt8) : Bool :=
  (Char.ofNat b.toNat).isAlphanum || decide (Char.ofNat b.toNat ∈ ['_', '.', '-', '~', '/'])

/-- A digit of a byte in hexadecimal. -/
def hexUpper (n : ℕ) : Char := Char.ofNat (if n < 10 then 48 + n else 55 + n)

/-- A byte in a quoted text. -/
def quoteByte (b : UInt8) : List Char :=
  if isSafe b then [Char.ofNat b.toNat] else ['%', hexUpper (b.toNat / 16), hexUpper (b.toNat % 16)]

/-- `urllib.parse.quote(s)`. -/
def quote (s : String) : String := String.ofList (s.toUTF8.data.toList.flatMap quoteByte)

example : quote "C.1/é" = "C.1/%C3%A9" := by decide

theorem hexUpper_inj {m n : ℕ} (hm : m < 16) (hn : n < 16) (h : hexUpper m = hexUpper n) : m = n := by
  have hall : ∀ m < 16, ∀ n < 16, hexUpper m = hexUpper n → m = n := by decide
  exact hall m hm n hn h

theorem charOf_inj {a b : UInt8} (h : Char.ofNat a.toNat = Char.ofNat b.toNat) : a = b := by
  have hread : ∀ c : UInt8, (Char.ofNat c.toNat).toNat = c.toNat := by
    intro c
    have hvalid : c.toNat.isValidChar := .inl (by have := c.toNat_lt; omega)
    rw [Char.ofNat, dif_pos hvalid]
    rfl
  refine UInt8.toNat_inj.mp ?_
  rw [← hread a, h, hread b]

theorem readOff_quoteByte : ReadOff quoteByte where
  ne_nil b := by
    unfold quoteByte
    split_ifs <;> exact List.cons_ne_nil _ _
  head_eq {a b xs ys} h := by
    have hpercent : ∀ c : UInt8, Char.ofNat c.toNat = '%' → isSafe c = false := by
      intro c hc
      obtain rfl : c = 37 := charOf_inj hc
      rfl
    unfold quoteByte at h
    split_ifs at h with ha hb hb
    · exact charOf_inj (List.cons.inj h).1
    · rw [hpercent a (List.cons.inj h).1] at ha
      cases ha
    · rw [hpercent b (List.cons.inj h).1.symm] at hb
      cases hb
    · have hdigits := (List.cons.inj h).2
      have hhigh := hexUpper_inj (by have := a.toNat_lt; omega) (by have := b.toNat_lt; omega)
        (List.cons.inj hdigits).1
      have hlow := hexUpper_inj (Nat.mod_lt _ (by decide)) (Nat.mod_lt _ (by decide))
        (List.cons.inj (List.cons.inj hdigits).2).1
      exact UInt8.toNat_inj.mp (by omega)

/-- **A text can be read off its quoted form.** -/
theorem quote_injective : Function.Injective quote := by
  intro s t h
  have hbytes := readOff_quoteByte.flatMap_injective (String.ofList_injective h)
  exact String.toByteArray_inj.mp (ByteArray.ext (Array.toList_inj.mp hbytes))

/-! ## UUIDs -/

/-- The value of a hexadecimal digit. -/
def hexDigit (c : Char) : Option ℕ :=
  if c.isDigit then some (c.toNat - 48)
  else if 'a' ≤ c ∧ c ≤ 'f' then some (c.toNat - 87)
  else if 'A' ≤ c ∧ c ≤ 'F' then some (c.toNat - 55)
  else none

/-- The hexadecimal digits of a number; single underscores may stand between them. -/
def hexNat (cs : List Char) : Option ℕ :=
  if (cs.splitOn '_').all fun part => decide (part ≠ []) && part.all fun c => (hexDigit c).isSome then
    some ((cs.filterMap hexDigit).foldl (fun n d => 16 * n + d) 0)
  else none

/-- `int(s, 16)` for a text of ASCII characters without a minus; `none` is `ValueError`. -/
def hexOf (s : String) : Option ℕ :=
  let cs := (strip s).toList
  let cs := if cs.head? = some '+' then cs.tail else cs
  hexNat (if cs.take 2 ∈ ["0x".toList, "0X".toList] then
    if (cs.drop 2).head? = some '_' then cs.drop 3 else cs.drop 2
  else cs)

/-- `uuid.UUID(s)`; `none` is `ValueError`. -/
def uuidOf (s : String) : Option ℕ :=
  let hex := (replace "uuid:" "" (replace "urn:" "" s)).toList
  let brace (c : Char) : Bool := decide (c ∈ ['\x7b', '\x7d'])
  let hex := ((hex.dropWhile brace).reverse.dropWhile brace).reverse.filter fun c => decide (c ≠ '-')
  if hex.length = 32 then hexOf (String.ofList hex) else none

/-- `str(u)`. -/
def uuidText (u : ℕ) : String :=
  let digits := Nat.toDigits 16 u
  let hex := List.replicate (32 - digits.length) '0' ++ digits
  String.ofList (hex.take 8 ++ '-' :: (hex.drop 8).take 4 ++ '-' :: (hex.drop 12).take 4 ++
    '-' :: (hex.drop 16).take 4 ++ '-' :: hex.drop 20)

example : (uuidOf "12345678123456781234567812345678").map uuidText =
    some "12345678-1234-5678-1234-567812345678" ∧ uuidOf "F.BN2HP3OMF8QGU" = none := by decide

end PyUrl
