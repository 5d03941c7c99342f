import AssetInventory.Lib.PyDict
import Mathlib.Data.List.Infix

/-!
# Decoding JSON

`json.loads(s)` of the source language, version 3.12.

* `Value`: what it returns.  A text is the list of its code points, since an escape may stand for a surrogate.
* `Interpreter`: the limits of the interpreter, and its floats.
* `scanOnce`: the scanner, which nests containers up to a limit; `parse`: a whole document, with every member of an
  object as it was written; `loads`: the same with objects as dictionaries.
-/

namespace PyLoads

/-! ## Values -/

/-- A text, by its code points. -/
abbrev Str := List ℕ

/-- The code points of a text without surrogates. -/
def codes (s : String) : Str := s.toList.map Char.toNat

/-- A decoded value; `F` are the floats.  The entries of a `dict` are in insertion order. -/
inductive Value (F : Type) where
  | none
  | bool (b : Bool)
  | int (n : ℤ)
  | float (x : F)
  | str (s : Str)
  | list (xs : List (Value F))
  | dict (entries : List (Str × Value F))
  deriving Inhabited

variable {F : Type}

mutual

/-- The value with its objects as dictionaries: of members with the same key the last one counts. -/
def Value.settle : Value F → Value F
  | .list xs => .list (settleList xs)
  | .dict entries => .dict ((settleEntries entries).foldl (fun d e => PyDict.setItem e.1 e.2 d) [])
  | v => v

/-- The same for the items of an array. -/
def settleList : List (Value F) → List (Value F)
  | [] => []
  | v :: vs => v.settle :: settleList vs

/-- The same for the members of an object. -/
def settleEntries : List (Str × Value F) → List (Str × Value F)
  | [] => []
  | (k, v) :: entries => (k, v.settle) :: settleEntries entries

end

mutual

/-- No object has two members with the same key. -/
def Value.keyed : Value F → Bool
  | .list xs => keyedList xs
  | .dict entries => decide ((entries.map Prod.fst).Nodup) && keyedEntries entries
  | _ => true

/-- The same for the items of an array. -/
def keyedList : List (Value F) → Bool
  | [] => true
  | v :: vs => v.keyed && keyedList vs

/-- The same for the members of an object. -/
def keyedEntries : List (Str × Value F) → Bool
  | [] => true
  | (_, v) :: entries => v.keyed && keyedEntries entries

end

/-! ## The scanner -/

/-- The exceptions of `json.loads`. -/
inductive LoadsError where
  /-- `JSONDecodeError`. -/
  | jsonDecode
  /-- The `ValueError` of an integer that has too many digits. -/
  | tooManyDigits
  /-- `RecursionError`. -/
  | recursion
  deriving DecidableEq

/-- An interpreter. -/
structure Interpreter (F : Type) where
  /-- `sys.get_int_max_str_digits()`. -/
  maxDigits : ℕ
  /-- How many containers the scanner may enter, one in the other. -/
  maxDepth : ℕ
  /-- `float(s)` of a decimal. -/
  float : List Char → F
  nan : F
  inf : F
  negInf : F

/-- White space. -/
def isWs (c : Char) : Bool := c == ' ' || c == '\t' || c == '\n' || c == '\r'

/-- The text behind the white space. -/
def skipWs (cs : List Char) : List Char := cs.dropWhile isWs

/-- The value of a hexadecimal digit. -/
def hexDigit? (c : Char) : Option ℕ :=
  if '0' ≤ c ∧ c ≤ '9' then some (c.toNat - 48)
  else if 'a' ≤ c ∧ c ≤ 'f' then some (c.toNat - 87)
  else if 'A' ≤ c ∧ c ≤ 'F' then some (c.toNat - 55)
  else none

/-- The code point of an escape with one character. -/
def unescape? (c : Char) : Option ℕ :=
  if c = '"' ∨ c = '\\' ∨ c = '/' then some c.toNat
  else if c = 'b' then some 8
  else if c = 'f' then some 12
  else if c = 'n' then some 10
  else if c = 'r' then some 13
  else if c = 't' then some 9
  else none

/-- The code point of four hexadecimal digits. -/
def hex4? (a b c d : Char) : Option ℕ := do
  return ((← hexDigit? a) * 4096 + (← hexDigit? b) * 256 + (← hexDigit? c) * 16 + (← hexDigit? d))

/-- A string, behind its opening quotation mark: the code points, surrogates on their own, and what follows. -/
def scanUnits : List Char → Except LoadsError (Str × List Char)
  | [] => .error .jsonDecode
  | c :: cs =>
    if c = '"' then .ok ([], cs)
    else if c = '\\' then
      match cs with
      | [] => .error .jsonDecode
      | e :: cs =>
        if e = 'u' then
          match cs with
          | w :: x :: y :: z :: cs =>
            match hex4? w x y z with
            | some n => (scanUnits cs).map fun r => (n :: r.1, r.2)
            | none => .error .jsonDecode
          | _ => .error .jsonDecode
        else
          match unescape? e with
          | some n => (scanUnits cs).map fun r => (n :: r.1, r.2)
          | none => .error .jsonDecode
    else if c.toNat < 32 then .error .jsonDecode
    else (scanUnits cs).map fun r => (c.toNat :: r.1, r.2)

/-- Two surrogates that belong together are one code point. -/
def joinSurrogates : Str → Str
  | [] => []
  | [n] => [n]
  | high :: low :: s =>
    if (0xd800 ≤ high ∧ high < 0xdc00) ∧ 0xdc00 ≤ low ∧ low < 0xe000 then
      (0x10000 + (high - 0xd800) * 1024 + (low - 0xdc00)) :: joinSurrogates s
    else high :: joinSurrogates (low :: s)

/-- A string, behind its opening quotation mark. -/
def scanString (cs : List Char) : Except LoadsError (Str × List Char) :=
  (scanUnits cs).map fun r => (joinSurrogates r.1, r.2)

/-- The digits that a text begins with, and the rest. -/
def spanDigits (cs : List Char) : List Char × List Char := cs.span Char.isDigit

/-- The integer part of a number without its sign, and the rest. -/
def spanInt : List Char → List Char × List Char
  | '0' :: cs => (['0'], cs)
  | cs => spanDigits cs

/-- The fraction, if there is one, and the rest. -/
def spanFrac : List Char → List Char × List Char
  | '.' :: cs => if (spanDigits cs).1 = [] then ([], '.' :: cs) else ('.' :: (spanDigits cs).1, (spanDigits cs).2)
  | cs => ([], cs)

/-- The sign of an exponent, if there is one, and the rest. -/
def spanSign : List Char → List Char × List Char
  | c :: cs => if c = '+' ∨ c = '-' then ([c], cs) else ([], c :: cs)
  | [] => ([], [])

/-- The exponent, if there is one, and the rest. -/
def spanExp : List Char → List Char × List Char
  | c :: cs =>
    let sign := spanSign cs
    let digits := spanDigits sign.2
    if (c = 'e' ∨ c = 'E') ∧ digits.1 ≠ [] then (c :: (sign.1 ++ digits.1), digits.2) else ([], c :: cs)
  | [] => ([], [])

/-- The minus sign, if there is one, and the rest. -/
def spanMinus : List Char → List Char × List Char
  | '-' :: cs => (['-'], cs)
  | cs => ([], cs)

/-- The value of a decimal. -/
def natValue (digits : List Char) : ℕ := digits.foldl (fun n c => 10 * n + (c.toNat - 48)) 0

variable (I : Interpreter F)

/-- A number. -/
def scanNumber (cs : List Char) : Except LoadsError (Value F × List Char) :=
  let minus := spanMinus cs
  let int := spanInt minus.2
  let frac := spanFrac int.2
  let exp := spanExp frac.2
  if int.1 = [] then .error .jsonDecode
  else if frac.1 = [] ∧ exp.1 = [] then
    if I.maxDigits < int.1.length then .error .tooManyDigits
    else .ok (.int (if minus.1 = [] then natValue int.1 else -natValue int.1), exp.2)
  else .ok (.float (I.float (minus.1 ++ int.1 ++ frac.1 ++ exp.1)), exp.2)

/-- The constants. -/
def constants : List (List Char × Value F) :=
  [("null".toList, .none), ("true".toList, .bool true), ("false".toList, .bool false), ("NaN".toList, .float I.nan),
    ("Infinity".toList, .float I.inf), ("-Infinity".toList, .float I.negInf)]

/-- A value, when objects and arrays are scanned by `object` and `array`. -/
def scanWith (object array : List Char → Except LoadsError (Value F × List Char)) :
    List Char → Except LoadsError (Value F × List Char)
  | [] => .error .jsonDecode
  | c :: cs =>
    if c = '"' then (scanString cs).map fun r => (.str r.1, r.2)
    else if c = '\x7b' then object cs
    else if c = '[' then array cs
    else
      match (constants I).find? fun e => e.1.isPrefixOf (c :: cs) with
      | some e => .ok (e.2, (c :: cs).drop e.1.length)
      | none => scanNumber I (c :: cs)

section Containers

variable (scan : List Char → Except LoadsError (Value F × List Char))

/-- The items of an array that is not empty.  There are not more of them than characters. -/
def scanItems : ℕ → List Char → Except LoadsError (List (Value F) × List Char)
  | 0, _ => .error .jsonDecode
  | n + 1, cs => do
    let item ← scan cs
    match skipWs item.2 with
    | [] => .error .jsonDecode
    | c :: cs =>
      if c = ']' then .ok ([item.1], cs)
      else if c = ',' then (scanItems n (skipWs cs)).map fun r => (item.1 :: r.1, r.2)
      else .error .jsonDecode

/-- An array, behind its bracket. -/
def scanArray (cs : List Char) : Except LoadsError (Value F × List Char) :=
  match skipWs cs with
  | [] => .error .jsonDecode
  | c :: cs =>
    if c = ']' then .ok (.list [], cs)
    else (scanItems scan (cs.length + 1) (c :: cs)).map fun r => (.list r.1, r.2)

/-- The key of a member, with the colon behind it. -/
def scanKey : List Char → Except LoadsError (Str × List Char)
  | [] => .error .jsonDecode
  | c :: cs =>
    if c = '"' then do
      let key ← scanString cs
      match skipWs key.2 with
      | [] => .error .jsonDecode
      | c :: cs => if c = ':' then .ok (key.1, skipWs cs) else .error .jsonDecode
    else .error .jsonDecode

/-- The members of an object that is not empty. -/
def scanMembers : ℕ → List Char → Except LoadsError (List (Str × Value F) × List Char)
  | 0, _ => .error .jsonDecode
  | n + 1, cs => do
    let key ← scanKey cs
    let value ← scan key.2
    match skipWs value.2 with
    | [] => .error .jsonDecode
    | c :: cs =>
      if c = '\x7d' then .ok ([(key.1, value.1)], cs)
      else if c = ',' then (scanMembers n (skipWs cs)).map fun r => ((key.1, value.1) :: r.1, r.2)
      else .error .jsonDecode

/-- An object, behind its brace. -/
def scanObject (cs : List Char) : Except LoadsError (Value F × List Char) :=
  match skipWs cs with
  | [] => .error .jsonDecode
  | c :: cs =>
    if c = '\x7d' then .ok (.dict [], cs)
    else (scanMembers scan (cs.length + 1) (c :: cs)).map fun r => (.dict r.1, r.2)

end Containers

/-- A value in which not more than so many containers are entered one in the other. -/
def scanOnce : ℕ → List Char → Except LoadsError (Value F × List Char)
  | 0, cs => scanWith I (fun _ => .error .recursion) (fun _ => .error .recursion) cs
  | depth + 1, cs => scanWith I (scanObject (scanOnce depth)) (scanArray (scanOnce depth)) cs

/-- A document, with every member of an object as it was written. -/
def parse (cs : List Char) : Except LoadsError (Value F) :=
  if cs.head? = some '\ufeff' then .error .jsonDecode
  else do
    let value ← scanOnce I I.maxDepth (skipWs cs)
    if skipWs value.2 = [] then .ok value.1 else .error .jsonDecode

/-- `json.loads(s)`. -/
def loads (cs : List Char) : Except LoadsError (Value F) := (parse I cs).map Value.settle

end PyLoads
