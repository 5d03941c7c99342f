import AssetInventory.Lib.PyLoads
import Mathlib.Data.List.TakeWhile
import Mathlib.Tactic.Ring

/-!
# How often a character stands in a document

A character that the syntax of JSON does not use stands in the strings of a document only, as itself or as an escape.
How often it does can be counted without a parser: it is enough to know where an escape begins.

* `run`: the counter, which refuses an escape that is none.
* `occurrences`: how often the character stands in the strings of a value.
* `reads_scanOnce`: the counter finds what is in the value that is scanned; `occurrences_of_parse`: in the document.
* `scanItems_of_lt`, `scanMembers_of_lt`: the bounds on the loops of the scanner are never reached.
* `occurrences_settle_le`, `settle_of_keyed`: what becomes of it in dictionaries.
-/

namespace PyLoads

variable {F : Type}

/-! ## The counter -/

/-- Where the counter is: outside an escape, behind a backslash, or before the last digits of an escape. -/
inductive EscState where
  | plain
  | back
  | hex (left n : ℕ)
  deriving DecidableEq

/-- One, if the character has been found. -/
def found (x n : ℕ) : ℕ := if n = x then 1 else 0

/-- One character. -/
def EscState.step (x : ℕ) : EscState → Char → Option (EscState × ℕ)
  | .plain, c => if c = '\\' then some (.back, 0) else some (.plain, found x c.toNat)
  | .back, c => if c = 'u' then some (.hex 3 0, 0) else (unescape? c).map fun n => (.plain, found x n)
  | .hex left n, c =>
    (hexDigit? c).map fun d =>
      match left with
      | 0 => (.plain, found x (n * 16 + d))
      | left + 1 => (.hex left (n * 16 + d), 0)

/-- The counter on a text: where it is in the end, and how often it has found the character. -/
def run (x : ℕ) : EscState → List Char → Option (EscState × ℕ)
  | s, [] => some (s, 0)
  | s, c :: cs => (s.step x c).bind fun r => (run x r.1 cs).map fun t => (t.1, r.2 + t.2)

theorem run_append (x : ℕ) (s : EscState) (xs ys : List Char) :
    run x s (xs ++ ys) = (run x s xs).bind fun r => (run x r.1 ys).map fun t => (t.1, r.2 + t.2) := by
  induction xs generalizing s with
  | nil => simp [run]
  | cons c cs ih =>
    rw [List.cons_append, run, run]
    cases s.step x c with
    | none => rfl
    | some r =>
      rw [Option.bind_some, Option.bind_some, ih]
      cases run x r.1 cs with
      | none => rfl
      | some t => simp [Nat.add_assoc, Function.comp_def]

/-- The text is whole, and has the character so often. -/
def Passes (x : ℕ) (cs : List Char) (n : ℕ) : Prop := run x .plain cs = some (.plain, n)

theorem passes_nil (x : ℕ) : Passes x [] 0 := rfl

variable {xs ys cs rest : List Char} {x m n : ℕ}

theorem Passes.append (hxs : Passes x xs m) (hys : Passes x ys n) :
    Passes x (xs ++ ys) (m + n) := by
  unfold Passes at *
  rw [run_append, hxs, Option.bind_some, hys]
  rfl

variable {c : Char}

theorem passes_singleton (x : ℕ) (hc : c ≠ '\\') : Passes x [c] (found x c.toNat) := by
  simp [Passes, run, EscState.step, hc]

/-- **A text splits at a character that no escape goes on with.** -/
theorem run_split {s t : EscState} (h : run x s (xs ++ ys) = some (t, n)) :
    ∃ u m k, run x s xs = some (u, m) ∧ run x u ys = some (t, k) ∧ n = m + k := by
  rw [run_append] at h
  cases hxs : run x s xs with
  | none =>
    rw [hxs] at h
    cases h
  | some r =>
    rw [hxs, Option.bind_some] at h
    cases hys : run x r.1 ys with
    | none =>
      rw [hys] at h
      cases h
    | some q =>
      rw [hys, Option.map_some, Option.some.injEq, Prod.mk.injEq] at h
      exact ⟨r.1, r.2, q.2, rfl, by rw [hys, ← h.1], h.2.symm⟩

/-- A character that no escape goes on with. -/
def Inert (c : Char) : Prop := c ≠ 'u' ∧ unescape? c = none ∧ hexDigit? c = none

instance (c : Char) : Decidable (Inert c) := inferInstanceAs (Decidable (_ ∧ _ ∧ _))

theorem plain_of_inert {s : EscState} (hc : Inert c)
    (h : (run x s (c :: cs)).isSome = true) : s = .plain := by
  obtain ⟨hu, hunescape, hhex⟩ := hc
  cases s with
  | plain => rfl
  | back => simp [run, EscState.step, hu, hunescape] at h
  | hex left n => simp [run, EscState.step, hhex] at h

/-- **A part that begins with such a character** and is whole leaves whole what stands around it. -/
theorem Passes.around {zs : List Char} {k : ℕ} (h : Passes x (xs ++ (c :: ys ++ zs)) n)
    (hc : Inert c) (hpart : Passes x (c :: ys) k) :
    ∃ i j, run x .plain xs = some (.plain, i) ∧ run x .plain zs = some (.plain, j) ∧ n = i + (k + j) := by
  obtain ⟨u, i, m, hxs, hrest, rfl⟩ := run_split h
  obtain rfl := plain_of_inert hc (Option.isSome_of_eq_some hrest)
  obtain ⟨t, k', j, hys, hzs, rfl⟩ := run_split hrest
  obtain ⟨rfl, rfl⟩ := Prod.mk.inj (Option.some.inj (hys.symm.trans hpart))
  exact ⟨i, j, hxs, hzs, rfl⟩

theorem pos_of_mem {s t : EscState} (h : run x s cs = some (t, n))
    (hc : Inert c) (hback : c ≠ '\\') (hx : c.toNat = x) (hmem : c ∈ cs) : 0 < n := by
  obtain ⟨front, back, rfl⟩ := List.append_of_mem hmem
  obtain ⟨u, m, k, -, hrest, rfl⟩ := run_split h
  obtain rfl := plain_of_inert hc (Option.isSome_of_eq_some hrest)
  have hstep : run x .plain ([c] ++ back) = some (t, k) := hrest
  rw [run_append, passes_singleton x hback, Option.bind_some, found, if_pos hx, Option.map_eq_some_iff] at hstep
  obtain ⟨r, -, heq⟩ := hstep
  have hk : 1 + r.2 = k := congrArg Prod.snd heq
  omega

/-! ## Occurrences in a value -/

mutual

/-- How often a code point stands in the strings of a value. -/
def Value.occurrences (x : ℕ) : Value F → ℕ
  | .str s => s.count x
  | .list xs => occurrencesList x xs
  | .dict entries => occurrencesEntries x entries
  | _ => 0

/-- The same for the items of an array. -/
def occurrencesList (x : ℕ) : List (Value F) → ℕ
  | [] => 0
  | v :: vs => v.occurrences x + occurrencesList x vs

/-- The same for the members of an object. -/
def occurrencesEntries (x : ℕ) : List (Str × Value F) → ℕ
  | [] => 0
  | (k, v) :: entries => k.count x + v.occurrences x + occurrencesEntries x entries

end

/-! ## What the scanner reads -/

/-- The text begins with one that is whole and has the character so often, and goes on with `rest`. -/
def Reads (x : ℕ) (cs rest : List Char) (n : ℕ) : Prop := ∃ used, cs = used ++ rest ∧ Passes x used n

theorem Reads.trans {as bs : List Char} (h : Reads x as bs m) (h' : Reads x bs cs n) :
    Reads x as cs (m + n) := by
  obtain ⟨used, rfl, hused⟩ := h
  obtain ⟨more, rfl, hmore⟩ := h'
  exact ⟨used ++ more, (List.append_assoc _ _ _).symm, hused.append hmore⟩

theorem Reads.cons (hc : c ≠ '\\') (h : Reads x cs rest n) :
    Reads x (c :: cs) rest (found x c.toNat + n) :=
  Reads.trans ⟨[c], rfl, passes_singleton x hc⟩ h

/-- The characters of the syntax. -/
def syntaxChars : List Char := " \t\n\r0123456789+-.eE,:[]\x7b\x7d\"nulltruefalseNaNInfinity".toList

/-- The code point is none of the syntax, and no surrogate. -/
structure Inner (x : ℕ) : Prop where
  notMem : ∀ c ∈ syntaxChars, c.toNat ≠ x
  lt : x < 0xd800

theorem inner_of_notMem (h : c ∉ syntaxChars) (hlt : c.toNat < 0xd800) : Inner c.toNat :=
  ⟨fun _ hd heq => h (Char.toNat_inj.mp heq ▸ hd), hlt⟩

variable {x : ℕ}

theorem Inner.passes (hx : Inner x) (h : ∀ c ∈ cs, c ∈ syntaxChars) : Passes x cs 0 := by
  induction cs with
  | nil => exact passes_nil x
  | cons c cs ih =>
    have hc : c ∈ syntaxChars := h c List.mem_cons_self
    have hback : c ≠ '\\' := by
      rintro rfl
      revert hc
      decide
    have hcount : found x c.toNat = 0 := if_neg (hx.notMem c hc)
    have htail := ih fun d hd => h d (List.mem_cons_of_mem _ hd)
    have hpass := (passes_singleton x hback).append htail
    rwa [hcount] at hpass

theorem Inner.reads (hx : Inner x) {used : List Char} (hcs : cs = used ++ rest)
    (h : ∀ c ∈ used, c ∈ syntaxChars) : Reads x cs rest 0 := ⟨used, hcs, hx.passes h⟩

theorem Inner.reads_char (hx : Inner x) (hc : c ∈ syntaxChars) (rest : List Char) :
    Reads x (c :: rest) rest 0 :=
  ⟨[c], rfl, hx.passes fun _ hd => List.mem_singleton.mp hd ▸ hc⟩

theorem reads_skipWs (hx : Inner x) (cs : List Char) : Reads x cs (skipWs cs) 0 := by
  refine hx.reads (List.takeWhile_append_dropWhile (p := isWs)).symm fun c hc => ?_
  have hws := List.mem_takeWhile_imp hc
  simp only [isWs, Bool.or_eq_true, beq_iff_eq] at hws
  rcases hws with ((rfl | rfl) | rfl) | rfl <;> decide

theorem passes_escape (x : ℕ) {e : Char} (he : unescape? e = some n) (hu : e ≠ 'u') :
    Passes x ['\\', e] (found x n) := by
  simp [Passes, run, EscState.step, he, hu]

theorem passes_hex4 (x : ℕ) {a b d : Char} (h : hex4? a b c d = some n) :
    Passes x ['\\', 'u', a, b, c, d] (found x n) := by
  simp only [hex4?, Option.bind_eq_bind, Option.bind_eq_some_iff, Option.pure_def, Option.some.injEq] at h
  obtain ⟨i, hi, j, hj, k, hk, l, hl, rfl⟩ := h
  have hvalue : (((0 * 16 + i) * 16 + j) * 16 + k) * 16 + l = i * 4096 + j * 256 + k * 16 + l := by ring
  simp [Passes, run, EscState.step, hi, hj, hk, hl, ← hvalue]

theorem map_eq_ok {ε : Type*} {α β : Type} {f : α → β} {m : Except ε α} {b : β} (h : m.map f = .ok b) :
    ∃ a, m = .ok a ∧ f a = b := by
  cases m with
  | error e => cases h
  | ok a => exact ⟨a, rfl, Except.ok.inj h⟩

theorem bind_eq_ok {ε : Type*} {α β : Type} {f : α → Except ε β} {m : Except ε α} {b : β} (h : m >>= f = .ok b) :
    ∃ a, m = .ok a ∧ f a = .ok b := by
  cases m with
  | error e => cases h
  | ok a => exact ⟨a, rfl, h⟩

theorem count_cons_found (x n : ℕ) (units : Str) : (n :: units).count x = found x n + units.count x := by
  rw [List.count_cons, found, Nat.add_comm]
  simp

theorem reads_scanUnits (hx : Inner x) {units : Str} (h : scanUnits cs = .ok (units, rest)) :
    Reads x cs rest (units.count x) := by
  fun_induction scanUnits cs generalizing units with
  | case1 => cases h
  | case2 cs =>
    cases h
    exact hx.reads_char (by decide) _
  | case3 => cases h
  | case4 a b c d cs n hn _ ih =>
    obtain ⟨r, hr, heq⟩ := map_eq_ok h
    cases heq
    rw [count_cons_found]
    exact Reads.trans ⟨['\\', 'u', a, b, c, d], rfl, passes_hex4 x hn⟩ (ih hr)
  | case5 => cases h
  | case6 => cases h
  | case7 e cs hu n hn _ ih =>
    obtain ⟨r, hr, heq⟩ := map_eq_ok h
    cases heq
    rw [count_cons_found]
    exact Reads.trans ⟨['\\', e], rfl, passes_escape x hn hu⟩ (ih hr)
  | case8 => cases h
  | case9 => cases h
  | case10 c cs hquote hback hcontrol ih =>
    obtain ⟨r, hr, heq⟩ := map_eq_ok h
    cases heq
    rw [count_cons_found]
    exact Reads.cons hback (ih hr)

theorem count_joinSurrogates (hx : Inner x) (s : Str) : (joinSurrogates s).count x = s.count x := by
  fun_induction joinSurrogates s with
  | case1 => rfl
  | case2 => rfl
  | case3 high low s h ih =>
    have hlt := hx.lt
    rw [count_cons_found, count_cons_found, count_cons_found, ih, found, found, found, if_neg, if_neg, if_neg] <;> omega
  | case4 high low s h ih => rw [count_cons_found, ih, ← count_cons_found]

theorem reads_scanString (hx : Inner x) {s : Str} (h : scanString cs = .ok (s, rest)) :
    Reads x cs rest (s.count x) := by
  obtain ⟨r, hr, heq⟩ := map_eq_ok h
  cases heq
  rw [count_joinSurrogates hx]
  exact reads_scanUnits hx hr

theorem mem_syntaxChars_of_isDigit (h : c.isDigit = true) : c ∈ syntaxChars := by
  have hall : ∀ n < 10, Char.ofNat (48 + n) ∈ syntaxChars := by decide
  rw [Char.isDigit, Bool.and_eq_true, decide_eq_true_eq, decide_eq_true_eq] at h
  have hlow : 48 ≤ c.toNat := h.1
  have hhigh : c.toNat ≤ 57 := h.2
  have hc := hall (c.toNat - 48) (by omega)
  rwa [Nat.add_sub_cancel' hlow, Char.ofNat_toNat] at hc

/-- The function takes characters of the syntax off the front of a text. -/
def Spans (f : List Char → List Char × List Char) : Prop :=
  ∀ cs, cs = (f cs).1 ++ (f cs).2 ∧ ∀ c ∈ (f cs).1, c ∈ syntaxChars

theorem Spans.reads {f : List Char → List Char × List Char} (hf : Spans f) (hx : Inner x) (cs : List Char) :
    Reads x cs (f cs).2 0 := hx.reads (hf cs).1 (hf cs).2

theorem spans_spanDigits : Spans spanDigits := by
  intro cs
  rw [spanDigits, List.span_eq_takeWhile_dropWhile]
  exact ⟨List.takeWhile_append_dropWhile.symm, fun c hc => mem_syntaxChars_of_isDigit (List.mem_takeWhile_imp hc)⟩

theorem spans_spanInt : Spans spanInt := by
  intro cs
  unfold spanInt
  split
  · exact ⟨rfl, List.forall_mem_singleton.mpr (by decide)⟩
  · exact spans_spanDigits _

theorem spans_spanFrac : Spans spanFrac := by
  intro cs
  unfold spanFrac
  split
  · rename_i cs
    split_ifs
    · exact ⟨rfl, fun c hc => absurd hc List.not_mem_nil⟩
    · refine ⟨congrArg _ (spans_spanDigits cs).1, fun c hc => ?_⟩
      rcases List.mem_cons.mp hc with rfl | hc
      · decide
      · exact (spans_spanDigits cs).2 c hc
  · exact ⟨rfl, fun c hc => absurd hc List.not_mem_nil⟩

theorem spans_spanSign : Spans spanSign := by
  intro cs
  unfold spanSign
  split
  · split_ifs with hsign
    · refine ⟨rfl, fun c hc => ?_⟩
      rw [List.mem_singleton.mp hc]
      rcases hsign with rfl | rfl <;> decide
    · exact ⟨rfl, fun c hc => absurd hc List.not_mem_nil⟩
  · exact ⟨rfl, fun c hc => absurd hc List.not_mem_nil⟩

theorem spans_spanExp : Spans spanExp := by
  intro cs
  unfold spanExp
  split
  · rename_i c cs
    dsimp only
    split_ifs with hexp
    · have hsign := spans_spanSign cs
      have hdigits := spans_spanDigits (spanSign cs).2
      refine ⟨?_, fun d hd => ?_⟩
      · rw [List.cons_append, List.append_assoc, ← hdigits.1, ← hsign.1]
      · rcases List.mem_cons.mp hd with rfl | hd
        · rcases hexp.1 with rfl | rfl <;> decide
        · exact (List.mem_append.mp hd).elim (hsign.2 d) (hdigits.2 d)
    · exact ⟨rfl, fun c hc => absurd hc List.not_mem_nil⟩
  · exact ⟨rfl, fun c hc => absurd hc List.not_mem_nil⟩

theorem spans_spanMinus : Spans spanMinus := by
  intro cs
  unfold spanMinus
  split
  · exact ⟨rfl, List.forall_mem_singleton.mpr (by decide)⟩
  · exact ⟨rfl, fun c hc => absurd hc List.not_mem_nil⟩

variable {I : Interpreter F} {v : Value F}

theorem reads_scanNumber (hx : Inner x)
    (h : scanNumber I cs = .ok (v, rest)) : Reads x cs rest (v.occurrences x) := by
  have hreads := (((spans_spanMinus.reads hx cs).trans (spans_spanInt.reads hx _)).trans
    (spans_spanFrac.reads hx _)).trans (spans_spanExp.reads hx _)
  unfold scanNumber at h
  dsimp only at h
  split_ifs at h
  all_goals
    cases h
    exact hreads

theorem reads_constant (hx : Inner x) {e : List Char × Value F}
    (h : (constants I).find? (fun e => e.1.isPrefixOf cs) = some e) :
    Reads x cs (cs.drop e.1.length) (e.2.occurrences x) := by
  have hmem := List.mem_of_find?_eq_some h
  have hpre := List.find?_some (p := fun e : List Char × Value F => e.1.isPrefixOf cs) h
  obtain ⟨rest, rfl⟩ := List.isPrefixOf_iff_prefix.mp hpre
  rw [List.drop_left]
  have hwords : ∀ word ∈ (constants I).map Prod.fst, word ⊆ syntaxChars :=
    (by decide : ∀ word ∈ ["null", "true", "false", "NaN", "Infinity", "-Infinity"].map String.toList,
      word ⊆ syntaxChars)
  have hzero : e.2.occurrences x = 0 := by
    simp only [constants, List.mem_cons, List.not_mem_nil, or_false] at hmem
    rcases hmem with rfl | rfl | rfl | rfl | rfl | rfl <;> rfl
  rw [hzero]
  exact hx.reads rfl (hwords e.1 (List.mem_map_of_mem hmem))

/-! ## Containers -/

/-- A scanner reads what it returns. -/
def ReadsValues (x : ℕ) (scan : List Char → Except LoadsError (Value F × List Char)) : Prop :=
  ∀ cs v rest, scan cs = .ok (v, rest) → Reads x cs rest (v.occurrences x)

variable {scan : List Char → Except LoadsError (Value F × List Char)}

theorem reads_scanItems (hx : Inner x) (hscan : ReadsValues x scan)
    {vs : List (Value F)} (h : scanItems scan n cs = .ok (vs, rest)) : Reads x cs rest (occurrencesList x vs) := by
  induction n generalizing cs vs with
  | zero => cases h
  | succ n ih =>
    obtain ⟨item, hitem, h⟩ := bind_eq_ok h
    have hfront := (hscan cs item.1 item.2 hitem).trans (reads_skipWs hx item.2)
    split at h
    · cases h
    · rename_i c more hmore
      rw [hmore] at hfront
      split_ifs at h with hend hcomma
      · cases h
        subst hend
        exact hfront.trans (hx.reads_char (by decide) _)
      · obtain ⟨r, hr, heq⟩ := map_eq_ok h
        cases heq
        subst hcomma
        exact ((hfront.trans (hx.reads_char (by decide) _)).trans (reads_skipWs hx more)).trans (ih hr)

theorem reads_scanArray (hx : Inner x) (hscan : ReadsValues x scan) : ReadsValues x (scanArray scan) := by
  intro cs v rest h
  have hfront := reads_skipWs hx cs
  unfold scanArray at h
  split at h
  · cases h
  · rename_i c more hmore
    rw [hmore] at hfront
    split_ifs at h with hend
    · cases h
      subst hend
      exact hfront.trans (hx.reads_char (by decide) _)
    · obtain ⟨r, hr, heq⟩ := map_eq_ok h
      cases heq
      have hall := hfront.trans (reads_scanItems hx hscan hr)
      rwa [Nat.zero_add] at hall

theorem reads_scanKey (hx : Inner x) {key : Str} (h : scanKey cs = .ok (key, rest)) :
    Reads x cs rest (key.count x) := by
  unfold scanKey at h
  split at h
  · cases h
  · rename_i c cs
    split_ifs at h with hquote
    obtain ⟨k, hk, h⟩ := bind_eq_ok h
    subst hquote
    have hfront := ((hx.reads_char (c := '"') (by decide) cs).trans
      (reads_scanString hx hk)).trans (reads_skipWs hx k.2)
    split at h
    · cases h
    · rename_i c more hmore
      rw [hmore] at hfront
      split_ifs at h with hcolon
      cases h
      subst hcolon
      have hall := (hfront.trans (hx.reads_char (by decide) _)).trans (reads_skipWs hx more)
      rwa [Nat.zero_add] at hall

variable {entries d : List (Str × Value F)}

theorem reads_scanMembers (hx : Inner x) (hscan : ReadsValues x scan)
    (h : scanMembers scan n cs = .ok (entries, rest)) :
    Reads x cs rest (occurrencesEntries x entries) := by
  induction n generalizing cs entries with
  | zero => cases h
  | succ n ih =>
    obtain ⟨key, hkey, h⟩ := bind_eq_ok h
    obtain ⟨value, hvalue, h⟩ := bind_eq_ok h
    have hfront := ((reads_scanKey hx hkey).trans (hscan key.2 value.1 value.2 hvalue)).trans
      (reads_skipWs hx value.2)
    split at h
    · cases h
    · rename_i c more hmore
      rw [hmore] at hfront
      split_ifs at h with hend hcomma
      · cases h
        subst hend
        exact hfront.trans (hx.reads_char (by decide) _)
      · obtain ⟨r, hr, heq⟩ := map_eq_ok h
        cases heq
        subst hcomma
        exact ((hfront.trans (hx.reads_char (by decide) _)).trans (reads_skipWs hx more)).trans (ih hr)

theorem reads_scanObject (hx : Inner x) (hscan : ReadsValues x scan) : ReadsValues x (scanObject scan) := by
  intro cs v rest h
  have hfront := reads_skipWs hx cs
  unfold scanObject at h
  split at h
  · cases h
  · rename_i c more hmore
    rw [hmore] at hfront
    split_ifs at h with hend
    · cases h
      subst hend
      exact hfront.trans (hx.reads_char (by decide) _)
    · obtain ⟨r, hr, heq⟩ := map_eq_ok h
      cases heq
      have hall := hfront.trans (reads_scanMembers hx hscan hr)
      rwa [Nat.zero_add] at hall

variable {object array : List Char → Except LoadsError (Value F × List Char)}

theorem reads_scanWith (hx : Inner x)
    (hobject : ReadsValues x object) (harray : ReadsValues x array) : ReadsValues x (scanWith I object array) := by
  intro cs v rest h
  unfold scanWith at h
  split at h
  · cases h
  · rename_i c cs
    have hone : ∀ d ∈ syntaxChars, c = d → ∀ n, Reads x cs rest n → Reads x (c :: cs) rest n := by
      rintro d hd rfl n hn
      have hall := (hx.reads_char hd cs).trans hn
      rwa [Nat.zero_add] at hall
    split_ifs at h with hquote hbrace hbracket
    · obtain ⟨r, hr, heq⟩ := map_eq_ok h
      cases heq
      exact hone _ (by decide) hquote _ (reads_scanString hx hr)
    · exact hone _ (by decide) hbrace _ (hobject cs v rest h)
    · exact hone _ (by decide) hbracket _ (harray cs v rest h)
    · split at h
      · rename_i e he
        cases h
        exact reads_constant hx he
      · exact reads_scanNumber hx h

/-- **What the scanner reads.** -/
theorem reads_scanOnce (hx : Inner x) (depth : ℕ) : ReadsValues x (scanOnce I depth) := by
  induction depth with
  | zero => exact reads_scanWith hx (fun _ _ _ h => by cases h) (fun _ _ _ h => by cases h)
  | succ depth ih => exact reads_scanWith hx (reads_scanObject hx ih) (reads_scanArray hx ih)

/-- **In a document the character stands as often as in its value.** -/
theorem occurrences_of_parse (hx : Inner x) (h : parse I cs = .ok v) :
    Passes x cs (v.occurrences x) := by
  unfold parse at h
  split_ifs at h
  obtain ⟨value, hvalue, h⟩ := bind_eq_ok h
  split_ifs at h with hrest
  cases h
  have hall := ((reads_skipWs hx cs).trans (reads_scanOnce hx _ _ _ _ hvalue)).trans (reads_skipWs hx value.2)
  rw [hrest] at hall
  obtain ⟨used, rfl, hused⟩ := hall
  rw [List.append_nil]
  rwa [Nat.zero_add] at hused

/-! ## The loops of the scanner

The number of items and members is bounded by the number of characters; the bound is never reached. -/

theorem Reads.length_le (h : Reads x cs rest n) : rest.length ≤ cs.length := by
  obtain ⟨used, rfl, -⟩ := h
  rw [List.length_append]
  exact Nat.le_add_left _ _

theorem length_scanNumber_lt (hx : Inner x)
    (h : scanNumber I cs = .ok (v, rest)) : rest.length < cs.length := by
  have hminus := (spans_spanMinus.reads hx cs).length_le
  have hint := (spans_spanInt (spanMinus cs).2).1
  have htail := ((spans_spanFrac.reads hx (spanInt (spanMinus cs).2).2).trans (spans_spanExp.reads hx _)).length_le
  have hlength := congrArg List.length hint
  rw [List.length_append] at hlength
  unfold scanNumber at h
  dsimp only at h
  split_ifs at h with hnone
  all_goals
    have hpos := List.length_pos_iff.mpr hnone
    cases h
    omega

theorem length_scanWith_lt (hx : Inner x)
    (hobject : ReadsValues x object) (harray : ReadsValues x array)
    (h : scanWith I object array cs = .ok (v, rest)) : rest.length < cs.length := by
  unfold scanWith at h
  split at h
  · cases h
  · rename_i c cs
    rw [List.length_cons, Nat.lt_succ_iff]
    split_ifs at h
    · obtain ⟨r, hr, heq⟩ := map_eq_ok h
      cases heq
      exact (reads_scanString hx hr).length_le
    · exact (hobject cs v rest h).length_le
    · exact (harray cs v rest h).length_le
    · split at h
      · rename_i e he
        have hwords : ∀ word ∈ (constants I).map Prod.fst, 0 < word.length :=
          (by decide : ∀ word ∈ ["null", "true", "false", "NaN", "Infinity", "-Infinity"].map String.toList,
            0 < word.length)
        have hpos := hwords e.1 (List.mem_map_of_mem (List.mem_of_find?_eq_some he))
        cases h
        rw [List.length_drop, List.length_cons]
        omega
      · exact Nat.lt_succ_iff.mp (length_scanNumber_lt hx h)

theorem length_scanOnce_lt (hx : Inner x) (depth : ℕ)
    (h : scanOnce I depth cs = .ok (v, rest)) : rest.length < cs.length := by
  cases depth with
  | zero => exact length_scanWith_lt hx (fun _ _ _ h => by cases h) (fun _ _ _ h => by cases h) h
  | succ depth =>
    exact length_scanWith_lt hx (reads_scanObject hx (reads_scanOnce hx depth))
      (reads_scanArray hx (reads_scanOnce hx depth)) h

theorem skipWs_length_le (cs : List Char) : (skipWs cs).length ≤ cs.length := (List.dropWhile_sublist _).length_le

/-- **The bound on the items is never reached.** -/
theorem scanItems_of_lt (hscan : ∀ cs v rest, scan cs = .ok (v, rest) → rest.length < cs.length) (hm : cs.length < m)
    (hn : cs.length < n) : scanItems scan m cs = scanItems scan n cs := by
  induction m generalizing n cs with
  | zero => exact absurd hm (Nat.not_lt_zero _)
  | succ m ih =>
    cases n with
    | zero => exact absurd hn (Nat.not_lt_zero _)
    | succ n =>
      rw [scanItems, scanItems]
      cases hitem : scan cs with
      | error e => rfl
      | ok item =>
        have hshorter := hscan cs item.1 item.2 hitem
        have hws := skipWs_length_le item.2
        dsimp only [bind, Except.bind]
        cases hmore : skipWs item.2 with
        | nil => rfl
        | cons c more =>
          have hrest := skipWs_length_le more
          rw [hmore, List.length_cons] at hws
          dsimp only
          rw [ih (n := n) (by omega) (by omega)]

/-- **The bound on the members is never reached.** -/
theorem scanMembers_of_lt (hx : Inner x) (hscan : ∀ cs v rest, scan cs = .ok (v, rest) → rest.length < cs.length)
    (hm : cs.length < m) (hn : cs.length < n) :
    scanMembers scan m cs = scanMembers scan n cs := by
  induction m generalizing n cs with
  | zero => exact absurd hm (Nat.not_lt_zero _)
  | succ m ih =>
    cases n with
    | zero => exact absurd hn (Nat.not_lt_zero _)
    | succ n =>
      rw [scanMembers, scanMembers]
      cases hkey : scanKey cs with
      | error e => rfl
      | ok key =>
        have hbehind := (reads_scanKey hx hkey).length_le
        change (scan key.2 >>= _) = (scan key.2 >>= _)
        cases hvalue : scan key.2 with
        | error e => rfl
        | ok value =>
          have hshorter := hscan key.2 value.1 value.2 hvalue
          have hws := skipWs_length_le value.2
          dsimp only [bind, Except.bind]
          cases hmore : skipWs value.2 with
          | nil => rfl
          | cons c more =>
            have hrest := skipWs_length_le more
            rw [hmore, List.length_cons] at hws
            dsimp only
            rw [ih (n := n) (by omega) (by omega)]

/-! ## Dictionaries -/

/-- A member that takes the place of another one adds not more than itself. -/
theorem occurrencesEntries_setItem_le (x : ℕ) (k : Str) (v : Value F) (d : List (Str × Value F)) :
    occurrencesEntries x (PyDict.setItem k v d) ≤ occurrencesEntries x d + (k.count x + v.occurrences x) := by
  induction d with
  | nil => simp [PyDict.setItem, occurrencesEntries]
  | cons e d ih =>
    rw [PyDict.setItem]
    split_ifs with hkey
    · rw [occurrencesEntries, occurrencesEntries]
      omega
    · rw [occurrencesEntries, occurrencesEntries]
      omega

theorem occurrencesEntries_foldl_le (x : ℕ) (entries d : List (Str × Value F)) :
    occurrencesEntries x (entries.foldl (fun d e => PyDict.setItem e.1 e.2 d) d) ≤
      occurrencesEntries x d + occurrencesEntries x entries := by
  induction entries generalizing d with
  | nil => exact Nat.le_refl _
  | cons e entries ih =>
    have hstep := occurrencesEntries_setItem_le x e.1 e.2 d
    have hrest := ih (PyDict.setItem e.1 e.2 d)
    rw [List.foldl_cons, occurrencesEntries]
    omega

mutual

/-- **Dictionaries keep at most what was written.** -/
theorem occurrences_settle_le (x : ℕ) : ∀ v : Value F, v.settle.occurrences x ≤ v.occurrences x
  | .none | .bool _ | .int _ | .float _ | .str _ => Nat.le_refl _
  | .list xs => by
    rw [Value.settle, Value.occurrences, Value.occurrences]
    exact occurrencesList_settle_le x xs
  | .dict entries => by
    rw [Value.settle, Value.occurrences, Value.occurrences]
    refine (occurrencesEntries_foldl_le x _ _).trans ?_
    rw [occurrencesEntries, Nat.zero_add]
    exact occurrencesEntries_settle_le x entries

theorem occurrencesList_settle_le (x : ℕ) : ∀ vs : List (Value F),
    occurrencesList x (settleList vs) ≤ occurrencesList x vs
  | [] => Nat.le_refl _
  | v :: vs => by
    rw [settleList, occurrencesList, occurrencesList]
    exact Nat.add_le_add (occurrences_settle_le x v) (occurrencesList_settle_le x vs)

theorem occurrencesEntries_settle_le (x : ℕ) : ∀ entries : List (Str × Value F),
    occurrencesEntries x (settleEntries entries) ≤ occurrencesEntries x entries
  | [] => Nat.le_refl _
  | (k, v) :: entries => by
    rw [settleEntries, occurrencesEntries, occurrencesEntries]
    have hv := occurrences_settle_le x v
    have hrest := occurrencesEntries_settle_le x entries
    omega

end

theorem setItem_of_notMem {k : Str} (v : Value F) (h : k ∉ d.map Prod.fst) :
    PyDict.setItem k v d = d ++ [(k, v)] := by
  induction d with
  | nil => rfl
  | cons e d ih =>
    rw [List.map_cons, List.mem_cons, not_or] at h
    rw [PyDict.setItem, if_neg (Ne.symm h.1), ih h.2, List.cons_append]

theorem foldl_setItem_of_nodup (h : ((d ++ entries).map Prod.fst).Nodup) :
    entries.foldl (fun d e => PyDict.setItem e.1 e.2 d) d = d ++ entries := by
  induction entries generalizing d with
  | nil => rw [List.foldl_nil, List.append_nil]
  | cons e entries ih =>
    have hnot : e.1 ∉ d.map Prod.fst := by
      rw [List.map_append, List.map_cons, List.nodup_append] at h
      exact fun hmem => h.2.2 _ hmem _ List.mem_cons_self rfl
    rw [List.foldl_cons, setItem_of_notMem e.2 hnot, ih (by rwa [List.append_assoc]), List.append_assoc]
    rfl

mutual

/-- **Where no key is repeated, nothing is lost.** -/
theorem settle_of_keyed : ∀ {v : Value F}, v.keyed = true → v.settle = v
  | .none, _ | .bool _, _ | .int _, _ | .float _, _ | .str _, _ => rfl
  | .list xs, h => by
    rw [Value.keyed] at h
    rw [Value.settle, settleList_of_keyed h]
  | .dict entries, h => by
    rw [Value.keyed, Bool.and_eq_true, decide_eq_true_eq] at h
    rw [Value.settle, settleEntries_of_keyed h.2, foldl_setItem_of_nodup (by simpa using h.1), List.nil_append]

theorem settleList_of_keyed : ∀ {vs : List (Value F)}, keyedList vs = true → settleList vs = vs
  | [], _ => rfl
  | v :: vs, h => by
    rw [keyedList, Bool.and_eq_true] at h
    rw [settleList, settle_of_keyed h.1, settleList_of_keyed h.2]

theorem settleEntries_of_keyed : ∀ {entries : List (Str × Value F)}, keyedEntries entries = true →
    settleEntries entries = entries
  | [], _ => rfl
  | (k, v) :: entries, h => by
    rw [keyedEntries, Bool.and_eq_true] at h
    rw [settleEntries, settle_of_keyed h.1, settleEntries_of_keyed h.2]

end

end PyLoads
