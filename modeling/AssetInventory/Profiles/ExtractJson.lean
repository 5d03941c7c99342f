import AssetInventory.Lib.Escapes
import AssetInventory.Lib.Patterns
import AssetInventory.Lib.PyText

/-!
# The object in an answer of the LLM

The diagram routes ask an LLM for one JSON object and look for it in the answer: the think blocks go, the text is cut at
its fences, and of each part, and then of the whole, what stands from the first brace to the last is decoded.  None of
this knows of strings, in which there may be tags, fences and braces.

* `extractJson`: the search.
* `Standard`, `Holds`: a text of an object, and an answer that has it between two texts or in a fenced block.
* `extractJson_iff`: the object of such an answer is found exactly when its text has no think block and the parts that
  its fences cut off are refused.
* `recovers_iff`: when an answer is read as it should be.
-/

namespace AssetInventory.DiagramAi

open PyJson PyLoads Patterns

/-! ## The search -/

/-- The tags of a think block. -/
def thinkOpen : List Char := "<think>".toList

/-- The closing tag. -/
def thinkClose : List Char := "</think>".toList

/-- The fence of a block of code. -/
def fence : List Char := "```".toList

/-- `s.strip()`. -/
def stripChars (cs : List Char) : List Char := ((cs.dropWhile isSpace).reverse.dropWhile isSpace).reverse

/-- `part.split("\n", 1)[-1]`. -/
def behindFirstLine (part : List Char) : List Char :=
  match cutAt ['\n'] part with
  | some r => r.2
  | none => part

/-- The block of a part: a line with the label `json` does not belong to it. -/
def blockOf (part : List Char) : List Char :=
  if "json".toList.isPrefixOf ((part.dropWhile isSpace).map Char.toLower) then behindFirstLine part else part

/-- The blocks between the fences that have an opening brace. -/
def fencedBlocks (text : List Char) : List (List Char) :=
  if fence <:+: text then ((split fence text).filter fun part => decide ('\x7b' ∈ part)).map blockOf else []

/-- `cand[start : end + 1]`, from the first opening brace to the last closing one. -/
def outer (cand : List Char) : Option (List Char) :=
  match ((cand.dropWhile (· ≠ '\x7b')).reverse.dropWhile (· ≠ '\x7d')).reverse with
  | [] => none
  | piece => some piece

/-- The exceptions of `_extract_json`. -/
inductive ExtractError where
  | valueError
  | recursionError
  deriving DecidableEq

section Search

variable {F : Type} (I : Interpreter F)

/-- The first piece that is JSON. -/
def firstJson : List (List Char) → Except ExtractError (Value F)
  | [] => .error .valueError
  | piece :: pieces =>
    match loads I piece with
    | .ok v => .ok v
    | .error .jsonDecode => firstJson pieces
    | .error .tooManyDigits => .error .valueError
    | .error .recursion => .error .recursionError

/-- The answer without its think blocks. -/
def answerText (content : List Char) : List Char := stripChars (dropBlocks thinkOpen thinkClose content)

/-- The pieces of the blocks between the fences. -/
def fencedPieces (text : List Char) : List (List Char) := (fencedBlocks text).filterMap outer

/-- The pieces that are tried. -/
def pieces (text : List Char) : List (List Char) := (fencedBlocks text ++ [text]).filterMap outer

def extractJson (content : List Char) : Except ExtractError (Value F) := firstJson I (pieces (answerText content))

/-! ## What is expected -/

/-- `json.loads` refuses the piece. -/
def Refused (piece : List Char) : Prop := loads I piece = .error .jsonDecode

/-- Prose without braces, backticks and think tags. -/
structure Prose (text : List Char) : Prop where
  braces : '\x7b' ∉ text ∧ '\x7d' ∉ text
  ticks : '`' ∉ text
  tags : ¬thinkOpen <:+: text ∧ ¬thinkClose <:+: text

/-- A text of the object, with any white space, escapes and notation of numbers that are allowed in it. -/
structure Standard (s : List Char) (o : Value F) : Prop where
  parsed : parse I s = .ok o
  keyed : o.keyed = true
  braced : ∃ m, s = '\x7b' :: (m ++ ['\x7d'])

/-- A fenced block, with or without a label. -/
def fencedBlock (label : Bool) (s : List Char) : List Char :=
  fence ++ (if label then "json".toList else []) ++ '\n' :: (s ++ '\n' :: fence)

/-- The answer has the text between two pieces of prose, as it is or in a fenced block. -/
inductive Holds (content s : List Char) : Prop where
  | plain (p q : List Char) (hp : Prose p) (hq : Prose q) (h : content = p ++ (s ++ q))
  | fenced (label : Bool) (p q : List Char) (hp : Prose p) (hq : Prose q) (h : content = p ++ (fencedBlock label s ++ q))

/-- No stretch of the answer is an object. -/
def NoObject (content : List Char) : Prop :=
  ∀ piece, piece <:+: content → ∀ entries, loads I piece ≠ .ok (.dict entries)

/-- **An answer is read as it should be.** -/
structure Recovers (content : List Char) : Prop where
  object : ∀ s o, Standard I s o → Holds content s → extractJson I content = .ok o
  none : NoObject I content → extractJson I content = .error .valueError
  dict : ∀ v, extractJson I content = .ok v → ∃ entries, v = .dict entries

/-- The text can be told from what is around it and in it. -/
structure Clear (content s : List Char) : Prop where
  noThink : ¬HasBlock thinkOpen thinkClose s
  refused : ∀ piece ∈ fencedPieces (answerText content), piece = s ∨ Refused I piece

/-- The first piece that is not refused, if there is one, has an integer with too many digits. -/
def Unread (tried : List (List Char)) : Prop :=
  ∀ front piece back, tried = front ++ piece :: back → (∀ f ∈ front, Refused I f) →
    Refused I piece ∨ loads I piece = .error .tooManyDigits

/-- When this is so. -/
structure Readable (content : List Char) : Prop where
  object : ∀ s o, Standard I s o → Holds content s → Clear I content s
  none : NoObject I content → Unread I (pieces (answerText content))

end Search

/-! ## Pieces -/

section Pieces

variable {F : Type} {I : Interpreter F}

theorem dropWhile_append_cons {α : Type*} {p : α → Bool} {c : α} (hc : p c = false) (xs ys : List α) :
    (xs ++ c :: ys).dropWhile p = xs.dropWhile p ++ c :: ys := by
  induction xs with
  | nil => rw [List.nil_append, List.dropWhile_cons_of_neg (by simp [hc]), List.dropWhile_nil, List.nil_append]
  | cons d xs ih =>
    by_cases hd : p d = true
    · rw [List.cons_append, List.dropWhile_cons_of_pos hd, List.dropWhile_cons_of_pos hd, ih]
    · rw [List.cons_append, List.dropWhile_cons_of_neg hd, List.dropWhile_cons_of_neg hd, List.cons_append]

theorem dropWhile_of_notMem {α : Type*} {p : α → Bool} {xs : List α} (h : ∀ d ∈ xs, p d = true) :
    xs.dropWhile p = [] := List.dropWhile_eq_nil_iff.mpr h

variable {piece p q m text s content : List Char}

theorem outer_eq_some {cand : List Char} (h : outer cand = some piece) :
    piece <:+: cand ∧ ∃ m, piece = '\x7b' :: (m ++ ['\x7d']) := by
  unfold outer at h
  generalize htail : cand.dropWhile (· ≠ '\x7b') = tail at h
  have hsuffix : tail <:+ cand := htail ▸ List.dropWhile_suffix _
  generalize hrev : tail.reverse.dropWhile (· ≠ '\x7d') = rev at h
  have hpre : rev.reverse <+: tail := by
    rw [← List.reverse_suffix, List.reverse_reverse, ← hrev]
    exact List.dropWhile_suffix _
  cases rev with
  | nil => cases h
  | cons close inner =>
    have hclose : close = '\x7d' := by
      have hhead := List.head_dropWhile_not (p := (· ≠ '\x7d')) (l := tail.reverse) (by rw [hrev]; exact List.cons_ne_nil _ _)
      simp only [hrev, List.head_cons] at hhead
      simpa using hhead
    subst hclose
    rw [List.reverse_cons] at h hpre
    cases tail with
    | nil => simp at hrev
    | cons opening rest =>
      have hopen : opening = '\x7b' := by
        have hhead := List.head_dropWhile_not (p := (· ≠ '\x7b')) (l := cand) (by rw [htail]; exact List.cons_ne_nil _ _)
        simp only [htail, List.head_cons] at hhead
        simpa using hhead
      subst hopen
      have hpiece : piece = inner.reverse ++ ['\x7d'] := by
        cases hinner : inner.reverse ++ ['\x7d'] with
        | nil => simp at hinner
        | cons d ds =>
          rw [hinner] at h
          exact (Option.some.inj h).symm
      refine ⟨hpiece ▸ hpre.isInfix.trans hsuffix.isInfix, ?_⟩
      rw [hpiece]
      cases hinner : inner.reverse with
      | nil =>
        rw [hinner, List.nil_append, List.cons_prefix_cons] at hpre
        exact absurd hpre.1 (by decide)
      | cons d m =>
        rw [hinner, List.cons_append, List.cons_prefix_cons] at hpre
        exact ⟨m, by rw [hpre.1, List.cons_append]⟩

theorem outer_append (hp : '\x7b' ∉ p) (hq : '\x7d' ∉ q) (m : List Char) :
    outer (p ++ '\x7b' :: (m ++ '\x7d' :: q)) = some ('\x7b' :: (m ++ ['\x7d'])) := by
  have hfront : ∀ d ∈ p, decide (d ≠ '\x7b') = true := fun d hd => decide_eq_true (fun h => hp (h ▸ hd))
  have hback : ∀ d ∈ q.reverse, decide (d ≠ '\x7d') = true := fun d hd =>
    decide_eq_true (fun h => hq (h ▸ List.mem_reverse.mp hd))
  have hreverse : ('\x7b' :: (m ++ '\x7d' :: q)).reverse = q.reverse ++ '\x7d' :: ('\x7b' :: m).reverse := by simp
  rw [outer, dropWhile_append_cons (by decide), dropWhile_of_notMem hfront, List.nil_append, hreverse,
    dropWhile_append_cons (by decide), dropWhile_of_notMem hback, List.nil_append, List.reverse_cons,
    List.reverse_reverse]
  rfl

theorem infix_middle (hp : '\x7b' ∉ p) (hq : '\x7d' ∉ q)
    (hpiece : ∃ n, piece = '\x7b' :: (n ++ ['\x7d'])) (h : piece <:+: p ++ (m ++ q)) : piece <:+: m := by
  obtain ⟨n, rfl⟩ := hpiece
  obtain ⟨front, back, heq⟩ := h
  have hfront : ∃ a, m ++ q = a ++ ('\x7b' :: (n ++ ['\x7d'])) ++ back := by
    rw [List.append_assoc] at heq
    rcases List.append_eq_append_iff.mp heq with ⟨a, hfront, hrest⟩ | ⟨a, hfront, hrest⟩
    · cases a with
      | nil => exact ⟨[], by rw [List.nil_append] at hrest ⊢; exact hrest.symm⟩
      | cons c a =>
        rw [List.cons_append, List.cons_append, List.cons.injEq] at hrest
        exact absurd (hfront ▸ List.mem_append_right _ (hrest.1 ▸ List.mem_cons_self)) hp
    · exact ⟨a, by rw [hrest, List.append_assoc]⟩
  obtain ⟨a, ha⟩ := hfront
  rcases List.append_eq_append_iff.mp ha.symm with ⟨c, hwhole, hrest⟩ | ⟨c, hwhole, hrest⟩
  · exact ⟨a, c, hwhole.symm⟩
  · rcases List.eq_nil_or_concat c with rfl | ⟨c, d, rfl⟩
    · exact ⟨a, [], by rw [List.append_nil, hwhole, List.append_nil]⟩
    · have hlast : (a ++ '\x7b' :: n) ++ ['\x7d'] = (m ++ c) ++ [d] := by simpa using hwhole
      have hd : '\x7d' = d := (List.cons.inj (List.append_inj' hlast rfl).2).1
      exact absurd (by rw [hrest, hd]; simp) hq

theorem blockOf_suffix (part : List Char) : blockOf part <:+ part := by
  unfold blockOf behindFirstLine
  split_ifs
  · split
    · rename_i r hr
      exact ⟨r.1 ++ ['\n'], ((cutAt_eq_some hr).1).symm⟩
    · exact List.suffix_refl part
  · exact List.suffix_refl part

theorem fence_ne_nil : fence ≠ [] := by decide

theorem thinkOpen_ne_nil : thinkOpen ≠ [] := by decide

theorem thinkClose_ne_nil : thinkClose ≠ [] := by decide

theorem of_mem_fencedPieces (h : piece ∈ fencedPieces text) :
    piece <:+: text ∧ ¬fence <:+: piece ∧ ∃ m, piece = '\x7b' :: (m ++ ['\x7d']) := by
  obtain ⟨block, hblock, houter⟩ := List.mem_filterMap.mp h
  obtain ⟨hsub, hbraced⟩ := outer_eq_some houter
  unfold fencedBlocks at hblock
  split_ifs at hblock
  · obtain ⟨part, hpart, rfl⟩ := List.mem_map.mp hblock
    obtain ⟨hpart, hfence⟩ := parts_of_split fence_ne_nil text part (List.mem_of_mem_filter hpart)
    have hwhole := hsub.trans (blockOf_suffix part).isInfix
    exact ⟨hwhole.trans hpart, fun hf => hfence (hf.trans hwhole), hbraced⟩
  · cases hblock

/-! ## The answer without its think blocks -/

/-- Text without braces and think tags. -/
structure Quiet (text : List Char) : Prop where
  braces : '\x7b' ∉ text ∧ '\x7d' ∉ text
  tags : ¬thinkOpen <:+: text ∧ ¬thinkClose <:+: text

/-- **The think blocks of such an answer** are those of its object. -/
theorem answerText_of_quiet (hp : Quiet p) (hq : Quiet q) (m : List Char) :
    answerText (p ++ ('\x7b' :: (m ++ ['\x7d']) ++ q)) =
      p.dropWhile isSpace ++ ('\x7b' :: (dropBlocks thinkOpen thinkClose m ++ ['\x7d']) ++
        (q.reverse.dropWhile isSpace).reverse) := by
  have hshape : ∀ n q' : List Char, '\x7b' :: (n ++ ['\x7d']) ++ q' = '\x7b' :: (n ++ '\x7d' :: q') := by simp
  have hdrop : dropBlocks thinkOpen thinkClose (p ++ '\x7b' :: (m ++ '\x7d' :: q)) =
      p ++ '\x7b' :: (dropBlocks thinkOpen thinkClose m ++ '\x7d' :: q) := by
    rw [append_cons_dropBlocks thinkOpen_ne_nil (by decide) hp.tags.1,
      dropBlocks_append_cons thinkOpen_ne_nil thinkClose_ne_nil (by decide) (by decide) hq.tags.2]
  have hreverse : ∀ n : List Char, (p.dropWhile isSpace ++ '\x7b' :: (n ++ '\x7d' :: q)).reverse =
      q.reverse ++ '\x7d' :: (p.dropWhile isSpace ++ '\x7b' :: n).reverse := by simp
  rw [hshape, hshape, answerText, hdrop, stripChars, dropWhile_append_cons (by decide), hreverse,
    dropWhile_append_cons (by decide)]
  simp

theorem dropBlocks_braced (m : List Char) : dropBlocks thinkOpen thinkClose ('\x7b' :: (m ++ ['\x7d'])) =
    '\x7b' :: (dropBlocks thinkOpen thinkClose m ++ ['\x7d']) := by
  have hopen : dropBlocks thinkOpen thinkClose ([] ++ '\x7b' :: (m ++ ['\x7d'])) =
      [] ++ '\x7b' :: dropBlocks thinkOpen thinkClose (m ++ ['\x7d']) :=
    append_cons_dropBlocks thinkOpen_ne_nil (by decide) (by decide)
  have hclose : dropBlocks thinkOpen thinkClose (m ++ '\x7d' :: []) = dropBlocks thinkOpen thinkClose m ++ ['\x7d'] :=
    dropBlocks_append_cons thinkOpen_ne_nil thinkClose_ne_nil (by decide) (by decide) (by decide) m
  rw [List.nil_append, List.nil_append] at hopen
  rw [hopen, hclose]

/-- **Without a block there is less to be found of a character of its tags.** -/
theorem run_drops {t : List Char} (h : Drops thinkOpen thinkClose s t) {u v : EscState} {n : ℕ}
    (hrun : run '<'.toNat u s = some (v, n)) :
    ∃ k, run '<'.toNat u t = some (v, k) ∧ k ≤ n ∧ (t.length < s.length → k < n) := by
  induction h generalizing u n with
  | nil => exact ⟨n, hrun, le_rfl, fun h => absurd h (lt_irrefl _)⟩
  | keep c h ih =>
    rw [run, Option.bind_eq_some_iff] at hrun
    obtain ⟨r, hstep, hrun⟩ := hrun
    obtain ⟨q, hq, heq⟩ := Option.map_eq_some_iff.mp hrun
    cases heq
    obtain ⟨k, hk, hle, hlt⟩ := ih hq
    refine ⟨r.2 + k, ?_, Nat.add_le_add_left hle _, fun h => Nat.add_lt_add_left (hlt ?_) _⟩
    · rw [run, hstep, Option.bind_some, hk]
      rfl
    · simpa using h
  | block inner h ih =>
    -- the tags begin outside an escape, and have none
    have hopen : u = .plain := plain_of_inert (c := '<') (by decide) (Option.isSome_of_eq_some hrun)
    subst hopen
    obtain ⟨a, i, j, -, hinner, rfl⟩ := run_split hrun
    obtain ⟨b, i', j', -, hclose, rfl⟩ := run_split hinner
    have hplain : b = .plain := plain_of_inert (c := '<') (by decide) (Option.isSome_of_eq_some hclose)
    subst hplain
    obtain ⟨d, i'', j'', htag, hrest, rfl⟩ := run_split hclose
    have hpass : run '<'.toNat .plain thinkClose = some (.plain, 1) := by decide
    rw [hpass, Option.some.injEq, Prod.mk.injEq] at htag
    obtain ⟨rfl, rfl⟩ := htag
    obtain ⟨k, hk, hle, -⟩ := ih hrest
    exact ⟨k, hk, by omega, fun _ => by omega⟩

/-! ## What is decoded -/

theorem inner_lt : Inner '<'.toNat := inner_of_notMem (by decide) (by decide)

theorem inner_tick : Inner '`'.toNat := inner_of_notMem (by decide) (by decide)

variable {o v : Value F}

theorem Standard.loads_eq (h : Standard I s o) : loads I s = .ok o := by
  rw [loads, h.parsed, Except.map, settle_of_keyed h.keyed]

/-- A piece of a text has not more of a character than is counted in the text. -/
theorem occurrences_le_of_infix {x n : ℕ} (hx : Inner x) (htext : Passes x text n)
    (hsub : piece <:+: text) (hbraced : ∃ m, piece = '\x7b' :: (m ++ ['\x7d']))
    (hv : loads I piece = .ok v) : v.occurrences x ≤ n := by
  obtain ⟨w, hw, rfl⟩ := map_eq_ok hv
  obtain ⟨m, rfl⟩ := hbraced
  obtain ⟨front, back, rfl⟩ := hsub
  rw [List.append_assoc] at htext
  obtain ⟨i, j, -, -, rfl⟩ := htext.around (by decide) (occurrences_of_parse hx hw)
  have hle := occurrences_settle_le x w
  omega

theorem occurrences_lt_of_fence {n : ℕ} (htext : Passes '`'.toNat text n)
    (hsub : piece <:+: text) (hbraced : ∃ m, piece = '\x7b' :: (m ++ ['\x7d'])) (hfence : fence <:+: text)
    (hnot : ¬fence <:+: piece) (hv : loads I piece = .ok v) : v.occurrences '`'.toNat < n := by
  obtain ⟨w, hw, rfl⟩ := map_eq_ok hv
  obtain ⟨m, rfl⟩ := hbraced
  obtain ⟨front, back, rfl⟩ := hsub
  have hshape : front ++ '\x7b' :: (m ++ ['\x7d']) ++ back = front ++ '\x7b' :: (m ++ '\x7d' :: back) := by simp
  rw [List.append_assoc] at htext
  obtain ⟨i, j, hfront, hback, rfl⟩ := htext.around (by decide) (occurrences_of_parse inner_tick hw)
  have hle := occurrences_settle_le '`'.toNat w
  have hmem : ∀ cs, fence <:+: cs → '`' ∈ cs := fun cs h => h.subset (by decide)
  rw [hshape, infix_append_cons_iff (by decide), infix_append_cons_iff (by decide)] at hfence
  rcases hfence with hfence | hfence | hfence
  · have hpos := pos_of_mem hfront (by decide) (by decide) rfl (hmem front hfence)
    omega
  · exact absurd (hfence.trans ⟨['\x7b'], ['\x7d'], by simp⟩) hnot
  · have hpos := pos_of_mem hback (by decide) (by decide) rfl (hmem back hfence)
    omega

/-! ## The search through the pieces -/

theorem firstJson_append_of_not_refused {front rest : List (List Char)} (h : ∃ f ∈ front, ¬Refused I f) :
    firstJson I (front ++ rest) = firstJson I front := by
  induction front with
  | nil =>
    obtain ⟨f, hf, -⟩ := h
    cases hf
  | cons f front ih =>
    rw [List.cons_append, firstJson, firstJson]
    by_cases hrefused : Refused I f
    · have hf : loads I f = .error .jsonDecode := hrefused
      obtain ⟨g, hg, hnot⟩ := h
      rcases List.mem_cons.mp hg with rfl | hg
      · exact absurd hrefused hnot
      · rw [hf]
        exact ih ⟨g, hg, hnot⟩
    · cases hf : loads I f with
      | ok v => rfl
      | error e =>
        cases e with
        | jsonDecode => exact absurd hf hrefused
        | tooManyDigits => rfl
        | recursion => rfl

theorem exists_of_firstJson {tried : List (List Char)} (h : firstJson I tried = .ok v) :
    ∃ piece ∈ tried, loads I piece = .ok v := by
  induction tried with
  | nil => cases h
  | cons f tried ih =>
    rw [firstJson] at h
    cases hf : loads I f with
    | ok w =>
      rw [hf] at h
      cases h
      exact ⟨f, List.mem_cons_self, hf⟩
    | error e =>
      rw [hf] at h
      cases e with
      | jsonDecode =>
        obtain ⟨piece, hmem, hpiece⟩ := ih h
        exact ⟨piece, List.mem_cons_of_mem _ hmem, hpiece⟩
      | tooManyDigits => cases h
      | recursion => cases h

/-- Pieces that are refused, or the text of the object, lead to the object. -/
theorem firstJson_of_standard {tried : List (List Char)} (hs : loads I s = .ok o)
    (h : ∀ f ∈ tried, f = s ∨ Refused I f) : firstJson I (tried ++ [s]) = .ok o := by
  induction tried with
  | nil => rw [List.nil_append, firstJson, hs]
  | cons f tried ih =>
    rw [List.cons_append, firstJson]
    rcases h f List.mem_cons_self with rfl | hf
    · rw [hs]
    · rw [show loads I f = .error .jsonDecode from hf]
      exact ih fun g hg => h g (List.mem_cons_of_mem _ hg)

/-! ## Answers that have an object -/

theorem Prose.quiet (h : Prose p) : Quiet p := ⟨h.braces, h.tags⟩

/-- What stands before the text in a fenced block, behind the fence. -/
def labelLine (label : Bool) : List Char := (if label then "json".toList else []) ++ ['\n']

theorem quiet_before (hp : Prose p) (label : Bool) : Quiet (p ++ (fence ++ labelLine label)) := by
  have htail : '\x7b' ∉ fence ++ labelLine label ∧ '\x7d' ∉ fence ++ labelLine label := by
    cases label <;> decide
  have hopen : ¬thinkOpen <:+: ['`', '`'] ++ labelLine label ∧ ¬thinkClose <:+: ['`', '`'] ++ labelLine label := by
    cases label <;> decide
  have hshape : p ++ (fence ++ labelLine label) = p ++ '`' :: (['`', '`'] ++ labelLine label) := rfl
  refine ⟨⟨?_, ?_⟩, ?_, ?_⟩
  · exact fun h => (List.mem_append.mp h).elim hp.braces.1 htail.1
  · exact fun h => (List.mem_append.mp h).elim hp.braces.2 htail.2
  · rw [hshape, infix_append_cons_iff (by decide)]
    exact not_or.mpr ⟨hp.tags.1, hopen.1⟩
  · rw [hshape, infix_append_cons_iff (by decide)]
    exact not_or.mpr ⟨hp.tags.2, hopen.2⟩

theorem quiet_behind (hq : Prose q) : Quiet ('\n' :: (fence ++ q)) := by
  have hshape : '\n' :: (fence ++ q) = ['\n', '`', '`'] ++ '`' :: q := rfl
  refine ⟨⟨?_, ?_⟩, ?_, ?_⟩
  · rw [hshape]
    exact fun h => (List.mem_append.mp h).elim (by decide) (List.not_mem_cons_of_ne_of_not_mem (by decide) hq.braces.1)
  · rw [hshape]
    exact fun h => (List.mem_append.mp h).elim (by decide) (List.not_mem_cons_of_ne_of_not_mem (by decide) hq.braces.2)
  · rw [hshape, infix_append_cons_iff (by decide)]
    exact not_or.mpr ⟨by decide, hq.tags.1⟩
  · rw [hshape, infix_append_cons_iff (by decide)]
    exact not_or.mpr ⟨by decide, hq.tags.2⟩

theorem outer_blockOf (label : Bool) (m : List Char) :
    outer (blockOf (labelLine label ++ ('\x7b' :: (m ++ ['\x7d']) ++ ['\n']))) = some ('\x7b' :: (m ++ ['\x7d'])) := by
  have hshape : '\x7b' :: (m ++ ['\x7d']) ++ ['\n'] = '\x7b' :: (m ++ '\x7d' :: ['\n']) := by simp
  rw [hshape]
  cases label with
  | true =>
    have hline : behindFirstLine (labelLine true ++ '\x7b' :: (m ++ '\x7d' :: ['\n'])) =
        '\x7b' :: (m ++ '\x7d' :: ['\n']) := by
      have hcut : cutAt ['\n'] ("json".toList ++ (['\n'] ++ '\x7b' :: (m ++ '\x7d' :: ['\n']))) =
          some ("json".toList, '\x7b' :: (m ++ '\x7d' :: ['\n'])) :=
        cutAt_append_of_disjoint (by decide) fun d hd hmem => absurd hd (List.mem_singleton.mp hmem ▸ by decide)
      rw [behindFirstLine, labelLine, if_pos rfl, List.append_assoc, hcut]
    have hblock : blockOf (labelLine true ++ '\x7b' :: (m ++ '\x7d' :: ['\n'])) =
        '\x7b' :: (m ++ '\x7d' :: ['\n']) := (if_pos rfl).trans hline
    rw [hblock]
    exact outer_append List.not_mem_nil (by decide) m
  | false =>
    have hblock : blockOf (labelLine false ++ '\x7b' :: (m ++ '\x7d' :: ['\n'])) =
        ['\n'] ++ '\x7b' :: (m ++ '\x7d' :: ['\n']) := if_neg Bool.false_ne_true
    rw [hblock]
    exact outer_append (by decide) (by decide) m

theorem fencedPieces_fenced (hp : ∀ d ∈ p, d ≠ '`' ∧ d ≠ '\x7b')
    (hq : ∀ d ∈ q, d ≠ '`' ∧ d ≠ '\x7b') (label : Bool) (hm : ¬fence <:+: '\x7b' :: (m ++ ['\x7d'])) :
    fencedPieces (p ++ (fence ++ (labelLine label ++ ('\x7b' :: (m ++ ['\x7d']) ++ '\n' :: (fence ++ q))))) =
      ['\x7b' :: (m ++ ['\x7d'])] := by
  have hticks : ∀ {d : Char}, d ≠ '`' → d ∉ fence := fun hd hmem => hd (by simpa [fence] using hmem)
  set s := '\x7b' :: (m ++ ['\x7d']) with hs
  have hnone : cutAt fence (labelLine label ++ s) = none := by
    rw [cutAt_eq_none_iff fence_ne_nil, hs, infix_append_cons_iff (by decide)]
    refine not_or.mpr ⟨by cases label <;> decide, fun h => hm (h.trans ⟨['\x7b'], [], by rw [hs]; simp⟩)⟩
  have hclose : cutAt fence (labelLine label ++ (s ++ '\n' :: (fence ++ q))) =
      some (labelLine label ++ (s ++ ['\n']), q) := by
    have hfirst : cutAt fence ([] ++ (fence ++ q)) = some ([], q) :=
      cutAt_append_of_disjoint fence_ne_nil (fun d hd => absurd hd List.not_mem_nil)
    rw [List.nil_append] at hfirst
    rw [← List.append_assoc, cutAt_append_cons fence_ne_nil (by decide), hnone, hfirst, ← List.append_assoc]
    rfl
  have hopen : cutAt fence (p ++ (fence ++ (labelLine label ++ (s ++ '\n' :: (fence ++ q))))) =
      some (p, labelLine label ++ (s ++ '\n' :: (fence ++ q))) :=
    cutAt_append_of_disjoint fence_ne_nil fun d hd => hticks (hp d hd).1
  have hlast : ¬fence <:+: q := fun h => (hq '`' (h.subset (by decide))).1 rfl
  have hin : fence <:+: p ++ (fence ++ (labelLine label ++ (s ++ '\n' :: (fence ++ q)))) := ⟨p, _, List.append_assoc _ _ _⟩
  have hmem : '\x7b' ∈ labelLine label ++ (s ++ ['\n']) :=
    List.mem_append_right _ (List.mem_append_left _ List.mem_cons_self)
  rw [fencedPieces, fencedBlocks, if_pos hin, split_of_cutAt fence_ne_nil hopen, split_of_cutAt fence_ne_nil hclose,
    split_of_absent fence_ne_nil hlast, List.filter_cons_of_neg, List.filter_cons_of_pos (by simpa using hmem),
    List.filter_cons_of_neg, List.filter_nil, List.map_cons, List.map_nil, List.filterMap_cons, outer_blockOf]
  · rfl
  · simpa using fun h => (hq _ h).2 rfl
  · simpa using fun h => (hp _ h).2 rfl

/-- **Where the text of the object is.**  Without the think blocks, which are its own, it stands between two texts
without braces, and if it has neither a think block nor a fence it is all that is found at the fences. -/
theorem Holds.spec (h : Holds content ('\x7b' :: (m ++ ['\x7d']))) :
    ∃ p q : List Char, ('\x7b' ∉ p ∧ '\x7d' ∉ q) ∧
      answerText content = p ++ ('\x7b' :: (dropBlocks thinkOpen thinkClose m ++ ['\x7d']) ++ q) ∧
      (dropBlocks thinkOpen thinkClose m = m → ¬fence <:+: '\x7b' :: (m ++ ['\x7d']) →
        ∀ piece ∈ fencedPieces (answerText content), piece = '\x7b' :: (m ++ ['\x7d'])) := by
  have hfront : ∀ {p : List Char} {c : Char}, c ∉ p → c ∉ p.dropWhile isSpace := fun hc h =>
    hc (List.dropWhile_sublist _ |>.subset h)
  have hback : ∀ {q : List Char} {c : Char}, c ∉ q → c ∉ (q.reverse.dropWhile isSpace).reverse := fun hc h =>
    hfront (fun hmem => hc (List.mem_reverse.mp hmem)) (List.mem_reverse.mp h)
  cases h with
  | plain p q hp hq h =>
    have htext := answerText_of_quiet hp.quiet hq.quiet m
    rw [← h] at htext
    refine ⟨_, _, ⟨hfront hp.braces.1, hback hq.braces.2⟩, htext, fun hm hfence piece hpiece => ?_⟩
    -- there is no fence at all
    have hnone : ¬fence <:+: answerText content := by
      have hmem : ∀ cs, '`' ∉ cs → ¬fence <:+: cs := fun cs hcs hsub => hcs (hsub.subset (by decide))
      rw [htext, hm, List.cons_append, List.append_assoc, infix_append_cons_iff (by decide), List.singleton_append,
        infix_append_cons_iff (by decide)]
      refine not_or.mpr ⟨hmem _ (hfront hp.ticks), not_or.mpr ⟨fun h => hfence ?_, hmem _ (hback hq.ticks)⟩⟩
      exact h.trans ⟨['\x7b'], ['\x7d'], rfl⟩
    rw [fencedPieces, fencedBlocks, if_neg hnone] at hpiece
    cases hpiece
  | fenced label p q hp hq h =>
    have htext := answerText_of_quiet (quiet_before hp label) (quiet_behind hq) m
    have hcontent : content = p ++ (fence ++ labelLine label) ++ ('\x7b' :: (m ++ ['\x7d']) ++ '\n' :: (fence ++ q)) := by
      rw [h, fencedBlock, labelLine]
      simp
    rw [← hcontent] at htext
    refine ⟨_, _, ⟨hfront (quiet_before hp label).braces.1, hback (quiet_behind hq).braces.2⟩, htext,
      fun hm hfence piece hpiece => ?_⟩
    have hbefore : (p ++ (fence ++ labelLine label)).dropWhile isSpace =
        p.dropWhile isSpace ++ (fence ++ labelLine label) := dropWhile_append_cons (by decide) p _
    have hbehind : (('\n' :: (fence ++ q)).reverse.dropWhile isSpace).reverse =
        '\n' :: (fence ++ (q.reverse.dropWhile isSpace).reverse) := by
      have hreverse : ('\n' :: (fence ++ q)).reverse = q.reverse ++ '`' :: ['`', '`', '\n'] := by
        simp [fence]
      rw [hreverse, dropWhile_append_cons (by decide)]
      simp [fence]
    rw [htext, hm, hbefore, hbehind, List.append_assoc, List.append_assoc, fencedPieces_fenced _ _ label hfence,
      List.mem_singleton] at hpiece
    · exact hpiece
    · exact fun d hd => ⟨fun h => hfront hp.ticks (h ▸ hd), fun h => hfront hp.braces.1 (h ▸ hd)⟩
    · exact fun d hd => ⟨fun h => hback hq.ticks (h ▸ hd), fun h => hback hq.braces.1 (h ▸ hd)⟩

theorem pieces_append (hp : '\x7b' ∉ p) (hq : '\x7d' ∉ q) (m : List Char) :
    pieces (p ++ ('\x7b' :: (m ++ ['\x7d']) ++ q)) =
      fencedPieces (p ++ ('\x7b' :: (m ++ ['\x7d']) ++ q)) ++ ['\x7b' :: (m ++ ['\x7d'])] := by
  have hshape : p ++ ('\x7b' :: (m ++ ['\x7d']) ++ q) = p ++ '\x7b' :: (m ++ '\x7d' :: q) := by simp
  rw [pieces, List.filterMap_append, hshape, List.filterMap_cons, outer_append hp hq]
  rfl

/-- **With a think block in its text the object is lost.** -/
theorem extractJson_ne_of_think (hs : Standard I s o) (hcontent : Holds content s)
    (hthink : HasBlock thinkOpen thinkClose s) : extractJson I content ≠ .ok o := by
  obtain ⟨m, rfl⟩ := hs.braced
  obtain ⟨p, q, ⟨hp, hq⟩, htext, -⟩ := hcontent.spec
  have hshorter := length_dropBlocks_lt thinkOpen_ne_nil thinkClose_ne_nil hthink
  rw [dropBlocks_braced] at hshorter
  have hdrops := drops_dropBlocks thinkOpen_ne_nil thinkClose_ne_nil ('\x7b' :: (m ++ ['\x7d']))
  rw [dropBlocks_braced] at hdrops
  obtain ⟨k, hk, -, hlt⟩ := run_drops hdrops (occurrences_of_parse inner_lt hs.parsed)
  intro h
  obtain ⟨piece, hpiece, hloads⟩ := exists_of_firstJson h
  rw [htext] at hpiece
  have hwhere : piece <:+: p ++ ('\x7b' :: (dropBlocks thinkOpen thinkClose m ++ ['\x7d']) ++ q) ∧
      ∃ n, piece = '\x7b' :: (n ++ ['\x7d']) := by
    rw [pieces_append hp hq, List.mem_append, List.mem_singleton] at hpiece
    rcases hpiece with hpiece | rfl
    · exact ⟨(of_mem_fencedPieces hpiece).1, (of_mem_fencedPieces hpiece).2.2⟩
    · exact ⟨⟨p, q, by rw [List.append_assoc]⟩, _, rfl⟩
  have hle := occurrences_le_of_infix inner_lt hk (infix_middle hp hq hwhere.2 hwhere.1) hwhere.2 hloads
  exact absurd (hlt hshorter) (not_lt.mpr hle)

/-- **The object is found** exactly when its text can be told from what is around it and in it. -/
theorem extractJson_iff (hs : Standard I s o) (hcontent : Holds content s) :
    extractJson I content = .ok o ↔ Clear I content s := by
  by_cases hthink : HasBlock thinkOpen thinkClose s
  · exact iff_of_false (extractJson_ne_of_think hs hcontent hthink) fun h => h.noThink hthink
  obtain ⟨m, rfl⟩ := hs.braced
  obtain ⟨p, q, ⟨hp, hq⟩, htext, hfenced⟩ := hcontent.spec
  have hm : dropBlocks thinkOpen thinkClose m = m := by
    have hwhole := dropBlocks_of_not_hasBlock thinkOpen_ne_nil thinkClose_ne_nil hthink
    rw [dropBlocks_braced] at hwhole
    exact List.append_cancel_right (List.cons.inj hwhole).2
  rw [hm] at htext
  have htried : pieces (answerText content) = fencedPieces (answerText content) ++ ['\x7b' :: (m ++ ['\x7d'])] := by
    rw [htext, pieces_append hp hq]
  rw [extractJson, htried]
  constructor
  · refine fun h => ⟨hthink, fun piece hpiece => ?_⟩
    by_cases hfence : fence <:+: '\x7b' :: (m ++ ['\x7d'])
    · right
      by_contra hnot
      rw [firstJson_append_of_not_refused ⟨piece, hpiece, hnot⟩] at h
      obtain ⟨f, hf, hloads⟩ := exists_of_firstJson h
      obtain ⟨hsub, hnofence, hbraced⟩ := of_mem_fencedPieces hf
      rw [htext] at hsub
      exact absurd (occurrences_lt_of_fence (occurrences_of_parse inner_tick hs.parsed)
        (infix_middle hp hq hbraced hsub) hbraced hfence hnofence hloads) (lt_irrefl _)
    · exact .inl (hfenced hm hfence piece hpiece)
  · exact fun h => firstJson_of_standard hs.loads_eq h.refused

/-! ## Answers -/

theorem dict_of_loads (h : loads I ('\x7b' :: m) = .ok v) : ∃ entries, v = .dict entries := by
  obtain ⟨w, hw, rfl⟩ := map_eq_ok h
  obtain ⟨value, hvalue, hw⟩ := bind_eq_ok hw
  have hobject : ∃ entries, value.1 = .dict entries := by
    cases hdepth : I.maxDepth with
    | zero =>
      rw [hdepth] at hvalue
      cases hvalue
    | succ depth =>
      rw [hdepth] at hvalue
      change scanObject (scanOnce I depth) m = .ok value at hvalue
      unfold scanObject at hvalue
      split at hvalue
      · cases hvalue
      · split_ifs at hvalue
        · cases hvalue
          exact ⟨_, rfl⟩
        · obtain ⟨r, -, heq⟩ := map_eq_ok hvalue
          exact ⟨r.1, heq ▸ rfl⟩
  obtain ⟨entries, hentries⟩ := hobject
  split_ifs at hw
  cases hw
  rw [hentries, Value.settle]
  exact ⟨_, rfl⟩

/-- The search ends with `ValueError` where the first piece that is not refused has too many digits. -/
theorem firstJson_eq_valueError_iff (tried : List (List Char)) :
    firstJson I tried = .error .valueError ↔ Unread I tried := by
  induction tried with
  | nil => exact iff_of_true rfl fun front piece back h => absurd h.symm (by simp)
  | cons f tried ih =>
    have hfirst : Unread I (f :: tried) → Refused I f ∨ loads I f = .error .tooManyDigits := fun h =>
      h [] f tried rfl fun _ hg => absurd hg List.not_mem_nil
    rw [firstJson]
    cases hf : loads I f with
    | ok v =>
      refine iff_of_false (by simp) fun h => ?_
      rcases hfirst h with hr | hr <;> cases hf.symm.trans hr
    | error e =>
      cases e with
      | jsonDecode =>
        refine ih.trans ⟨fun h front piece back heq hfront => ?_, fun h front piece back heq hfront => ?_⟩
        · cases front with
          | nil =>
            obtain ⟨rfl, -⟩ := List.cons.inj heq
            exact .inl hf
          | cons g front =>
            obtain ⟨-, hrest⟩ := List.cons.inj heq
            exact h front piece back hrest fun k hk => hfront k (List.mem_cons_of_mem _ hk)
        · refine h (f :: front) piece back (by rw [heq, List.cons_append]) fun g hg => ?_
          rcases List.mem_cons.mp hg with rfl | hg
          · exact hf
          · exact hfront g hg
      | tooManyDigits =>
        refine iff_of_true rfl fun front piece back heq hfront => ?_
        cases front with
        | nil =>
          obtain ⟨rfl, -⟩ := List.cons.inj heq
          exact .inr hf
        | cons g front =>
          obtain ⟨rfl, -⟩ := List.cons.inj heq
          have hr : loads I f = .error .jsonDecode := hfront f List.mem_cons_self
          cases hf.symm.trans hr
      | recursion =>
        refine iff_of_false (by simp) fun h => ?_
        rcases hfirst h with hr | hr <;> cases hf.symm.trans hr

/-- **When an answer is read as it should be.** -/
theorem recovers_iff (I : Interpreter F) (content : List Char) : Recovers I content ↔ Readable I content := by
  constructor
  · exact fun h =>
      { object := fun s o hs hcontent => (extractJson_iff hs hcontent).mp (h.object s o hs hcontent)
        none := fun hno => (firstJson_eq_valueError_iff _).mp (h.none hno) }
  · exact fun h =>
      { object := fun s o hs hcontent => (extractJson_iff hs hcontent).mpr (h.object s o hs hcontent)
        none := fun hno => (firstJson_eq_valueError_iff _).mpr (h.none hno)
        dict := fun v hv => by
          obtain ⟨piece, hpiece, hloads⟩ := exists_of_firstJson hv
          obtain ⟨block, -, houter⟩ := List.mem_filterMap.mp hpiece
          obtain ⟨m, rfl⟩ := (outer_eq_some houter).2
          exact dict_of_loads hloads }

end Pieces

theorem fences_in_string : ¬∀ (F : Type) (I : Interpreter F) (content : List Char), Recovers I content := by
  intro h
  let I : Interpreter (List Char) := ⟨4300, 1000, id, "nan".toList, "inf".toList, "-inf".toList⟩
  let s : List Char :=
    ['\x7b', '"', 'a', '"', ':', '"', '`', '`', '`', '\x7b', '\x7d', '`', '`', '`', '"', '\x7d']
  let o : Value (List Char) := .dict [([97], .str [96, 96, 96, 123, 125, 96, 96, 96])]
  have hs : Standard I s o := ⟨rfl, rfl, ['"', 'a', '"', ':', '"', '`', '`', '`', '\x7b', '\x7d', '`', '`', '`', '"'], rfl⟩
  have hprose : Prose [] := ⟨by decide, by decide, by decide⟩
  have hfound : extractJson I s = .ok o := (h _ I s).object s o hs (.plain [] [] hprose hprose (by simp))
  have hpieces : pieces (answerText s) = ['\x7b', '\x7d'] :: [s] := by decide +kernel
  have hfirst : loads I ['\x7b', '\x7d'] = .ok (.dict []) := rfl
  rw [extractJson, hpieces, firstJson, hfirst] at hfound
  exact absurd (Value.dict.inj (Except.ok.inj hfound)) (List.cons_ne_nil _ _).symm

end AssetInventory.DiagramAi
