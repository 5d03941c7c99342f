import Mathlib.Data.List.Infix
import Mathlib.Tactic.SplitIfs

/-!
# Patterns in a text

A text is cut at the occurrences of a fixed pattern, or loses what stands between two of them.  An occurrence does not
stretch across a character that the pattern does not have, so a text can be taken apart at such characters.

* `cutAt`: the first occurrence, with what stands before and behind it.
* `split`: the parts between the occurrences, as `str.split` has them; `infix_of_mem_split`, `notInfix_of_mem_split`.
* `dropBlocks`: a text without its blocks, each from one pattern to the next occurrence of another one;
  `drops_dropBlocks`, `dropBlocks_of_not_hasBlock`, `length_dropBlocks_lt`.
-/

namespace Patterns

variable {α : Type*} [DecidableEq α]

/-! ## Occurrences -/

section Occurrences

variable {pat xs ys : List α} {c : α}

omit [DecidableEq α] in
theorem prefix_append_cons_iff (hc : c ∉ pat) (xs ys : List α) : pat <+: xs ++ c :: ys ↔ pat <+: xs := by
  refine ⟨fun h => ?_, fun h => h.trans (List.prefix_append _ _)⟩
  rcases List.prefix_or_prefix_of_prefix h (List.prefix_append xs (c :: ys)) with hle | hge
  · exact hle
  · obtain ⟨rest, rfl⟩ := hge
    rw [List.prefix_append_right_inj] at h
    cases rest with
    | nil => rw [List.append_nil]
    | cons d rest =>
      rw [List.cons_prefix_cons] at h
      exact absurd (h.1 ▸ List.mem_append_right _ List.mem_cons_self) hc

omit [DecidableEq α] in
theorem not_prefix_cons (hpat : pat ≠ []) (hc : c ∉ pat) (ys : List α) : ¬pat <+: c :: ys := fun h =>
  hpat (List.prefix_nil.mp ((prefix_append_cons_iff hc [] ys).mp h))

omit [DecidableEq α] in
/-- **No occurrence stretches across a character that the pattern does not have.** -/
theorem infix_append_cons_iff (hc : c ∉ pat) : pat <:+: xs ++ c :: ys ↔ pat <:+: xs ∨ pat <:+: ys := by
  induction xs with
  | nil =>
    rw [List.nil_append, List.infix_cons_iff, List.infix_nil]
    exact or_congr_left' fun _ => (prefix_append_cons_iff hc [] ys).trans List.prefix_nil
  | cons d xs ih =>
    rw [List.cons_append, List.infix_cons_iff, ih, List.infix_cons_iff, or_assoc, ← List.cons_append,
      prefix_append_cons_iff hc (d :: xs) ys]

variable (pat)

/-- What stands before and behind the first occurrence. -/
def cutAt : List α → Option (List α × List α)
  | [] => none
  | c :: cs =>
    if pat.isPrefixOf (c :: cs) then some ([], (c :: cs).drop pat.length)
    else (cutAt cs).map fun r => (c :: r.1, r.2)

variable {pat}

theorem cutAt_cons_of_leads (h : pat <+: c :: ys) : cutAt pat (c :: ys) = some ([], (c :: ys).drop pat.length) :=
  if_pos (List.isPrefixOf_iff_prefix.mpr h)

theorem cutAt_cons_of_not_leads (h : ¬pat <+: c :: ys) :
    cutAt pat (c :: ys) = (cutAt pat ys).map fun r => (c :: r.1, r.2) :=
  if_neg fun hpre => h (List.isPrefixOf_iff_prefix.mp hpre)

variable {r : List α × List α}

theorem cutAt_eq_some (h : cutAt pat xs = some r) :
    xs = r.1 ++ pat ++ r.2 ∧ (pat ≠ [] → ¬pat <:+: r.1) := by
  induction xs generalizing r with
  | nil => cases h
  | cons c cs ih =>
    by_cases hpre : pat <+: c :: cs
    · rw [cutAt_cons_of_leads hpre, Option.some.injEq] at h
      subst h
      refine ⟨?_, fun hne hnil => hne (List.infix_nil.mp hnil)⟩
      rw [List.nil_append]
      exact List.prefix_iff_eq_append.mp hpre |>.symm
    · rw [cutAt_cons_of_not_leads hpre, Option.map_eq_some_iff] at h
      obtain ⟨q, hq, rfl⟩ := h
      obtain ⟨heq, hnot⟩ := ih hq
      refine ⟨by rw [heq]; rfl, fun hne hsub => ?_⟩
      rcases List.infix_cons_iff.mp hsub with hfront | hback
      · refine hpre (hfront.trans ?_)
        rw [heq, List.append_assoc, ← List.cons_append]
        exact List.prefix_append _ _
      · exact hnot hne hback

theorem cutAt_eq_none_iff (hpat : pat ≠ []) : cutAt pat xs = none ↔ ¬pat <:+: xs := by
  induction xs with
  | nil => exact iff_of_true rfl fun h => hpat (List.infix_nil.mp h)
  | cons c cs ih =>
    rw [List.infix_cons_iff]
    by_cases hpre : pat <+: c :: cs
    · rw [cutAt_cons_of_leads hpre]
      exact iff_of_false (Option.some_ne_none _) (not_not.mpr (.inl hpre))
    · rw [cutAt_cons_of_not_leads hpre, Option.map_eq_none_iff, ih, or_iff_right hpre]

/-- A text is searched up to a character that the pattern does not have, and then behind it. -/
theorem cutAt_append_cons (hpat : pat ≠ []) (hc : c ∉ pat) : cutAt pat (xs ++ c :: ys) =
    match cutAt pat xs with
    | some r => some (r.1, r.2 ++ c :: ys)
    | none => (cutAt pat ys).map fun r => (xs ++ c :: r.1, r.2) := by
  induction xs with
  | nil =>
    rw [List.nil_append, cutAt_cons_of_not_leads, cutAt]
    · rfl
    · exact not_prefix_cons hpat hc ys
  | cons d xs ih =>
    by_cases hpre : pat <+: d :: xs
    · have hwhole : pat <+: d :: (xs ++ c :: ys) := hpre.trans (List.prefix_append (d :: xs) (c :: ys))
      rw [List.cons_append, cutAt_cons_of_leads hwhole, cutAt_cons_of_leads hpre, ← List.cons_append,
        List.drop_append_of_le_length hpre.length_le]
    · have hwhole : ¬pat <+: d :: (xs ++ c :: ys) := fun h =>
        hpre ((prefix_append_cons_iff hc (d :: xs) ys).mp h)
      rw [List.cons_append, cutAt_cons_of_not_leads hwhole, cutAt_cons_of_not_leads hpre, ih]
      cases cutAt pat xs with
      | some r => rfl
      | none => cases cutAt pat ys <;> rfl

theorem cutAt_append_of_disjoint (hpat : pat ≠ []) (h : ∀ d ∈ xs, d ∉ pat) :
    cutAt pat (xs ++ (pat ++ ys)) = some (xs, ys) := by
  induction xs with
  | nil =>
    obtain ⟨d, rest, rfl⟩ := List.exists_cons_of_ne_nil hpat
    have hpre : d :: rest <+: d :: (rest ++ ys) := List.prefix_append (d :: rest) ys
    rw [List.nil_append, List.cons_append, cutAt_cons_of_leads hpre, ← List.cons_append, List.drop_left]
  | cons d xs ih =>
    have hd : ¬pat <+: d :: (xs ++ (pat ++ ys)) := not_prefix_cons hpat (h d List.mem_cons_self) _
    rw [List.cons_append, cutAt_cons_of_not_leads hd, ih fun e he => h e (List.mem_cons_of_mem _ he)]
    rfl

end Occurrences

/-! ## The parts between the occurrences -/

section Split

variable (pat : List α)

/-- The parts; `skip` characters of an occurrence are still to be passed over. -/
def splitFrom : ℕ → List α → List (List α)
  | _, [] => [[]]
  | skip + 1, _ :: cs => splitFrom skip cs
  | 0, c :: cs =>
    if pat.isPrefixOf (c :: cs) then [] :: splitFrom (pat.length - 1) cs
    else
      match splitFrom 0 cs with
      | part :: parts => (c :: part) :: parts
      | [] => [[c]]

/-- `s.split(pat)`, for a pattern that is not empty. -/
def split (s : List α) : List (List α) := splitFrom pat 0 s

variable {pat}

theorem splitFrom_eq_drop (skip : ℕ) (s : List α) : splitFrom pat skip s = split pat (s.drop skip) := by
  induction s generalizing skip with
  | nil => cases skip <;> rfl
  | cons c cs ih =>
    cases skip with
    | zero => rfl
    | succ skip => exact ih skip

theorem split_eq (hpat : pat ≠ []) (s : List α) : split pat s = match cutAt pat s with
    | some r => r.1 :: split pat r.2
    | none => [s] := by
  induction s with
  | nil => rfl
  | cons c cs ih =>
    by_cases hpre : pat <+: c :: cs
    · obtain ⟨d, rest, rfl⟩ := List.exists_cons_of_ne_nil hpat
      rw [cutAt_cons_of_leads hpre, split, splitFrom, if_pos (List.isPrefixOf_iff_prefix.mpr hpre),
        splitFrom_eq_drop]
      rfl
    · rw [cutAt_cons_of_not_leads hpre, split, splitFrom,
        if_neg fun h => hpre (List.isPrefixOf_iff_prefix.mp h)]
      change (match split pat cs with | part :: parts => (c :: part) :: parts | [] => [[c]]) = _
      rw [ih]
      cases cutAt pat cs <;> rfl

theorem split_of_cutAt {r : List α × List α} (hpat : pat ≠ []) {s : List α} (h : cutAt pat s = some r) :
    split pat s = r.1 :: split pat r.2 := by rw [split_eq hpat, h]

theorem split_of_absent (hpat : pat ≠ []) {s : List α} (h : ¬pat <:+: s) : split pat s = [s] := by
  rw [split_eq hpat, (cutAt_eq_none_iff hpat).mpr h]

/-- **The parts** stand in the text, and the pattern stands in none of them. -/
theorem parts_of_split (hpat : pat ≠ []) (s : List α) : ∀ part ∈ split pat s, part <:+: s ∧ ¬pat <:+: part := by
  induction hlen : s.length using Nat.strong_induction_on generalizing s with
  | _ n ih =>
    intro part hpart
    cases hcut : cutAt pat s with
    | none =>
      have hnot := (cutAt_eq_none_iff hpat).mp hcut
      rw [split_of_absent hpat hnot, List.mem_singleton] at hpart
      rw [hpart]
      exact ⟨List.infix_refl s, hnot⟩
    | some r =>
      obtain ⟨heq, hfirst⟩ := cutAt_eq_some hcut
      rw [split_of_cutAt hpat hcut, List.mem_cons] at hpart
      rcases hpart with rfl | hpart
      · exact ⟨⟨[], pat ++ r.2, by rw [List.nil_append, ← List.append_assoc, ← heq]⟩, hfirst hpat⟩
      · have hlt : r.2.length < n := by
          have hpos := List.length_pos_iff.mpr hpat
          rw [← hlen, heq, List.length_append, List.length_append]
          omega
        obtain ⟨hsub, hnot⟩ := ih r.2.length hlt r.2 rfl part hpart
        exact ⟨hsub.trans ⟨r.1 ++ pat, [], by rw [List.append_nil, ← heq]⟩, hnot⟩

end Split

/-! ## Blocks -/

section Blocks

variable (op cl : List α)

/-- The text without its blocks; `skip` characters of a block are still to be passed over. -/
def dropFrom : ℕ → List α → List α
  | _, [] => []
  | skip + 1, _ :: cs => dropFrom skip cs
  | 0, c :: cs =>
    if op.isPrefixOf (c :: cs) then
      match cutAt cl ((c :: cs).drop op.length) with
      | some r => dropFrom (cs.length - r.2.length) cs
      | none => c :: dropFrom 0 cs
    else c :: dropFrom 0 cs

/-- `re.sub(op + ".*?" + cl, "", s, flags=re.DOTALL)`. -/
def dropBlocks (s : List α) : List α := dropFrom op cl 0 s

omit [DecidableEq α] in
/-- The text has a block. -/
def HasBlock (s : List α) : Prop := ∃ before inner after, s = before ++ (op ++ (inner ++ (cl ++ after)))

/-- `t` is `s` without some of its blocks. -/
inductive Drops : List α → List α → Prop where
  | nil : Drops [] []
  | keep (c : α) {s t : List α} (h : Drops s t) : Drops (c :: s) (c :: t)
  | block (inner : List α) {s t : List α} (h : Drops s t) : Drops (op ++ (inner ++ (cl ++ s))) t

variable {op cl} {s t : List α} {c : α}

omit [DecidableEq α] in
theorem Drops.length_le (h : Drops op cl s t) : t.length ≤ s.length := by
  induction h with
  | nil => exact Nat.le_refl 0
  | keep c h ih => exact Nat.succ_le_succ ih
  | block inner h ih =>
    rw [List.length_append, List.length_append, List.length_append]
    omega

theorem dropFrom_eq_drop (skip : ℕ) (s : List α) : dropFrom op cl skip s = dropBlocks op cl (s.drop skip) := by
  induction s generalizing skip with
  | nil => cases skip <;> rfl
  | cons c cs ih =>
    cases skip with
    | zero => rfl
    | succ skip => exact ih skip

theorem dropBlocks_append {r : List α × List α} (hop : op ≠ []) (h : cutAt cl s = some r) :
    dropBlocks op cl (op ++ s) = dropBlocks op cl r.2 := by
  obtain ⟨d, rest, rfl⟩ := List.exists_cons_of_ne_nil hop
  have hpre : d :: rest <+: d :: (rest ++ s) := List.prefix_append (d :: rest) s
  have hdrop : (d :: (rest ++ s)).drop (d :: rest).length = s := by
    rw [← List.cons_append, List.drop_left]
  rw [List.cons_append, dropBlocks, dropFrom, if_pos (List.isPrefixOf_iff_prefix.mpr hpre), hdrop, h]
  dsimp only
  rw [dropFrom_eq_drop]
  congr 1
  have heq := (cutAt_eq_some h).1
  have hsplit : rest ++ s = rest ++ r.1 ++ cl ++ r.2 := by
    rw [List.append_assoc, List.append_assoc, ← List.append_assoc r.1, ← heq]
  rw [hsplit, List.length_append, Nat.add_sub_cancel, List.drop_left]

theorem dropBlocks_cons (h : ¬(op <+: c :: s ∧ (cutAt cl ((c :: s).drop op.length)).isSome = true)) :
    dropBlocks op cl (c :: s) = c :: dropBlocks op cl s := by
  rw [dropBlocks, dropFrom]
  split_ifs with hpre
  · rw [not_and, Option.not_isSome_iff_eq_none] at h
    rw [h (List.isPrefixOf_iff_prefix.mp hpre)]
    rfl
  · rfl

theorem dropBlocks_cases (hop : op ≠ []) (hcl : cl ≠ []) (c : α) (s : List α) :
    (∃ inner after, c :: s = op ++ (inner ++ (cl ++ after)) ∧ dropBlocks op cl (c :: s) = dropBlocks op cl after) ∨
      (¬∃ inner after, c :: s = op ++ (inner ++ (cl ++ after))) ∧
        dropBlocks op cl (c :: s) = c :: dropBlocks op cl s := by
  by_cases hblock : op <+: c :: s ∧ (cutAt cl ((c :: s).drop op.length)).isSome = true
  · obtain ⟨⟨rest, hrest⟩, hsome⟩ := hblock
    rw [← hrest, List.drop_left] at hsome
    obtain ⟨r, hr⟩ := Option.isSome_iff_exists.mp hsome
    refine .inl ⟨r.1, r.2, ?_, by rw [← hrest, dropBlocks_append hop hr]⟩
    rw [← hrest, (cutAt_eq_some hr).1, List.append_assoc]
  · refine .inr ⟨?_, dropBlocks_cons hblock⟩
    rintro ⟨inner, after, heq⟩
    refine hblock ⟨⟨_, heq.symm⟩, ?_⟩
    rw [heq, List.drop_left, ← Option.ne_none_iff_isSome]
    exact fun hnone => (cutAt_eq_none_iff hcl).mp hnone ⟨inner, after, by rw [List.append_assoc]⟩

theorem drops_dropBlocks (hop : op ≠ []) (hcl : cl ≠ []) (s : List α) : Drops op cl s (dropBlocks op cl s) := by
  induction hlen : s.length using Nat.strong_induction_on generalizing s with
  | _ n ih =>
    cases s with
    | nil => exact .nil
    | cons c s =>
      have hpos := List.length_pos_iff.mpr hop
      rcases dropBlocks_cases hop hcl c s with ⟨inner, after, heq, hdrop⟩ | ⟨-, hdrop⟩
      · rw [hdrop]
        rw [heq, List.length_append, List.length_append, List.length_append] at hlen
        rw [heq]
        exact .block inner (ih after.length (by omega) after rfl)
      · rw [hdrop]
        rw [List.length_cons] at hlen
        exact .keep c (ih s.length (by omega) s rfl)

/-- **Without blocks nothing goes.** -/
theorem dropBlocks_of_not_hasBlock (hop : op ≠ []) (hcl : cl ≠ []) (h : ¬HasBlock op cl s) :
    dropBlocks op cl s = s := by
  induction s with
  | nil => rfl
  | cons c s ih =>
    rcases dropBlocks_cases hop hcl c s with ⟨inner, after, heq, -⟩ | ⟨-, hdrop⟩
    · exact absurd ⟨[], inner, after, heq⟩ h
    · rw [hdrop, ih]
      rintro ⟨before, inner, after, heq⟩
      exact h ⟨c :: before, inner, after, by rw [heq]; rfl⟩

/-- **A block goes.** -/
theorem length_dropBlocks_lt (hop : op ≠ []) (hcl : cl ≠ []) (h : HasBlock op cl s) :
    (dropBlocks op cl s).length < s.length := by
  induction s with
  | nil =>
    obtain ⟨before, inner, after, heq⟩ := h
    have hnil := (List.append_eq_nil_iff.mp heq.symm).2
    exact absurd (List.append_eq_nil_iff.mp hnil).1 hop
  | cons c s ih =>
    rcases dropBlocks_cases hop hcl c s with ⟨inner, after, heq, hdrop⟩ | ⟨hfront, hdrop⟩
    · have hpos := List.length_pos_iff.mpr hop
      have hle := (drops_dropBlocks hop hcl after).length_le
      rw [hdrop, heq, List.length_append, List.length_append, List.length_append]
      omega
    · obtain ⟨before, inner, after, heq⟩ := h
      cases before with
      | nil => exact absurd ⟨inner, after, heq⟩ hfront
      | cons d before =>
        rw [hdrop, List.length_cons, List.length_cons]
        exact Nat.succ_lt_succ (ih ⟨before, inner, after, (List.cons.inj heq).2⟩)

/-- Behind a character that neither pattern has there may be anything without the closing one. -/
theorem dropBlocks_append_cons (hop : op ≠ []) (hcl : cl ≠ []) (hcop : c ∉ op) (hccl : c ∉ cl) (ht : ¬cl <:+: t)
    (s : List α) : dropBlocks op cl (s ++ c :: t) = dropBlocks op cl s ++ c :: t := by
  induction hlen : s.length using Nat.strong_induction_on generalizing s with
  | _ n ih =>
    cases s with
    | nil =>
      rw [List.nil_append, dropBlocks_cons, dropBlocks_of_not_hasBlock hop hcl]
      · rfl
      · rintro ⟨before, inner, after, heq⟩
        exact ht ⟨before ++ (op ++ inner), after, by rw [heq]; simp⟩
      · exact fun h => not_prefix_cons hop hcop t h.1
    | cons d s =>
      by_cases hblock : op <+: d :: s ∧ (cutAt cl ((d :: s).drop op.length)).isSome = true
      · obtain ⟨⟨rest, hrest⟩, hsome⟩ := hblock
        rw [← hrest, List.drop_left] at hsome
        obtain ⟨r, hr⟩ := Option.isSome_iff_exists.mp hsome
        have hlonger : cutAt cl (rest ++ c :: t) = some (r.1, r.2 ++ c :: t) := by
          rw [cutAt_append_cons hcl hccl, hr]
        have hlt : r.2.length < n := by
          have hpos := List.length_pos_iff.mpr hop
          rw [← hlen, ← hrest, (cutAt_eq_some hr).1, List.length_append, List.length_append, List.length_append]
          omega
        rw [← hrest, List.append_assoc, dropBlocks_append hop hlonger, dropBlocks_append hop hr,
          ih r.2.length hlt r.2 rfl]
      · have hlonger : ¬(op <+: d :: (s ++ c :: t) ∧
            (cutAt cl ((d :: (s ++ c :: t)).drop op.length)).isSome = true) := by
          rintro ⟨hpre, hsome⟩
          have hfront := (prefix_append_cons_iff hcop (d :: s) t).mp hpre
          refine hblock ⟨hfront, ?_⟩
          rw [← List.cons_append, List.drop_append_of_le_length hfront.length_le, cutAt_append_cons hcl hccl,
            (cutAt_eq_none_iff hcl).mpr ht] at hsome
          cases hcut : cutAt cl ((d :: s).drop op.length) with
          | some r => rfl
          | none =>
            rw [hcut] at hsome
            cases hsome
        rw [List.cons_append, dropBlocks_cons hlonger, dropBlocks_cons hblock,
          ih s.length (by rw [← hlen]; exact Nat.lt_succ_self _) s rfl]
        rfl

/-- Before a character that the opening pattern does not have there may be anything without it. -/
theorem append_cons_dropBlocks (hop : op ≠ []) (hcop : c ∉ op) (hs : ¬op <:+: s) :
    dropBlocks op cl (s ++ c :: t) = s ++ c :: dropBlocks op cl t := by
  induction s with
  | nil =>
    exact dropBlocks_cons fun h => not_prefix_cons hop hcop t h.1
  | cons d s ih =>
    rw [List.infix_cons_iff, not_or] at hs
    rw [List.cons_append, dropBlocks_cons, ih hs.2]
    · rfl
    · exact fun h => hs.1 ((prefix_append_cons_iff hcop (d :: s) t).mp h.1)

end Blocks

end Patterns
