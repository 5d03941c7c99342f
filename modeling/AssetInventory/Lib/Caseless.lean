import AssetInventory.Lib.PyText
import AssetInventory.Lib.Patterns
import Mathlib.Data.List.TakeWhile

/-!
# Patterns in any letter case

A pattern in lower case occurs in a text in some letter case.  A text that is put together with fixed texts between its
fields is free of the pattern when the fields are, if no occurrence can stretch across what stands between them.

* `Occurs`, `Free`: the pattern, and a character that must not be there either.
* `Fenced`, `free_fenced_iff`: a text that keeps its neighbours apart.
* `free_join_iff`, `free_strip_iff`: joined and stripped texts.
* `OtherCase`, `occurs_replaceChars_iff`: what a replacement that looks at the letter case leaves.
-/

namespace Caseless

open PyJson Patterns

variable {pat : List Char} {bad : Char}

/-! ## Free texts -/

/-- The pattern occurs, in some letter case. -/
def Occurs (pat cs : List Char) : Prop := pat <:+: cs.map Char.toLower

instance (pat cs : List Char) : Decidable (Occurs pat cs) := inferInstanceAs (Decidable (_ <:+: _))

/-- The text has neither the pattern nor the character. -/
def Free (pat : List Char) (bad : Char) (cs : List Char) : Prop := ¬Occurs pat cs ∧ bad ∉ cs

instance (pat : List Char) (bad : Char) (cs : List Char) : Decidable (Free pat bad cs) :=
  inferInstanceAs (Decidable (_ ∧ _))

/-- No occurrence has the character in it. -/
def Fence (pat : List Char) (bad c : Char) : Prop := c.toLower ∉ pat ∧ c ≠ bad

instance (pat : List Char) (bad c : Char) : Decidable (Fence pat bad c) := inferInstanceAs (Decidable (_ ∧ _))

theorem free_append_cons_iff {c : Char} (hc : Fence pat bad c) (xs ys : List Char) :
    Free pat bad (xs ++ c :: ys) ↔ Free pat bad xs ∧ Free pat bad ys := by
  rw [Free, Occurs, List.map_append, List.map_cons, infix_append_cons_iff hc.1, List.mem_append, List.mem_cons]
  have hne : bad ≠ c := fun h => hc.2 h.symm
  unfold Free Occurs
  tauto

theorem free_nil (hpat : pat ≠ []) : Free pat bad [] :=
  ⟨fun h => hpat (List.infix_nil.mp h), List.not_mem_nil⟩

variable {cs lit ws xs : List Char}

theorem free_of_notMem {p : Char} {ps : List Char} (h : ∀ c ∈ cs, c.toLower ≠ p ∧ c ≠ bad) :
    Free (p :: ps) bad cs := by
  refine ⟨fun hsub => ?_, fun hmem => (h bad hmem).2 rfl⟩
  obtain ⟨c, hc, hlower⟩ := List.mem_map.mp (hsub.subset List.mem_cons_self)
  exact (h c hc).1 hlower

/-- A free text that begins and ends with characters that no occurrence has. -/
structure Fenced (pat : List Char) (bad : Char) (lit : List Char) : Prop where
  free : Free pat bad lit
  first : ∃ c ∈ lit.head?, Fence pat bad c
  last : ∃ c ∈ lit.getLast?, Fence pat bad c

instance (pat : List Char) (bad : Char) (lit : List Char) : Decidable (Fenced pat bad lit) :=
  have : Decidable (∃ c ∈ lit.head?, Fence pat bad c) := Option.decidableExistsMem _
  have : Decidable (∃ c ∈ lit.getLast?, Fence pat bad c) := Option.decidableExistsMem _
  decidable_of_iff (Free pat bad lit ∧ (∃ c ∈ lit.head?, Fence pat bad c) ∧ ∃ c ∈ lit.getLast?, Fence pat bad c)
    ⟨fun h => ⟨h.1, h.2.1, h.2.2⟩, fun h => ⟨h.free, h.first, h.last⟩⟩

/-- **A fenced text keeps its neighbours apart.** -/
theorem free_fenced_iff (h : Fenced pat bad lit) (xs ys : List Char) :
    Free pat bad (xs ++ (lit ++ ys)) ↔ Free pat bad xs ∧ Free pat bad ys := by
  obtain ⟨c, hhead, hc⟩ := h.first
  obtain ⟨d, hlast, hd⟩ := h.last
  have hfree := h.free
  cases lit with
  | nil => cases hhead
  | cons c' lit =>
    obtain rfl : c' = c := Option.some.inj hhead
    rw [List.cons_append, free_append_cons_iff hc]
    refine and_congr_right fun _ => ?_
    rcases List.eq_nil_or_concat' lit with rfl | ⟨mid, d', rfl⟩
    · rfl
    · rw [← List.cons_append, List.getLast?_concat] at hlast
      obtain rfl : d' = d := Option.some.inj hlast
      have hmid : Free pat bad mid := by
        have hsplit := (free_append_cons_iff hc [] (mid ++ [d'])).mp hfree
        exact ((free_append_cons_iff hd mid []).mp hsplit.2).1
      rw [List.append_assoc, List.singleton_append, free_append_cons_iff hd]
      exact and_iff_right hmid

theorem Fenced.free_nil (h : Fenced pat bad lit) : Free pat bad [] := by
  obtain ⟨c, hhead, hc⟩ := h.first
  have hfree := h.free
  cases lit with
  | nil => cases hhead
  | cons c' lit =>
    obtain rfl : c' = c := Option.some.inj hhead
    exact ((free_append_cons_iff hc [] lit).mp hfree).1

theorem free_front_iff (h : Fenced pat bad lit) (ys : List Char) :
    Free pat bad (lit ++ ys) ↔ Free pat bad ys :=
  (free_fenced_iff h [] ys).trans (and_iff_right h.free_nil)

theorem free_back_iff (h : Fenced pat bad lit) (xs : List Char) :
    Free pat bad (xs ++ lit) ↔ Free pat bad xs := by
  have hiff := free_fenced_iff h xs []
  rw [List.append_nil] at hiff
  exact hiff.trans (and_iff_left h.free_nil)

/-! ## Joined and stripped texts -/

theorem free_join_iff {sep : String} (h : Fenced pat bad sep.toList) (xs : List String) :
    Free pat bad (join sep xs).toList ↔ ∀ x ∈ xs, Free pat bad x.toList := by
  induction xs with
  | nil => exact iff_of_true h.free_nil fun _ hx => absurd hx List.not_mem_nil
  | cons x xs ih =>
    rw [List.forall_mem_cons, ← ih]
    cases xs with
    | nil =>
      have hnil : Free pat bad (join sep []).toList := h.free_nil
      rw [join, String.intercalate_singleton]
      exact (and_iff_left hnil).symm
    | cons y xs =>
      rw [join, join, String.intercalate_cons_cons, String.toList_append, String.toList_append, List.append_assoc,
        free_fenced_iff h]

theorem free_fences (hpat : pat ≠ []) (hws : ∀ c ∈ ws, Fence pat bad c) : Free pat bad ws := by
  induction ws with
  | nil => exact free_nil hpat
  | cons c ws ih =>
    rw [List.forall_mem_cons] at hws
    exact (free_append_cons_iff hws.1 [] ws).mpr ⟨free_nil hpat, ih hws.2⟩

theorem free_append_fences_iff (hpat : pat ≠ []) (hws : ∀ c ∈ ws, Fence pat bad c) (xs : List Char) :
    Free pat bad (xs ++ ws) ↔ Free pat bad xs := by
  cases ws with
  | nil => rw [List.append_nil]
  | cons c ws =>
    rw [List.forall_mem_cons] at hws
    exact (free_append_cons_iff hws.1 xs ws).trans (and_iff_left (free_fences hpat hws.2))

theorem free_fences_append_iff (hpat : pat ≠ []) (hws : ∀ c ∈ ws, Fence pat bad c) (xs : List Char) :
    Free pat bad (ws ++ xs) ↔ Free pat bad xs := by
  induction ws with
  | nil => rfl
  | cons c ws ih =>
    rw [List.forall_mem_cons] at hws
    exact (free_append_cons_iff hws.1 [] (ws ++ xs)).trans ((and_iff_right (free_nil hpat)).trans (ih hws.2))

theorem exists_strip_append (s : String) : ∃ front back, s.toList = front ++ ((strip s).toList ++ back) ∧
    (∀ c ∈ front, isSpace c = true) ∧ ∀ c ∈ back, isSpace c = true := by
  refine ⟨s.toList.takeWhile isSpace, ((s.toList.dropWhile isSpace).reverse.takeWhile isSpace).reverse, ?_,
    fun c => List.mem_takeWhile_imp, fun c hc => List.mem_takeWhile_imp (List.mem_reverse.mp hc)⟩
  rw [strip, String.toList_ofList, ← List.reverse_append, List.takeWhile_append_dropWhile, List.reverse_reverse,
    List.takeWhile_append_dropWhile]

theorem free_strip_iff (hpat : pat ≠ []) (hspace : ∀ c, isSpace c = true → Fence pat bad c) (s : String) :
    Free pat bad (strip s).toList ↔ Free pat bad s.toList := by
  obtain ⟨front, back, heq, hfront, hback⟩ := exists_strip_append s
  rw [heq, free_fences_append_iff hpat fun c hc => hspace c (hfront c hc),
    free_append_fences_iff hpat fun c hc => hspace c (hback c hc)]

/-! ## A replacement that looks at the letter case -/

/-- The pattern occurs in another letter case than its own. -/
def OtherCase (pat cs : List Char) : Prop :=
  ∃ front text back, cs = front ++ (text ++ back) ∧ text.map Char.toLower = pat ∧ text ≠ pat

theorem replaceChars_eq_drop (old new : List Char) (skip : ℕ) (cs : List Char) :
    replaceChars old new skip cs = replaceChars old new 0 (cs.drop skip) := by
  induction cs generalizing skip with
  | nil => cases skip <;> rfl
  | cons c cs ih =>
    cases skip with
    | zero => rfl
    | succ skip => exact ih skip

section Replace

variable {p : Char} {ps esc : List Char}

theorem replaceChars_cons {old : List Char} {c : Char} (new : List Char) (h : ¬old <+: c :: cs) :
    replaceChars old new 0 (c :: cs) = c :: replaceChars old new 0 cs :=
  if_neg fun hpre => h (List.isPrefixOf_iff_prefix.mp hpre)

theorem replaceChars_append (new : List Char) (hxs : p ∉ xs) (cs : List Char) :
    replaceChars (p :: ps) new 0 (xs ++ cs) = xs ++ replaceChars (p :: ps) new 0 cs := by
  induction xs with
  | nil => rfl
  | cons x xs ih =>
    rw [List.mem_cons, not_or] at hxs
    rw [List.cons_append, replaceChars_cons, ih hxs.2, List.cons_append]
    exact fun h => hxs.1 (List.cons_prefix_cons.mp h).1

theorem replaceChars_of_leads (hp : p ∉ ps) (h : ps <+: cs) :
    replaceChars (p :: ps) (esc ++ ps) 0 (p :: cs) = esc ++ replaceChars (p :: ps) (esc ++ ps) 0 cs := by
  obtain ⟨rest, rfl⟩ := h
  have hpre : (p :: ps).isPrefixOf (p :: (ps ++ rest)) = true :=
    List.isPrefixOf_iff_prefix.mpr (List.prefix_append (p :: ps) rest)
  rw [replaceChars, if_pos hpre, replaceChars_eq_drop, List.length_cons, Nat.add_sub_cancel, List.drop_left,
    replaceChars_append _ hp, List.append_assoc]

/-- What follows the first character of a pattern is there before and afterwards. -/
theorem prefix_replaceChars_iff (hp : p ∉ ps) (hlower : ∀ c : Char, c.toLower = p ↔ c = p)
    (hesc : ∃ e ∈ esc.head?, e.toLower ∉ ps) {qs : List Char} (hqs : qs ⊆ ps) (cs : List Char) :
    qs <+: (replaceChars (p :: ps) (esc ++ ps) 0 cs).map Char.toLower ↔ qs <+: cs.map Char.toLower := by
  induction qs generalizing cs with
  | nil => exact iff_of_true List.nil_prefix List.nil_prefix
  | cons q qs ih =>
    have hq := hqs List.mem_cons_self
    cases cs with
    | nil => exact Iff.rfl
    | cons c cs =>
      by_cases hpre : p :: ps <+: c :: cs
      · obtain ⟨rfl, hps⟩ := List.cons_prefix_cons.mp hpre
        obtain ⟨e, he, hne⟩ := hesc
        rw [replaceChars_of_leads hp hps]
        cases esc with
        | nil => cases he
        | cons e' esc =>
          obtain rfl : e' = e := Option.some.inj he
          rw [List.cons_append, List.map_cons, List.map_cons, List.cons_prefix_cons, List.cons_prefix_cons]
          exact iff_of_false (fun h => hne (h.1 ▸ hq)) fun h => hp ((hlower p).mpr rfl ▸ h.1 ▸ hq)
      · rw [replaceChars_cons _ hpre, List.map_cons, List.map_cons, List.cons_prefix_cons, List.cons_prefix_cons]
        exact and_congr_right fun _ => ih (List.cons_subset.mp hqs).2 cs

theorem otherCase_cons_iff {c : Char} : OtherCase pat (c :: cs) ↔
    (pat <+: (c :: cs).map Char.toLower ∧ ¬pat <+: c :: cs) ∨ OtherCase pat cs := by
  constructor
  · rintro ⟨front, text, back, heq, hlower, hne⟩
    cases front with
    | nil =>
      rw [List.nil_append] at heq
      refine .inl ⟨?_, fun hpre => hne ?_⟩
      · rw [heq, List.map_append, hlower]
        exact List.prefix_append _ _
      · have hlength : text.length = pat.length := by rw [← hlower, List.length_map]
        rw [heq] at hpre
        exact ((List.prefix_of_prefix_length_le hpre (List.prefix_append _ _) hlength.ge).eq_of_length hlength.symm).symm
    | cons d front => exact .inr ⟨front, text, back, (List.cons.inj heq).2, hlower, hne⟩
  · rintro (⟨hpre, hnot⟩ | ⟨front, text, back, heq, htext⟩)
    · refine ⟨[], (c :: cs).take pat.length, (c :: cs).drop pat.length, (List.take_append_drop _ _).symm, ?_, ?_⟩
      · rw [List.map_take]
        exact (List.prefix_iff_eq_take.mp hpre).symm
      · exact fun heq => hnot (heq ▸ List.take_prefix _ _)
    · exact ⟨c :: front, text, back, by rw [heq]; rfl, htext⟩

theorem infix_append_iff {ys : List Char} (hxs : p ∉ xs) : p :: ps <:+: xs ++ ys ↔ p :: ps <:+: ys := by
  induction xs with
  | nil => rfl
  | cons x xs ih =>
    rw [List.mem_cons, not_or] at hxs
    rw [List.cons_append, List.infix_cons_iff, ih hxs.2, or_iff_right]
    exact fun h => hxs.1 (List.cons_prefix_cons.mp h).1

/-- **What a replacement leaves** is the pattern in another letter case. -/
theorem occurs_replaceChars_iff (hp : p ∉ ps) (hlower : ∀ c : Char, c.toLower = p ↔ c = p)
    (hesc : p ∉ esc) (hhead : ∃ e ∈ esc.head?, e.toLower ∉ ps) (cs : List Char) :
    Occurs (p :: ps) (replaceChars (p :: ps) (esc ++ ps) 0 cs) ↔ OtherCase (p :: ps) cs := by
  induction cs with
  | nil =>
    refine iff_of_false (fun h => List.cons_ne_nil p ps (List.infix_nil.mp h)) ?_
    rintro ⟨front, text, back, heq, hmap, -⟩
    have hnil : text = [] := (List.append_eq_nil_iff.mp (List.append_eq_nil_iff.mp heq.symm).2).1
    rw [hnil] at hmap
    cases hmap
  | cons c cs ih =>
    rw [otherCase_cons_iff, ← ih]
    by_cases hpre : p :: ps <+: c :: cs
    · obtain ⟨rfl, hps⟩ := List.cons_prefix_cons.mp hpre
      have hnot : p ∉ esc.map Char.toLower := by
        intro hmem
        obtain ⟨e, he, heq⟩ := List.mem_map.mp hmem
        exact hesc ((hlower e).mp heq ▸ he)
      rw [replaceChars_of_leads hp hps, Occurs, List.map_append, infix_append_iff hnot]
      exact (or_iff_right fun h => h.2 hpre).symm
    · rw [replaceChars_cons _ hpre, Occurs, List.map_cons, List.infix_cons_iff, List.cons_prefix_cons,
        prefix_replaceChars_iff hp hlower hhead (List.Subset.refl ps), List.map_cons, List.cons_prefix_cons]
      exact or_congr_left (and_iff_left hpre).symm

end Replace

end Caseless
