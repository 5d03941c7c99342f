import Mathlib.Data.List.Basic
import Mathlib.Data.Nat.Notation

/-!
# Texts with tagged blocks

A text is put together from fixed parts, tags such as `<name>`, and fields that come from outside.  A tag
begins with `<` and ends with `>` and has neither inside, so an occurrence of a tag that begins in a field
ends in the field, unless what follows goes on like the tag.

* `occurrences`: how often a tag occurs; `occurrences_render`: the occurrences in a text are those of the
  tags that were put there and those in the fields.
* `block`: what a reader takes for the text between two tags.
* `Confined`: the text between two tags can be found, and replaced by any other, by its tags.
* `confined_iff`: it can exactly when the tags occur in none of the fields.
-/

namespace Markup

/-! ## Tags -/

/-- A character of the name of a tag. -/
def isNameChar (c : Char) : Bool := c.isAlphanum || c == '_' || c == '/'

/-- A tag. -/
structure Tag where
  name : List Char
  name_chars : ∀ c ∈ name, isNameChar c = true

/-- Its text. -/
def Tag.text (t : Tag) : List Char := '<' :: (t.name ++ ['>'])

theorem Tag.text_inj {t u : Tag} (h : t.text = u.text) : t = u := by
  have hname := List.append_inj_left' (List.cons.inj h).2 rfl
  cases t
  cases u
  cases hname
  rfl

instance : DecidableEq Tag := fun t u =>
  decidable_of_iff (t.name = u.name) ⟨fun h => by cases t; cases u; cases h; rfl, fun h => h ▸ rfl⟩

theorem Tag.open_notMem (t : Tag) : '<' ∉ t.name := fun h => absurd (t.name_chars _ h) (by decide)

theorem Tag.close_notMem (t : Tag) : '>' ∉ t.name := fun h => absurd (t.name_chars _ h) (by decide)

/-- How often a tag occurs in a text. -/
def occurrences (t : Tag) : List Char → ℕ
  | [] => 0
  | c :: cs => (if t.text.isPrefixOf (c :: cs) then 1 else 0) + occurrences t cs

variable {t u : Tag} {cs s rest before inside behind : List Char}

theorem occurrences_of_start (c : Char) (h : t.text <+: c :: cs) :
    occurrences t (c :: cs) = occurrences t cs + 1 := by
  rw [occurrences, if_pos (List.isPrefixOf_iff_prefix.mpr h), Nat.add_comm]

theorem occurrences_of_not_start {c : Char} (h : ¬ t.text <+: c :: cs) :
    occurrences t (c :: cs) = occurrences t cs := by
  rw [occurrences, if_neg (mt List.isPrefixOf_iff_prefix.mp h), Nat.zero_add]

theorem not_prefix_of_ne {c : Char} (hc : c ≠ '<') (cs : List Char) : ¬ t.text <+: c :: cs :=
  fun h => hc (List.cons_prefix_cons.mp h).1.symm

theorem occurrences_fixed_append (hs : '<' ∉ s) (rest : List Char) :
    occurrences t (s ++ rest) = occurrences t rest := by
  induction s with
  | nil => rfl
  | cons c s ih =>
    rw [List.mem_cons, not_or] at hs
    rw [List.cons_append, occurrences_of_not_start (not_prefix_of_ne (Ne.symm hs.1) _), ih hs.2]

/-- The character does not go on with a tag: it begins one, or is in none. -/
def isBoundary (c : Char) : Bool := c == '<' || (!isNameChar c && c != '>')

/-- What follows does not go on with a tag. -/
def Opens (rest : List Char) : Prop := ∀ c ∈ rest.head?, isBoundary c = true

theorem prefix_of_opens (hrest : Opens rest) (hs : s ≠ [])
    (h : t.text <+: s ++ rest) : t.text <+: s := by
  rcases List.prefix_or_prefix_of_prefix h (List.prefix_append s rest) with hle | hle
  · exact hle
  · obtain ⟨r, hr⟩ := hle
    cases r with
    | nil =>
      rw [List.append_nil] at hr
      exact ⟨[], by rw [hr, List.append_nil]⟩
    | cons d r =>
      exfalso
      rw [← hr] at h
      have hd : d :: r <+: rest := (List.prefix_append_right_inj s).mp h
      have hhead : rest.head? = some d := by
        obtain ⟨tail, rfl⟩ := hd
        rfl
      -- the tag goes on in `rest` behind its first character
      have hmem : d ∈ t.name ++ ['>'] := by
        cases s with
        | nil => exact absurd rfl hs
        | cons c s =>
          have htail : s ++ d :: r = t.name ++ ['>'] := (List.cons.inj hr).2
          rw [← htail]
          exact List.mem_append_right _ List.mem_cons_self
      have hboundary := hrest d hhead
      rcases List.mem_append.mp hmem with hname | hlast
      · have hopen : d ≠ '<' := fun heq => t.open_notMem (heq ▸ hname)
        rw [isBoundary, t.name_chars d hname] at hboundary
        simp [hopen] at hboundary
      · rw [List.mem_singleton.mp hlast] at hboundary
        exact absurd hboundary (by decide)

theorem occurrences_field_append (hrest : Opens rest) (s : List Char) :
    occurrences t (s ++ rest) = occurrences t s + occurrences t rest := by
  induction s with
  | nil => rw [List.nil_append, occurrences, Nat.zero_add]
  | cons c s ih =>
    rw [List.cons_append]
    by_cases h : t.text <+: c :: (s ++ rest)
    · have hs : t.text <+: c :: s := prefix_of_opens hrest (List.cons_ne_nil c s) h
      rw [occurrences_of_start c h, occurrences_of_start c hs, ih]
      omega
    · have hs : ¬ t.text <+: c :: s := fun hs =>
        h (hs.trans (List.prefix_append (c :: s) rest))
      rw [occurrences_of_not_start h, occurrences_of_not_start hs, ih]

theorem eq_of_start (h : t.text <+: u.text ++ rest) : t = u := by
  have shorter : ∀ {a b : Tag}, a.text <+: b.text → a = b := by
    intro a b hab
    obtain ⟨r, hr⟩ := hab
    cases r with
    | nil =>
      rw [List.append_nil] at hr
      exact Tag.text_inj hr
    | cons d r =>
      exfalso
      -- the `>` of the shorter tag stands inside of the other
      have hname : a.name ++ '>' :: d :: r = b.name ++ ['>'] := by
        have htail := (List.cons.inj hr).2
        simpa using htail
      have hlen := congrArg List.length hname
      have hstart : a.name ++ ['>'] <+: b.name := by
        have hwhole : a.name ++ ['>'] <+: b.name ++ ['>'] := ⟨d :: r, by simp [← hname]⟩
        refine List.prefix_of_prefix_length_le hwhole (List.prefix_append _ _) ?_
        simp only [List.length_append, List.length_cons, List.length_nil] at hlen ⊢
        omega
      exact b.close_notMem (hstart.subset (List.mem_append_right _ (List.mem_singleton_self _)))
  rcases List.prefix_or_prefix_of_prefix h (List.prefix_append u.text rest) with hle | hle
  · exact shorter hle
  · exact (shorter hle).symm

theorem notMem_tail (u : Tag) : '<' ∉ u.name ++ ['>'] := by
  intro h
  rcases List.mem_append.mp h with h | h
  · exact u.open_notMem h
  · exact absurd (List.mem_singleton.mp h) (by decide)

theorem occurrences_tag_append (t u : Tag) (rest : List Char) :
    occurrences t (u.text ++ rest) = (if u = t then 1 else 0) + occurrences t rest := by
  have htail : occurrences t (u.name ++ ['>'] ++ rest) = occurrences t rest :=
    occurrences_fixed_append (notMem_tail u) rest
  rw [Tag.text, List.cons_append]
  by_cases h : u = t
  · subst h
    have hstart : u.text <+: '<' :: (u.name ++ ['>'] ++ rest) := List.prefix_append u.text rest
    rw [if_pos rfl, occurrences_of_start '<' hstart, htail, Nat.add_comm]
  · have hnot : ¬ t.text <+: '<' :: (u.name ++ ['>'] ++ rest) := fun hstart =>
      h (eq_of_start (u := u) hstart).symm
    rw [if_neg h, occurrences_of_not_start hnot, htail, Nat.zero_add]

/-! ## Reading a block -/

/-- What stands before and behind the first occurrence of a tag. -/
def cut (t : Tag) : List Char → Option (List Char × List Char)
  | [] => none
  | c :: cs =>
    if t.text.isPrefixOf (c :: cs) then some ([], (c :: cs).drop t.text.length)
    else (cut t cs).map fun (before, behind) => (c :: before, behind)

/-- What a reader takes for the text between two tags, with what stands before and behind. -/
def block (opening closing : Tag) (cs : List Char) : Option (List Char × List Char × List Char) := do
  let (before, rest) ← cut opening cs
  let (inside, behind) ← cut closing rest
  some (before, inside, behind)

theorem occurrences_le_append (s rest : List Char) :
    occurrences t rest ≤ occurrences t (s ++ rest) := by
  induction s with
  | nil => exact Nat.le_refl _
  | cons c s ih => exact Nat.le_trans ih (Nat.le_add_left _ _)

theorem cut_of_once (h : occurrences t (before ++ (t.text ++ rest)) = 1) :
    cut t (before ++ (t.text ++ rest)) = some (before, rest) := by
  induction before with
  | nil =>
    have hhere : cut t (t.text ++ rest) = some ([], (t.text ++ rest).drop t.text.length) :=
      if_pos (List.isPrefixOf_iff_prefix.mpr (List.prefix_append _ _))
    rw [List.nil_append, hhere, List.drop_left]
  | cons c before ih =>
    have hlater : 1 ≤ occurrences t (before ++ (t.text ++ rest)) := by
      refine Nat.le_trans ?_ (occurrences_le_append before _)
      rw [occurrences_tag_append, if_pos rfl]
      exact Nat.le_add_right 1 _
    rw [List.cons_append] at h ⊢
    by_cases hstart : t.text <+: c :: (before ++ (t.text ++ rest))
    · rw [occurrences_of_start c hstart] at h
      omega
    · rw [occurrences_of_not_start hstart] at h
      rw [cut, if_neg (mt List.isPrefixOf_iff_prefix.mp hstart), ih h]
      rfl

theorem block_of_once {opening closing : Tag} (hopen : occurrences opening
      (before ++ (opening.text ++ (inside ++ (closing.text ++ behind)))) = 1)
    (hclose : occurrences closing
      (before ++ (opening.text ++ (inside ++ (closing.text ++ behind)))) = 1) :
    block opening closing (before ++ (opening.text ++ (inside ++ (closing.text ++ behind)))) =
      some (before, inside, behind) := by
  have hrest : occurrences closing (inside ++ (closing.text ++ behind)) = 1 := by
    refine Nat.le_antisymm ?_ ?_
    · rw [← hclose, ← List.append_assoc before]
      exact occurrences_le_append _ _
    · refine Nat.le_trans ?_ (occurrences_le_append inside _)
      rw [occurrences_tag_append, if_pos rfl]
      exact Nat.le_add_right 1 _
  rw [block, cut_of_once hopen]
  change (cut closing (inside ++ (closing.text ++ behind))).bind _ = _
  rw [cut_of_once hrest]
  rfl

/-- **The text between two tags** of a text that is put together from it: each tag occurs once, and a reader
takes just this text for the block, whatever text is put in its place. -/
structure Confined (opening closing : Tag) (build : List Char → List Char) (inside : List Char) : Prop where
  opening_once : occurrences opening (build inside) = 1
  closing_once : occurrences closing (build inside) = 1
  reads : ∃ before behind, block opening closing (build inside) = some (before, inside, behind) ∧
    ∀ other, build other = before ++ (opening.text ++ (other ++ (closing.text ++ behind)))

theorem confined_iff_once {opening closing : Tag} {build : List Char → List Char}
    (hbuild : ∀ other, build other = before ++ (opening.text ++ (other ++ (closing.text ++ behind)))) :
    Confined opening closing build inside ↔
      occurrences opening (build inside) = 1 ∧ occurrences closing (build inside) = 1 := by
  refine ⟨fun h => ⟨h.opening_once, h.closing_once⟩, fun h => ⟨h.1, h.2, before, behind, ?_, hbuild⟩⟩
  rw [hbuild] at h ⊢
  exact block_of_once h.1 h.2

/-! ## Texts that are put together -/

/-- A part of a text. -/
inductive Part where
  /-- A fixed part. -/
  | fixed (text : String)
  | tag (t : Tag)
  /-- What comes from outside. -/
  | field (text : List Char)

/-- The text of a part. -/
def Part.chars : Part → List Char
  | .fixed text => text.toList
  | .tag t => t.text
  | .field text => text

/-- The text. -/
def render (parts : List Part) : List Char := parts.flatMap Part.chars

theorem render_cons (part : Part) (parts : List Part) :
    render (part :: parts) = part.chars ++ render parts := List.flatMap_cons

theorem render_append (parts more : List Part) : render
    (parts ++ more) = render parts ++ render more :=
  List.flatMap_append

/-- How often a tag occurs in a part. -/
def Part.count (t : Tag) : Part → ℕ
  | .fixed _ => 0
  | .tag u => if u = t then 1 else 0
  | .field text => occurrences t text

/-- How often a tag occurs in the parts. -/
def counts (t : Tag) : List Part → ℕ
  | [] => 0
  | part :: parts => part.count t + counts t parts

/-- The fixed parts are without `<`, and no field is followed by something that goes on with a tag. -/
def Separated : List Part → Prop
  | [] => True
  | .fixed text :: parts => '<' ∉ text.toList ∧ Separated parts
  | .tag _ :: parts => Separated parts
  | .field _ :: parts => Opens (render parts) ∧ Separated parts

/-- **The occurrences in a text** are those of the tags that were put there and those in the fields. -/
theorem occurrences_render (t : Tag) {parts : List Part} (h : Separated parts) :
    occurrences t (render parts) = counts t parts := by
  induction parts with
  | nil => rfl
  | cons part parts ih =>
    rw [render_cons, counts]
    cases part with
    | fixed text =>
      rw [Part.chars, occurrences_fixed_append h.1, Part.count, Nat.zero_add, ih h.2]
    | tag u => rw [Part.chars, occurrences_tag_append, Part.count, ih h]
    | field text => rw [Part.chars, occurrences_field_append h.1, Part.count, ih h.2]

theorem opens_fixed {text : String} (parts : List Part) {c : Char}
    (hhead : text.toList.head? = some c)
    (hc : isBoundary c = true) : Opens (render (.fixed text :: parts)) := by
  intro d hd
  rw [render_cons, Part.chars, List.head?_append, hhead] at hd
  rw [← Option.some.inj hd]
  exact hc

/-- A literal that begins with a boundary; a literal is the list of its characters. -/
theorem opens_literal (parts : List Part) {c : Char} (cs : List Char) (hc : isBoundary c = true) :
    Opens (render (.fixed (String.ofList (c :: cs)) :: parts)) :=
  opens_fixed parts (by rw [String.toList_ofList]; rfl) hc

theorem open_notMem_literal (cs : List Char) (h : '<' ∉ cs) : '<' ∉ (String.ofList cs).toList := by
  rwa [String.toList_ofList]

theorem open_notMem_append {s t : String} (hs : '<' ∉ s.toList) (ht : '<' ∉ t.toList) :
    '<' ∉ (s ++ t).toList := by
  rw [String.toList_append, List.mem_append, not_or]
  exact ⟨hs, ht⟩

theorem opens_tag (u : Tag) (parts : List Part) : Opens (render (.tag u :: parts)) := by
  intro c hc
  rw [← Option.some.inj hc]
  decide

theorem Separated.append {parts more : List Part} (h : Separated parts) (hmore : Separated more)
    (hopens : Opens (render more)) : Separated (parts ++ more) := by
  induction parts with
  | nil => exact hmore
  | cons part parts ih =>
    cases part with
    | fixed text => exact ⟨h.1, ih h.2⟩
    | tag u => exact ih h
    | field text =>
      refine ⟨fun c hc => ?_, ih h.2⟩
      change c ∈ (render (parts ++ more)).head? at hc
      rw [render_append] at hc
      have hfield := h.1 c
      cases hparts : render parts with
      | nil =>
        rw [hparts] at hc
        exact hopens c hc
      | cons d ds =>
        rw [hparts] at hc hfield
        exact hfield hc

/-- The fields of a text. -/
def fields : List Part → List (List Char)
  | [] => []
  | .field text :: parts => text :: fields parts
  | _ :: parts => fields parts

/-- How often a tag was put into a text. -/
def placed (t : Tag) : List Part → ℕ
  | [] => 0
  | .tag u :: parts => (if u = t then 1 else 0) + placed t parts
  | _ :: parts => placed t parts

theorem fields_append (parts more : List Part) : fields
    (parts ++ more) = fields parts ++ fields more := by
  induction parts with
  | nil => rfl
  | cons part parts ih =>
    cases part with
    | fixed text => exact ih
    | tag u => exact ih
    | field text => exact congrArg (text :: ·) ih

theorem placed_append (t : Tag) (parts more : List Part) :
    placed t (parts ++ more) = placed t parts + placed t more := by
  induction parts with
  | nil => exact (Nat.zero_add _).symm
  | cons part parts ih =>
    cases part with
    | fixed text => exact ih
    | tag u =>
      rw [List.cons_append, placed, placed, ih, Nat.add_assoc]
    | field text => exact ih

theorem placed_eq_zero {parts : List Part} (h : ∀ u, .tag u ∈ parts → u ≠ t) :
    placed t parts = 0 := by
  induction parts with
  | nil => rfl
  | cons part parts ih =>
    have ih := ih fun u hu => h u (List.mem_cons_of_mem part hu)
    cases part with
    | fixed text => exact ih
    | tag u => rw [placed, if_neg (h u List.mem_cons_self), ih]
    | field text => exact ih

theorem counts_eq_placed_iff (t : Tag) (parts : List Part) :
    counts t parts = placed t parts ↔ ∀ text ∈ fields parts, occurrences t text = 0 := by
  have hle : ∀ parts, placed t parts ≤ counts t parts := by
    intro parts
    induction parts with
    | nil => exact Nat.le_refl _
    | cons part parts ih =>
      cases part with
      | fixed text =>
        rw [counts, Part.count, Nat.zero_add]
        exact ih
      | tag u => exact Nat.add_le_add_left ih _
      | field text => exact Nat.le_trans ih (Nat.le_add_left _ _)
  induction parts with
  | nil => simp [counts, placed, fields]
  | cons part parts ih =>
    cases part with
    | fixed text =>
      rw [counts, Part.count, Nat.zero_add]
      exact ih
    | tag u =>
      rw [counts, Part.count]
      exact (Nat.add_left_cancel_iff).trans ih
    | field text =>
      have hrest := hle parts
      have hsum : occurrences t text + counts t parts = placed t parts ↔
          occurrences t text = 0 ∧ counts t parts = placed t parts := by omega
      rw [fields, List.forall_mem_cons]
      exact hsum.trans (and_congr_right fun _ => ih)

theorem occurrences_eq_zero_iff (t : Tag) (cs : List Char) :
    occurrences t cs = 0 ↔ ¬ t.text <:+: cs := by
  induction cs with
  | nil =>
    rw [List.infix_nil]
    exact ⟨fun _ h => absurd h (List.cons_ne_nil _ _), fun _ => rfl⟩
  | cons c cs ih =>
    rw [List.infix_cons_iff, not_or, ← ih]
    by_cases h : t.text <+: c :: cs
    · rw [occurrences_of_start c h]
      exact ⟨fun h0 => absurd h0 (Nat.succ_ne_zero _), fun hno => absurd h hno.1⟩
    · rw [occurrences_of_not_start h]
      exact ⟨fun h0 => ⟨h, h0⟩, fun hno => hno.2⟩

/-- **The text between two tags that are put there once is confined exactly when** the tags occur in none of
the fields. -/
theorem confined_iff {opening closing : Tag} (pre : List Part) {post : List Part}
    {parts : List Char → List Part}
    (hparts : ∀ other, parts other = pre ++ .tag opening :: .field other :: .tag closing :: post)
    (hsep : Separated (parts inside)) (hopening : placed opening (parts inside) = 1)
    (hclosing : placed closing (parts inside) = 1) :
    Confined opening closing (fun other => render (parts other)) inside ↔
      ∀ text ∈ fields (parts inside), ¬ opening.text <:+: text ∧ ¬ closing.text <:+: text := by
  have honce : ∀ t : Tag, placed t (parts inside) = 1 →
      (occurrences t (render (parts inside)) = 1 ↔
        ∀ text ∈ fields (parts inside), ¬ t.text <:+: text) := by
    intro t ht
    rw [occurrences_render t hsep, ← ht, counts_eq_placed_iff]
    exact forall₂_congr fun text _ => occurrences_eq_zero_iff t text
  have htext : ∀ other, render (parts other) =
      render pre ++ (opening.text ++ (other ++ (closing.text ++ render post))) := by
    intro other
    rw [hparts, render_append, render_cons, render_cons, render_cons]
    rfl
  rw [confined_iff_once htext, honce opening hopening, honce closing hclosing]
  exact ⟨fun h text hmem => ⟨h.1 text hmem, h.2 text hmem⟩,
    fun h => ⟨fun text hmem => (h text hmem).1, fun text hmem => (h text hmem).2⟩⟩

end Markup
