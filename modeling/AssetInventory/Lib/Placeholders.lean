import Mathlib.Data.List.Basic
import Mathlib.Data.List.TakeWhile
import Mathlib.Tactic.SplitIfs

/-!
# Texts with placeholders

A placeholder is a name of word characters between an opening and a closing character, as the expression `\x7b(\w+)\x7d`
matches it.  Placeholders do not overlap, and a text falls apart in front of each opening character.

* `pieces`: a text from the left, with the matches of the expression; `holes`, `substitute`: `findall` and `sub`.
* `mem_holes_iff`: the matches are the names of the placeholders that occur.
* `substitute_append_placeholder`, `substitute_of_free`: every placeholder is replaced once, by a text that is not
  looked at again.
-/

namespace Placeholders

variable {α : Type*} [DecidableEq α]

/-- The characters of placeholders. -/
structure Brackets (α : Type*) where
  opening : α
  closing : α
  isWord : α → Bool
  opening_ne_closing : opening ≠ closing
  not_isWord_opening : isWord opening = false
  not_isWord_closing : isWord closing = false

/-- A piece of a text. -/
inductive Piece (α : Type*) where
  | char (c : α)
  | hole (name : List α)

variable (B : Brackets α)

/-- The text of a placeholder. -/
def placeholder (name : List α) : List α := B.opening :: (name ++ [B.closing])

/-- A name that a placeholder may have. -/
def IsName (name : List α) : Prop := name ≠ [] ∧ ∀ c ∈ name, B.isWord c = true

/-- The name of the placeholder whose opening character stands before the text. -/
def nameAt (cs : List α) : Option (List α) :=
  let name := cs.takeWhile B.isWord
  if name ≠ [] ∧ (cs.dropWhile B.isWord).head? = some B.closing then some name else none

/-- The pieces of a text, without as many of its first characters as belong to a placeholder before it. -/
def piecesFrom : ℕ → List α → List (Piece α)
  | _, [] => []
  | skip + 1, _ :: cs => piecesFrom skip cs
  | 0, c :: cs =>
    if c = B.opening then
      match nameAt B cs with
      | some name => .hole name :: piecesFrom (name.length + 1) cs
      | none => .char c :: piecesFrom 0 cs
    else .char c :: piecesFrom 0 cs

/-- The pieces of a text. -/
def pieces (cs : List α) : List (Piece α) := piecesFrom B 0 cs

/-- The names of the placeholders, in their order. -/
def holes (cs : List α) : List (List α) :=
  (pieces B cs).filterMap fun piece => match piece with
    | .char _ => none
    | .hole name => some name

/-- The text with every placeholder replaced. -/
def substitute (value : List α → List α) (cs : List α) : List α :=
  (pieces B cs).flatMap fun piece => match piece with
    | .char c => [c]
    | .hole name => value name

/-! ## Where a text falls apart -/

section Cuts

variable {B} {name xs ys : List α}

theorem nameAt_eq_some (h : nameAt B xs = some name) : IsName B name ∧ name ++ [B.closing] <+: xs := by
  unfold nameAt at h
  dsimp only at h
  split_ifs at h with hname
  cases h
  refine ⟨⟨hname.1, fun c hc => List.mem_takeWhile_imp hc⟩, ?_⟩
  obtain ⟨rest, hrest⟩ := List.head?_eq_some_iff.mp hname.2
  refine ⟨rest, ?_⟩
  rw [List.append_assoc, List.singleton_append, ← hrest, List.takeWhile_append_dropWhile]

theorem nameAt_append_closing (h : IsName B name) (ys : List α) : nameAt B (name ++ B.closing :: ys) = some name := by
  have hnot : ¬B.isWord B.closing = true := by
    rw [B.not_isWord_closing]
    exact Bool.false_ne_true
  have htake : (name ++ B.closing :: ys).takeWhile B.isWord = name := by
    rw [List.takeWhile_append_of_pos h.2, List.takeWhile_cons_of_neg hnot, List.append_nil]
  have hdrop : (name ++ B.closing :: ys).dropWhile B.isWord = B.closing :: ys := by
    rw [List.dropWhile_append_of_pos h.2, List.dropWhile_cons_of_neg hnot]
  unfold nameAt
  dsimp only
  rw [htake, hdrop, if_pos ⟨h.1, rfl⟩]

/-- A name does not go on behind an opening character. -/
theorem nameAt_append_opening (xs ys : List α) : nameAt B (xs ++ B.opening :: ys) = nameAt B xs := by
  have hnot : ¬B.isWord B.opening = true := by
    rw [B.not_isWord_opening]
    exact Bool.false_ne_true
  by_cases hall : ∀ c ∈ xs, B.isWord c = true
  · -- the name is cut off by the opening character, or by the end of the text
    have htake : (xs ++ B.opening :: ys).takeWhile B.isWord = xs := by
      rw [List.takeWhile_append_of_pos hall, List.takeWhile_cons_of_neg hnot, List.append_nil]
    have hdrop : (xs ++ B.opening :: ys).dropWhile B.isWord = B.opening :: ys := by
      rw [List.dropWhile_append_of_pos hall, List.dropWhile_cons_of_neg hnot]
    unfold nameAt
    dsimp only
    rw [htake, hdrop, List.dropWhile_eq_nil_iff.mpr hall, if_neg, if_neg]
    · exact fun h => nomatch h.2
    · exact fun h => B.opening_ne_closing (Option.some.inj h.2)
  · -- the name ends before the opening character
    have hlength : ¬(xs.takeWhile B.isWord).length = xs.length := fun h =>
      hall (List.takeWhile_eq_self_iff.mp ((List.takeWhile_prefix _).eq_of_length h))
    have hne : xs.dropWhile B.isWord ≠ [] := fun h => hall (List.dropWhile_eq_nil_iff.mp h)
    have htake : (xs ++ B.opening :: ys).takeWhile B.isWord = xs.takeWhile B.isWord := by
      rw [List.takeWhile_append, if_neg hlength]
    have hdrop : (xs ++ B.opening :: ys).dropWhile B.isWord = xs.dropWhile B.isWord ++ B.opening :: ys := by
      rw [List.dropWhile_append, if_neg (mt List.isEmpty_iff.mp hne)]
    obtain ⟨c, rest, hrest⟩ := List.exists_cons_of_ne_nil hne
    unfold nameAt
    dsimp only
    rw [htake, hdrop, hrest]
    rfl

/-- **A text falls apart in front of an opening character.** -/
theorem piecesFrom_append_opening {skip : ℕ} (hskip : skip ≤ xs.length) (ys : List α) :
    piecesFrom B skip (xs ++ B.opening :: ys) = piecesFrom B skip xs ++ pieces B (B.opening :: ys) := by
  induction xs generalizing skip with
  | nil =>
    obtain rfl := Nat.le_zero.mp hskip
    rfl
  | cons c xs ih =>
    cases skip with
    | succ skip => exact ih (Nat.le_of_succ_le_succ hskip)
    | zero =>
      rw [List.cons_append, piecesFrom, piecesFrom, nameAt_append_opening]
      split_ifs with hc
      · cases hname : nameAt B xs with
        | none => exact congrArg (Piece.char c :: ·) (ih (Nat.zero_le _))
        | some name =>
          -- the placeholder ends before the cut
          have hlength := (nameAt_eq_some hname).2.length_le
          rw [List.length_append, List.length_singleton] at hlength
          exact congrArg (Piece.hole name :: ·) (ih hlength)
      · exact congrArg (Piece.char c :: ·) (ih (Nat.zero_le _))

theorem piecesFrom_drop (xs ys : List α) : piecesFrom B xs.length (xs ++ ys) = pieces B ys := by
  induction xs with
  | nil => rfl
  | cons c xs ih => exact ih

/-- **The pieces of a text with a placeholder in it.** -/
theorem pieces_append_placeholder (h : IsName B name) (xs ys : List α) :
    pieces B (xs ++ placeholder B name ++ ys) = pieces B xs ++ .hole name :: pieces B ys := by
  have hback : pieces B (B.opening :: (name ++ B.closing :: ys)) = .hole name :: pieces B ys := by
    rw [pieces, piecesFrom, if_pos rfl, nameAt_append_closing h]
    have hdrop := piecesFrom_drop (B := B) (name ++ [B.closing]) ys
    rw [List.length_append, List.append_assoc] at hdrop
    exact congrArg (Piece.hole name :: ·) hdrop
  rw [placeholder, List.append_assoc, List.cons_append, List.append_assoc, List.singleton_append, pieces,
    piecesFrom_append_opening (Nat.zero_le _), hback]
  rfl

theorem hole_of_mem_piecesFrom {skip : ℕ} (h : Piece.hole name ∈ piecesFrom B skip xs) :
    IsName B name ∧ placeholder B name <:+: xs := by
  induction xs generalizing skip with
  | nil => cases skip <;> cases h
  | cons c xs ih =>
    have hback : ∀ {skip}, Piece.hole name ∈ piecesFrom B skip xs → IsName B name ∧ placeholder B name <:+: c :: xs :=
      fun h => (ih h).imp_right (List.IsInfix.trans · (List.suffix_cons c xs).isInfix)
    cases skip with
    | succ skip => exact hback h
    | zero =>
      rw [piecesFrom] at h
      split_ifs at h with hc
      · cases hname : nameAt B xs with
        | none =>
          rw [hname] at h
          exact hback ((List.mem_cons.mp h).resolve_left nofun)
        | some found =>
          rw [hname] at h
          rcases List.mem_cons.mp h with hself | h
          · cases hself
            obtain ⟨hfound, hpre⟩ := nameAt_eq_some hname
            exact ⟨hfound, hc ▸ ((List.cons_prefix_cons.mpr ⟨rfl, hpre⟩).isInfix)⟩
          · exact hback h
      · exact hback ((List.mem_cons.mp h).resolve_left nofun)

theorem mem_holes : name ∈ holes B xs ↔ Piece.hole name ∈ pieces B xs := by
  unfold holes
  rw [List.mem_filterMap]
  constructor
  · rintro ⟨piece, hpiece, h⟩
    cases piece with
    | char c => cases h
    | hole found =>
      cases h
      exact hpiece
  · exact fun h => ⟨_, h, rfl⟩

/-- **The names that are found** are those of the placeholders that occur. -/
theorem mem_holes_iff : name ∈ holes B xs ↔ IsName B name ∧ placeholder B name <:+: xs := by
  rw [mem_holes]
  refine ⟨hole_of_mem_piecesFrom, ?_⟩
  rintro ⟨hname, front, back, rfl⟩
  rw [pieces_append_placeholder hname]
  exact List.mem_append_right _ List.mem_cons_self

/-! ## Replacements -/

variable {value value' : List α → List α}

/-- **Every placeholder is replaced once**, by a text that is not looked at again. -/
theorem substitute_append_placeholder (h : IsName B name) (xs ys : List α) :
    substitute B value (xs ++ placeholder B name ++ ys) = substitute B value xs ++ value name ++ substitute B value ys := by
  rw [substitute, pieces_append_placeholder h, List.flatMap_append, List.flatMap_cons, List.append_assoc]
  rfl

/-- The pieces of a text without a placeholder. -/
theorem pieces_of_free (h : ∀ name, Piece.hole name ∉ pieces B xs) : pieces B xs = xs.map .char := by
  induction xs with
  | nil => rfl
  | cons c xs ih =>
    rw [pieces, piecesFrom] at h ⊢
    split_ifs at h ⊢ with hc
    · cases hname : nameAt B xs with
      | none =>
        rw [hname] at h
        exact congrArg (Piece.char c :: ·) (ih fun name hmem => h name (List.mem_cons_of_mem _ hmem))
      | some name =>
        rw [hname] at h
        exact absurd List.mem_cons_self (h name)
    · exact congrArg (Piece.char c :: ·) (ih fun name hmem => h name (List.mem_cons_of_mem _ hmem))

theorem substitute_of_free (h : ∀ name, name ∉ holes B xs) : substitute B value xs = xs := by
  rw [substitute, pieces_of_free fun name hmem => h name (mem_holes.mpr hmem), List.flatMap_map]
  exact List.flatMap_singleton' xs

/-- Only the values of the names that are found count. -/
theorem substitute_congr (h : ∀ name ∈ holes B xs, value name = value' name) :
    substitute B value xs = substitute B value' xs := by
  refine List.flatMap_congr fun piece hpiece => ?_
  cases piece with
  | char c => rfl
  | hole name => exact h name (mem_holes.mpr hpiece)

end Cuts

end Placeholders
