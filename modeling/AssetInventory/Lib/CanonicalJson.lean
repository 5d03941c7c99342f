import AssetInventory.Lib.PyText
import Mathlib.Data.List.Sort

/-!
# JSON with sorted keys

`json.dumps(x, sort_keys=True, separators=(",", ":"), ensure_ascii=False)`: the text of a value that does
not depend on the order in which an object's entries were added.

* `canonical`: the text.
* `TextsApart`: texts of which neither begins with the other, whatever follows; `textsApart_canonical`: a JSON
  string and any other value.
* `membersText_inj`: the members of two objects are read off their texts, as far as members with the same key
  have the same text or texts apart.
* `perm_of_canonical_obj`: the same for the objects themselves, up to the order of the entries.
-/

namespace PyJson

variable (R : Reprs)

/-- The members of an object as text, in the order of their keys. -/
def sortMembers (members : List (String × List Char)) : List (String × List Char) :=
  members.insertionSort fun a b => a.1 ≤ b.1

/-- A member of an object as text. -/
def memberText (m : String × List Char) : List Char := dumpsStr m.1 ++ ":".toList ++ m.2

mutual

/-- `json.dumps(x, sort_keys=True, separators=(",", ":"), ensure_ascii=False)`, as the list of its
characters. -/
def canonical : Json → List Char
  | .null => "null".toList
  | .bool true => "true".toList
  | .bool false => "false".toList
  | .num q => (numText R q).toList
  | .str s => dumpsStr s
  | .arr xs => "[".toList ++ List.intercalate ",".toList (canonicalList xs) ++ "]".toList
  | .obj kvs => "\x7b".toList ++
      List.intercalate ",".toList ((sortMembers (canonicalMembers kvs)).map memberText) ++ "\x7d".toList

/-- The texts of the entries of an array. -/
def canonicalList : List Json → List (List Char)
  | [] => []
  | x :: xs => canonical x :: canonicalList xs

/-- The keys of an object with the texts of their values. -/
def canonicalMembers : List (String × Json) → List (String × List Char)
  | [] => []
  | (k, x) :: kvs => (k, canonical x) :: canonicalMembers kvs

end

variable {R}

theorem canonicalMembers_eq_map (kvs : List (String × Json)) :
    canonicalMembers R kvs = kvs.map fun kv => (kv.1, canonical R kv.2) := by
  induction kvs with
  | nil => rfl
  | cons kv kvs ih => rw [canonicalMembers, ih, List.map_cons]

/-! ## Texts apart -/

/-- Neither text begins with the other, whatever follows. -/
def TextsApart (xs ys : List Char) : Prop := ∀ rest rest', xs ++ rest ≠ ys ++ rest'

theorem textsApart_dumpsStr {s t : String} (h : s ≠ t) : TextsApart (dumpsStr s) (dumpsStr t) :=
  fun _ _ heq => h (dumpsStr_append_inj heq).1

/-- The text begins with something else than a quotation mark. -/
def Unquoted (xs : List Char) : Prop := ∃ c cs, xs = c :: cs ∧ c ≠ '"'

theorem Unquoted.textsApart {xs : List Char} (h : Unquoted xs) (s : String) : TextsApart xs (dumpsStr s) := by
  obtain ⟨c, cs, rfl, hc⟩ := h
  intro rest rest' heq
  exact hc (List.cons.inj heq).1

theorem unquoted_natRepr (n : ℕ) : Unquoted n.repr.toList := by
  rw [Nat.toList_repr]
  cases hdigits : Nat.toDigits 10 n with
  | nil => exact absurd hdigits Nat.toDigits_ne_nil
  | cons c cs =>
    refine ⟨c, cs, rfl, ?_⟩
    rintro rfl
    have hdigit : ('"' : Char).isDigit = true :=
      Nat.isDigit_of_mem_toDigits (b := 10) (by decide) (by decide) (hdigits ▸ List.mem_cons_self)
    exact absurd hdigit (by decide)

theorem unquoted_numText (hfloat : ∀ q, Unquoted (R.float q).toList) (q : ℚ) :
    Unquoted (numText R q).toList := by
  rw [numText]
  split
  · cases q.num with
    | ofNat n => exact unquoted_natRepr n
    | negSucc n => exact ⟨'-', (n + 1).repr.toList, by simp [toString, Int.repr], by decide⟩
  · exact hfloat q

/-- **A string is told from any other value** by its text. -/
theorem textsApart_canonical (hfloat : ∀ q, Unquoted (R.float q).toList) {x : Json} {s : String}
    (h : x ≠ .str s) : TextsApart (canonical R x) (dumpsStr s) := by
  cases x with
  | str t => exact textsApart_dumpsStr fun hst => h (hst ▸ rfl)
  | num q => exact (unquoted_numText hfloat q).textsApart s
  | null => exact Unquoted.textsApart ⟨'n', "ull".toList, rfl, by decide⟩ s
  | bool b =>
    cases b with
    | true => exact Unquoted.textsApart ⟨'t', "rue".toList, rfl, by decide⟩ s
    | false => exact Unquoted.textsApart ⟨'f', "alse".toList, rfl, by decide⟩ s
  | arr xs => exact Unquoted.textsApart ⟨'[', _, rfl, by decide⟩ s
  | obj kvs => exact Unquoted.textsApart ⟨'\x7b', _, rfl, by decide⟩ s

/-! ## Reading members off their text -/

/-- What follows a member. -/
def membersAfter : List (String × List Char) → List Char
  | [] => "\x7d".toList
  | m :: ms => ",".toList ++ (memberText m ++ membersAfter ms)

/-- What follows the opening brace. -/
def membersText : List (String × List Char) → List Char
  | [] => "\x7d".toList
  | m :: ms => memberText m ++ membersAfter ms

theorem intercalate_memberText (ms : List (String × List Char)) :
    List.intercalate ",".toList (ms.map memberText) ++ "\x7d".toList = membersText ms := by
  cases ms with
  | nil => rfl
  | cons m ms =>
    induction ms generalizing m with
    | nil => rw [List.map_singleton, List.intercalate_singleton, membersText, membersAfter]
    | cons m' ms ih =>
      rw [List.map_cons, List.map_cons, List.intercalate_cons_cons, ← List.map_cons, List.append_assoc, ih,
        membersText, membersText, membersAfter]
      simp

/-- The members with the same key have the same text, or texts apart. -/
def Compatible (ms ns : List (String × List Char)) : Prop :=
  ∀ m ∈ ms, ∀ n ∈ ns, m.1 = n.1 → m.2 = n.2 ∨ TextsApart m.2 n.2

/-- What follows the value of a member. -/
def EndsValue (rest : List Char) : Prop := ∃ c cs, rest = c :: cs ∧ (c = ',' ∨ c = '\x7d')

/-- As values of members, the texts cannot be taken for one another. -/
def Delimited (xs ys : List Char) : Prop :=
  ∀ rest rest', EndsValue rest → EndsValue rest' → xs ++ rest = ys ++ rest' → xs = ys

/-- The members with the same key cannot be taken for one another. -/
def Separate (ms ns : List (String × List Char)) : Prop :=
  ∀ m ∈ ms, ∀ n ∈ ns, m.1 = n.1 → Delimited m.2 n.2

theorem TextsApart.delimited {xs ys : List Char} (h : TextsApart xs ys) : Delimited xs ys :=
  fun rest rest' _ _ heq => absurd heq (h rest rest')

theorem delimited_self (xs : List Char) : Delimited xs xs := fun _ _ _ _ _ => rfl

variable {ms ns : List (String × List Char)}

theorem Compatible.separate (h : Compatible ms ns) : Separate ms ns := by
  intro m hm n hn hkey
  rcases h m hm n hn hkey with htext | hapart
  · rw [htext]
    exact delimited_self n.2
  · exact hapart.delimited

theorem endsValue_membersAfter (ms : List (String × List Char)) : EndsValue (membersAfter ms) := by
  cases ms with
  | nil => exact ⟨'\x7d', [], rfl, .inr rfl⟩
  | cons m ms => exact ⟨',', _, rfl, .inl rfl⟩

theorem canonical_int (n : ℤ) : canonical R (.num n) = (toString n).toList := by
  rw [canonical, numText, if_pos (Rat.den_intCast n), Rat.num_intCast]

theorem canonical_singleton (s : String) :
    canonical R (.arr [.str s]) = "[".toList ++ (dumpsStr s ++ "]".toList) := by
  rw [canonical, canonicalList, canonicalList, List.intercalate_singleton, canonical, List.append_assoc]

theorem delimited_singleton (s t : String) :
    Delimited (canonical R (.arr [.str s])) (canonical R (.arr [.str t])) := by
  intro rest rest' _ _ heq
  rw [canonical_singleton, canonical_singleton, List.append_assoc, List.append_assoc, List.append_assoc,
    List.append_assoc, List.append_cancel_left_eq] at heq
  rw [(dumpsStr_append_inj heq).1]

theorem delimited_num (m n : ℤ) : Delimited (canonical R (.num m)) (canonical R (.num n)) := by
  intro rest rest' hrest hrest' heq
  have hinside : ∀ k : ℤ, ∀ x ∈ canonical R (.num k), x ≠ ',' ∧ x ≠ '\x7d' := by
    intro k x hx
    rw [canonical_int] at hx
    constructor
    all_goals
      rintro rfl
      rcases PyTime.mem_toString_int hx with h | h <;> exact absurd h (by decide)
  have hread : ∀ (k : ℤ) (r : List Char), EndsValue r →
      (canonical R (.num k) ++ r).takeWhile (fun x => x != ',' && x != '\x7d') = canonical R (.num k) := by
    intro k r hr
    obtain ⟨c, cs, rfl, hc⟩ := hr
    rw [List.takeWhile_append_of_pos fun x hx => by simp [hinside k x hx],
      List.takeWhile_cons_of_neg (by rcases hc with rfl | rfl <;> decide), List.append_nil]
  rw [← hread m rest hrest, heq, hread n rest' hrest']

theorem canonical_singleton_inj {s t : String}
    (h : canonical R (.arr [.str s]) = canonical R (.arr [.str t])) : s = t := by
  rw [canonical_singleton, canonical_singleton, List.append_cancel_left_eq] at h
  exact (dumpsStr_append_inj h).1

theorem canonical_num_inj {m n : ℤ} (h : canonical R (.num m) = canonical R (.num n)) : m = n := by
  rw [canonical_int, canonical_int] at h
  have hnat : ∀ {j k : ℕ}, j.repr.toList = k.repr.toList → j = k := by
    intro j k hjk
    rw [Nat.toList_repr, Nat.toList_repr] at hjk
    rw [← Nat.ofDigitChars_ten_toDigits (n := j), hjk, Nat.ofDigitChars_ten_toDigits]
  have hneg : ∀ k : ℕ, (toString (Int.negSucc k)).toList = '-' :: (k + 1).repr.toList := by
    intro k
    simp [toString, Int.repr]
  -- a number without a sign does not begin with one
  have hsign : ∀ (j : ℕ) (cs : List Char), j.repr.toList ≠ '-' :: cs := by
    intro j cs heq
    have hmem : '-' ∈ Nat.toDigits 10 j := by
      rw [← Nat.toList_repr, heq]
      exact List.mem_cons_self
    exact absurd (Nat.isDigit_of_mem_toDigits (by decide) (by decide) hmem) (by decide)
  cases m with
  | ofNat j =>
    cases n with
    | ofNat k => exact congrArg Int.ofNat (hnat h)
    | negSucc k => exact absurd (h.trans (hneg k)) (hsign j _)
  | negSucc j =>
    cases n with
    | ofNat k => exact absurd (h.symm.trans (hneg j)) (hsign k _)
    | negSucc k =>
      rw [hneg, hneg] at h
      exact congrArg Int.negSucc (Nat.succ.inj (hnat (List.cons.inj h).2))

theorem separate_of_forall₂ (hkeys : (ms.map Prod.fst).Nodup)
    (h : List.Forall₂ (fun m n => m.1 = n.1 ∧ Delimited m.2 n.2) ms ns) : Separate ms ns := by
  induction h with
  | nil => exact fun m hm => absurd hm List.not_mem_nil
  | @cons m n ms ns hhead htail ih =>
    rw [List.map_cons, List.nodup_cons] at hkeys
    have hsame : ms.map Prod.fst = ns.map Prod.fst := by
      clear ih hkeys
      induction htail with
      | nil => rfl
      | cons hpair _ ih => rw [List.map_cons, List.map_cons, hpair.1, ih]
    intro m' hm n' hn hkey
    rcases List.mem_cons.mp hm with rfl | hm <;> rcases List.mem_cons.mp hn with rfl | hn
    · exact hhead.2
    · rw [hkey, hsame] at hkeys
      exact absurd (List.mem_map_of_mem hn) hkeys.1
    · rw [hhead.1, ← hkey] at hkeys
      exact absurd (List.mem_map_of_mem hm) hkeys.1
    · exact ih hkeys.2 m' hm n' hn hkey

theorem memberText_append_inj {m n : String × List Char} {xs ys : List Char} (hxs : EndsValue xs)
    (hys : EndsValue ys) (hseparate : m.1 = n.1 → Delimited m.2 n.2)
    (h : memberText m ++ xs = memberText n ++ ys) : m = n ∧ xs = ys := by
  rw [memberText, memberText, List.append_assoc, List.append_assoc, List.append_assoc, List.append_assoc] at h
  obtain ⟨hkey, hrest⟩ := dumpsStr_append_inj h
  rw [List.append_cancel_left_eq] at hrest
  have htext : m.2 = n.2 := hseparate hkey xs ys hxs hys hrest
  rw [htext, List.append_cancel_left_eq] at hrest
  exact ⟨Prod.ext hkey htext, hrest⟩

theorem membersAfter_inj (hseparate : Separate ms ns)
    (h : membersAfter ms = membersAfter ns) : ms = ns := by
  induction ms generalizing ns with
  | nil =>
    cases ns with
    | nil => rfl
    | cons n ns => exact absurd (List.cons.inj h).1 (by decide)
  | cons m ms ih =>
    cases ns with
    | nil => exact absurd (List.cons.inj h).1 (by decide)
    | cons n ns =>
      rw [membersAfter, membersAfter, List.append_cancel_left_eq] at h
      obtain ⟨rfl, hrest⟩ := memberText_append_inj (endsValue_membersAfter ms) (endsValue_membersAfter ns)
        (hseparate m List.mem_cons_self n List.mem_cons_self) h
      rw [ih (fun m' hm' n' hn' => hseparate m' (List.mem_cons_of_mem _ hm') n' (List.mem_cons_of_mem _ hn'))
        hrest]

/-- **The members are read off the text** of an object. -/
theorem membersText_inj (hseparate : Separate ms ns)
    (h : membersText ms = membersText ns) : ms = ns := by
  cases ms with
  | nil =>
    cases ns with
    | nil => rfl
    | cons n ns => exact absurd (List.cons.inj h).1 (by decide)
  | cons m ms =>
    cases ns with
    | nil => exact absurd (List.cons.inj h).1 (by decide)
    | cons n ns =>
      obtain ⟨rfl, hrest⟩ := memberText_append_inj (endsValue_membersAfter ms) (endsValue_membersAfter ns)
        (hseparate m List.mem_cons_self n List.mem_cons_self) h
      rw [membersAfter_inj (fun m' hm' n' hn' =>
        hseparate m' (List.mem_cons_of_mem _ hm') n' (List.mem_cons_of_mem _ hn')) hrest]

theorem canonical_obj (kvs : List (String × Json)) :
    canonical R (.obj kvs) = "\x7b".toList ++ membersText (sortMembers (canonicalMembers R kvs)) := by
  rw [canonical, List.append_assoc, intercalate_memberText]

theorem sortMembers_of_sorted {kvs : List (String × Json)} (h : kvs.Pairwise fun a b => a.1 ≤ b.1) :
    sortMembers (canonicalMembers R kvs) = canonicalMembers R kvs := by
  rw [canonicalMembers_eq_map]
  exact List.Pairwise.insertionSort_eq (List.pairwise_map.mpr h)

/-- **Objects with the same text** have the same entries, as far as texts go. -/
theorem perm_of_canonical_obj {kvs lvs : List (String × Json)}
    (hcompatible : Compatible (canonicalMembers R kvs) (canonicalMembers R lvs))
    (h : canonical R (.obj kvs) = canonical R (.obj lvs)) :
    (canonicalMembers R kvs).Perm (canonicalMembers R lvs) := by
  have hperm : ∀ ms, (sortMembers ms).Perm ms := fun ms => List.perm_insertionSort _ ms
  rw [canonical_obj, canonical_obj, List.append_cancel_left_eq] at h
  have hsorted : sortMembers (canonicalMembers R kvs) = sortMembers (canonicalMembers R lvs) :=
    membersText_inj (fun m hm n hn =>
      hcompatible.separate m ((hperm _).mem_iff.mp hm) n ((hperm _).mem_iff.mp hn)) h
  exact (hperm _).symm.trans (hsorted ▸ hperm _)

end PyJson
