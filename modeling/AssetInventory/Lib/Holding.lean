import AssetInventory.Lib.ReadCommitted

/-!
# Transactions that hold entries of a unique index

An `INSERT` locks its entry of a unique index until the transaction ends.  While a transaction holds an
entry, nobody else commits a row under it.

* `Keeps`: what a transaction has locked stays locked, and what is free of it stays free.
* `holding`: the discipline of such transactions.
* `stable_holds`: what a transaction holds, it goes on holding.
-/

namespace ReadCommitted

variable {D K W V : Type} [Applies W D] [DecidableEq K] {s : Store D K V} {p q : TxId} {k : K}

/-! ## The locks of the others -/

omit [Applies W D] in
theorem locks_lock_of_ne {row : Option K} (hq : q ≠ p) (hfree : row.all (s.isFree p) = true)
    (h : s.locks k = some q) : (s.lock p row).locks k = some q := by
  cases row with
  | none => exact h
  | some k' =>
    have hne : k ≠ k' := by
      rintro rfl
      rw [Option.all_some, Store.isFree, h, Option.all_some, decide_eq_true_iff] at hfree
      exact hq hfree
    show Function.update s.locks k' (some p) k = some q
    rw [Function.update_of_ne hne]
    exact h

omit [Applies W D] in
theorem locks_lock_self (row : Option K) (h : s.locks k = some p) :
    (s.lock p row).locks k = some p := by
  cases row with
  | none => exact h
  | some k' =>
    show Function.update s.locks k' (some p) k = some p
    by_cases hk : k = k'
    · rw [hk, Function.update_self]
    · rw [Function.update_of_ne hk]
      exact h

omit [DecidableEq K] [Applies W D] in
theorem locks_release_of_ne (hq : q ≠ p) (h : s.locks k = some q) :
    (s.release p).locks k = some q := by
  have hne : s.locks k ≠ some p := fun h' => hq (Option.some.inj (h.symm.trans h'))
  exact (if_neg hne).trans h

omit [Applies W D] in
theorem locks_unlock_of_ne (row : K) (hq : q ≠ p) (h : s.locks k = some q) :
    (s.unlock p row).locks k = some q := by
  have hne : s.locks k ≠ some p := fun h' => hq (Option.some.inj (h.symm.trans h'))
  exact (if_neg fun hboth => hne hboth.2).trans h

/-! ## The discipline -/

/-- What the transaction has locked stays locked, and what is free of it stays free. -/
def Keeps (Free : D → K → Prop) (p : TxId) (s t : Store D K V) : Prop :=
  ∀ k, s.locks k = some p → t.locks k = some p ∧ (Free s.data k → Free t.data k)

variable {Free : D → K → Prop}

omit [Applies W D] [DecidableEq K] in
theorem Keeps.refl (p : TxId) (s : Store D K V) : Keeps Free p s s := fun _ h => ⟨h, id⟩

omit [Applies W D] [DecidableEq K] in
theorem Keeps.trans {t u : Store D K V} (hst : Keeps Free p s t) (htu : Keeps Free p t u) :
    Keeps Free p s u := by
  intro k h
  obtain ⟨ht, hfree⟩ := hst k h
  obtain ⟨hu, hfree'⟩ := htu k ht
  exact ⟨hu, fun h => hfree' (hfree h)⟩

/-- **The discipline**: nobody makes rows under an entry that another one holds. -/
def holding (Free : D → K → Prop) (Inv : D → List V → Prop) (Allowed : Store D K V → List W → List V → Prop)
    (Opens : Store D K V → Option K → List W → Prop) : Discipline D K W V where
  Inv s := Inv s.data s.events
  Rely := Keeps Free
  Guar p s t := ∀ q, q ≠ p → Keeps Free q s t
  Allowed := Allowed
  Opens := Opens
  rely_refl := Keeps.refl
  rely_trans _ _ _ _ := Keeps.trans
  rely_of_guar _ q _ _ hq h := h q hq
  guar_refl _ s q _ := Keeps.refl q s
  lock_ok p s row hinv hfree := by
    refine ⟨?_, fun q hq k h => ?_⟩
    · rw [Store.data_lock, Store.events_lock]
      exact hinv
    · rw [Store.data_lock]
      exact ⟨locks_lock_of_ne hq hfree h, id⟩
  release_ok _ _ hinv := ⟨hinv, fun _ hq _ h => ⟨locks_release_of_ne hq h, id⟩⟩
  unlock_ok _ _ row hinv := ⟨hinv, fun _ hq _ h => ⟨locks_unlock_of_ne row hq h, id⟩⟩
  draw_ok _ s hinv := ⟨hinv, fun q _ => Keeps.refl q s⟩

variable {Inv : D → List V → Prop} {Allowed : Store D K V → List W → List V → Prop}
  {Opens : Store D K V → Option K → List W → Prop}

/-- A commit keeps what the others hold, if it makes rows only under entries of its own. -/
theorem guar_publish {ws : List W} {note : List V}
    (h : ∀ k, s.locks k ≠ some p → Free s.data k → Free (s.view ws) k) :
    (holding Free Inv Allowed Opens : Discipline D K W V).Guar p s (s.publish p ws note) := by
  intro q hq k hk
  have hne : s.locks k ≠ some p := fun h' => hq (Option.some.inj (hk.symm.trans h'))
  exact ⟨locks_release_of_ne hq hk, h k hne⟩

/-- **What a transaction holds, it goes on holding**: the entries that its pending writes name. -/
theorem stable_holds (named : List W → K → Prop) :
    Stable (holding Free Inv Allowed Opens : Discipline D K W V) p fun ws s =>
      ∀ k, named ws k → s.locks k = some p ∧ Free s.data k where
  rely ws s t hst h k hk := by
    obtain ⟨hlocked, hfree⟩ := h k hk
    obtain ⟨hlocked', hkept⟩ := hst k hlocked
    exact ⟨hlocked', hkept hfree⟩
  draw _ _ h := h
  lock ws s row h k hk := by
    obtain ⟨hlocked, hfree⟩ := h k hk
    rw [Store.data_lock]
    exact ⟨locks_lock_self row hlocked, hfree⟩

end ReadCommitted
