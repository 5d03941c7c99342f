import AssetInventory.Lib.Holding
import Mathlib.Data.Option.Basic

/-!
# Transactions that have locked a row

An `UPDATE` locks its row until the transaction ends.  Until then nobody else commits a change of it, so
what the `UPDATE` has found there is what the commit finds.

* `KeepsRows`: what a transaction has locked stays locked, and the rows stay as they are.
* `rowLocks`: the discipline of transactions that change only rows they have locked, by steps of a given
  kind.
* `stable_row`, `stable_data`: what a transaction knows of a row that it has locked, and of the data.
* `steps_of_runs`: every step of a run is of the kind.
-/

namespace ReadCommitted

open Interleaving

variable {D K W E V R Req α : Type} [Applies W D] [DecidableEq K]

/-- What the transaction has locked stays locked, and the rows stay as they are. -/
def KeepsRows (value : D → K → Option R) (p : TxId) (s t : Store D K V) : Prop :=
  ∀ k, s.locks k = some p → t.locks k = some p ∧ ∀ r, value s.data k = some r → value t.data k = some r

variable {value : D → K → Option R} {p : TxId} {s t u : Store D K V}

omit [Applies W D] [DecidableEq K] in
theorem KeepsRows.refl (p : TxId) (s : Store D K V) : KeepsRows value p s s :=
  fun _ h => ⟨h, fun _ hr => hr⟩

omit [Applies W D] [DecidableEq K] in
theorem KeepsRows.trans (hst : KeepsRows value p s t) (htu : KeepsRows value p t u) :
    KeepsRows value p s u := by
  intro k h
  obtain ⟨ht, hrow⟩ := hst k h
  obtain ⟨hu, hrow'⟩ := htu k ht
  exact ⟨hu, fun r hr => hrow' r (hrow r hr)⟩

/-- **The discipline**: nobody changes a row that another one has locked, and every change of the data is
a step of `L`. -/
def rowLocks (value : D → K → Option R) (Inv : D → Prop) (L : D → D → Prop) (hL : ∀ d, L d d)
    (Allowed : Store D K V → List W → List V → Prop) (Opens : Store D K V → Option K → List W → Prop) :
    Discipline D K W V where
  Inv s := Inv s.data
  Rely p s t := KeepsRows value p s t ∧ Relation.ReflTransGen L s.data t.data
  Guar p s t := (∀ q, q ≠ p → KeepsRows value q s t) ∧ L s.data t.data
  Allowed := Allowed
  Opens := Opens
  rely_refl p s := ⟨KeepsRows.refl p s, .refl⟩
  rely_trans _ _ _ _ hst htu := ⟨hst.1.trans htu.1, hst.2.trans htu.2⟩
  rely_of_guar _ q _ _ hq h := ⟨h.1 q hq, .single h.2⟩
  guar_refl _ s := ⟨fun q _ => KeepsRows.refl q s, hL s.data⟩
  lock_ok p s row hinv hfree := by
    rw [Store.data_lock]
    refine ⟨hinv, fun q hq k h => ⟨locks_lock_of_ne hq hfree h, ?_⟩, hL s.data⟩
    rw [Store.data_lock]
    exact fun _ hr => hr
  release_ok _ s hinv :=
    ⟨hinv, fun _ hq _ h => ⟨locks_release_of_ne hq h, fun _ hr => hr⟩, hL s.data⟩
  unlock_ok _ s row hinv :=
    ⟨hinv, fun _ hq _ h => ⟨locks_unlock_of_ne row hq h, fun _ hr => hr⟩, hL s.data⟩
  draw_ok _ s hinv := ⟨hinv, fun q _ => KeepsRows.refl q s, hL s.data⟩

variable {Inv : D → Prop} {L : D → D → Prop} {hL : ∀ d, L d d}
  {Allowed : Store D K V → List W → List V → Prop}
  {Opens : Store D K V → Option K → List W → Prop}

/-- **A commit** by a step of `L` that changes only rows which the transaction has locked. -/
theorem rowLocks_publish {ws : List W} {note : List V} (hinv : Inv (s.view ws))
    (hstep : L s.data (s.view ws))
    (h : ∀ k r, s.locks k ≠ some p → value s.data k = some r → value (s.view ws) k = some r) :
    (rowLocks value Inv L hL Allowed Opens).Inv (s.publish p ws note) ∧
      (rowLocks value Inv L hL Allowed Opens).Guar p s (s.publish p ws note) := by
  refine ⟨hinv, fun q hq k hk => ⟨locks_release_of_ne hq hk, fun r hr => ?_⟩, hstep⟩
  have hne : s.locks k ≠ some p := fun h' => hq (Option.some.inj (hk.symm.trans h'))
  exact h k r hne hr

/-- **A row that is locked** stays as it is. -/
theorem stable_row (k : K) (r : R) : Stable (rowLocks value Inv L hL Allowed Opens) p fun _ s =>
      s.locks k = some p ∧ value s.data k = some r where
  rely _ s t hst h := by
    obtain ⟨hlocked, hrow⟩ := hst.1 k h.1
    exact ⟨hlocked, hrow r h.2⟩
  draw _ _ h := h
  lock _ s row h := by
    rw [Store.data_lock]
    exact ⟨locks_lock_self row h.1, h.2⟩

theorem stable_data {P : D → Prop} (hP : ∀ d d', L d d' → P d → P d') :
    Stable (rowLocks value Inv L hL Allowed Opens) p fun _ s => P s.data := by
  refine Stable.of_data fun _ s t hst hs => ?_
  have hsteps : ∀ d, Relation.ReflTransGen L s.data d → P d := by
    intro d hd
    induction hd with
    | refl => exact hs
    | tail _ hstep ih => exact hP _ _ hstep ih
  exact hsteps t.data hst.2

theorem safe_update_open {Rd : Discipline D K W V} {Q : α → List W → Store D K V → Prop}
    {pending : List W} {f : D → Prog D K W E V α} (row : K) (writes : D → List W)
    (h : ∀ t, Rd.Rely p s t → Rd.Inv t → Rd.Opens t (some row) (writes (t.view pending)) →
      (f (t.view pending)).Safe Rd p Q (pending ++ writes (t.view pending)) (t.lock p (some row))) :
    (Prog.update row writes >>= f).Safe Rd p Q pending s := fun t hst ht hrow => h t hst ht hrow.2

/-- **Every step of a run** that is permitted is a step of `L`. -/
theorem steps_of_runs {handler : Req → Prog D K W E V Unit} {g : Engine D K W E V}
    (hhandler : ∀ p request s, Inv s.data →
      (handler request).Safe (rowLocks value Inv L hL Allowed Opens) p anyEnd [] s)
    (hs : Inv s.data)
    (hrun : Runs (Engine.step handler) (rowLocks value Inv L hL Allowed Opens).Permits
      (Engine.start s) g) :
    Inv g.store.data ∧ ∀ op g', (rowLocks value Inv L hL Allowed Opens).Permits g op →
      Engine.step handler g op = some g' → L g.store.data g'.store.data := by
  have hsafe : AllSafe (rowLocks value Inv L hL Allowed Opens) g :=
    allSafe_of_runs hhandler (allSafe_start hs) hrun
  refine ⟨hsafe.inv, fun op g' hop hstep => ?_⟩
  obtain ⟨-, _, hguar⟩ := safe_step hhandler hsafe hop hstep
  exact hguar.2

end ReadCommitted
