import AssetInventory.Lib.ReadCommitted
import Mathlib.Data.Option.Basic

/-!
# Numbers that a transaction has drawn

Identities and random values are numbers from one supply.  Nobody else draws a number that a transaction
has drawn, so nobody else uses it, and what the transaction makes with it is new.

* `LeavesNumbers`: what the others do about the numbers of a transaction.
* `numbering`: the discipline of transactions that use only numbers which were used before or which they have
  drawn, and whose changes obey a law.
* `Own`: a number that is drawn and not used; `own_draw`, `stable_own`: it stays so.
* `law_of_runs`: every step of a run obeys the law.
-/

namespace ReadCommitted

open Interleaving

variable {D K W E V Req : Type} [Applies W D]

/-- The others draw other numbers, and use none that the transaction has drawn. -/
structure LeavesNumbers (uses : D → ℕ → Prop) (p : TxId) (s t : Store D K V) : Prop where
  drawn : ∀ n : ℕ, t.drawn[n]? = some p ↔ s.drawn[n]? = some p
  unused : ∀ n : ℕ, s.drawn[n]? = some p → uses t.data n → uses s.data n

variable {uses : D → ℕ → Prop} {p q : TxId} {s t u : Store D K V}

omit [Applies W D] in
theorem LeavesNumbers.refl (p : TxId) (s : Store D K V) : LeavesNumbers uses p s s :=
  ⟨fun _ => Iff.rfl, fun _ _ h => h⟩

omit [Applies W D] in
theorem LeavesNumbers.trans (hst : LeavesNumbers uses p s t) (htu : LeavesNumbers uses p t u) :
    LeavesNumbers uses p s u where
  drawn n := (htu.drawn n).trans (hst.drawn n)
  unused n hn h := hst.unused n hn (htu.unused n ((hst.drawn n).mpr hn) h)

omit [Applies W D] in
theorem leavesNumbers_of_eq (hdata : t.data = s.data) (hdrawn : t.drawn = s.drawn) (p : TxId) :
    LeavesNumbers uses p s t := by
  refine ⟨fun n => ?_, fun n _ h => ?_⟩
  · rw [hdrawn]
  · rwa [hdata] at h

omit [Applies W D] in
theorem leavesNumbers_draw (hq : q ≠ p) : LeavesNumbers uses q s (s.draw p) :=
  ⟨s.getElem?_drawn_draw p hq, fun _ _ h => h⟩

variable [DecidableEq K]

/-- **The discipline**: numbers are used only by who has drawn them, unless they are in use, and every
change of the data and of what has been announced obeys the law. -/
def numbering (uses : D → ℕ → Prop) (Law : D × List V → D × List V → Prop) (hrefl : ∀ x, Law x x)
    (Allowed : Store D K V → List W → List V → Prop) : Discipline D K W V where
  Inv s := ∀ n, uses s.data n → n < s.drawn.length
  Rely p s t := LeavesNumbers uses p s t ∧ Relation.ReflTransGen Law (s.data, s.events) (t.data, t.events)
  Guar p s t := (∀ q, q ≠ p → LeavesNumbers uses q s t) ∧ Law (s.data, s.events) (t.data, t.events)
  Allowed := Allowed
  rely_refl p s := ⟨LeavesNumbers.refl p s, .refl⟩
  rely_trans _ _ _ _ hst htu := ⟨hst.1.trans htu.1, hst.2.trans htu.2⟩
  rely_of_guar _ q _ _ hq h := ⟨h.1 q hq, .single h.2⟩
  guar_refl _ s := ⟨fun q _ => LeavesNumbers.refl q s, hrefl _⟩
  lock_ok p s row hinv _ := by
    refine ⟨?_, fun q _ => leavesNumbers_of_eq (s.data_lock p row) (s.drawn_lock p row) q, ?_⟩
    · rw [Store.data_lock, Store.drawn_lock]
      exact hinv
    · rw [Store.data_lock, Store.events_lock]
      exact hrefl _
  release_ok p s hinv :=
    ⟨hinv, fun q _ => leavesNumbers_of_eq (s := s) (t := s.release p) rfl rfl q, hrefl _⟩
  unlock_ok p s row hinv :=
    ⟨hinv, fun q _ => leavesNumbers_of_eq (s := s) (t := s.unlock p row) rfl rfl q, hrefl _⟩
  draw_ok p s hinv := by
    refine ⟨fun n hn => ?_, fun q hq => leavesNumbers_draw hq, hrefl _⟩
    have hlt : n < s.drawn.length := hinv n hn
    show n < (s.drawn ++ [p]).length
    rw [List.length_append]
    omega

variable {Law : D × List V → D × List V → Prop} {hrefl : ∀ x, Law x x}
  {Allowed : Store D K V → List W → List V → Prop}

/-- **A commit** that uses only numbers in use and numbers of its own. -/
theorem numbering_publish {ws : List W} {note : List V}
    (hinv : (numbering uses Law hrefl Allowed).Inv s)
    (hnew : ∀ n, uses (s.view ws) n → uses s.data n ∨ s.drawn[n]? = some p)
    (hlaw : Law (s.data, s.events) (s.view ws, note ++ s.events)) :
    (numbering uses Law hrefl Allowed).Inv (s.publish p ws note) ∧
      (numbering uses Law hrefl Allowed).Guar p s (s.publish p ws note) := by
  refine ⟨fun n hn => ?_, fun q hq => ⟨fun _ => Iff.rfl, fun n hdrawn hn => ?_⟩, hlaw⟩
  · rcases hnew n hn with hold | hown
    · exact hinv n hold
    · exact (List.getElem?_eq_some_iff.mp hown).1
  · rcases hnew n hn with hold | hown
    · exact hold
    · rw [hown] at hdrawn
      exact absurd (Option.some.inj hdrawn).symm hq

/-- The transaction has drawn the number, and nothing uses it. -/
structure Own (uses : D → ℕ → Prop) (p : TxId) (n : ℕ) (s : Store D K V) : Prop where
  drawn : s.drawn[n]? = some p
  unused : ¬ uses s.data n

theorem own_draw (hinv : (numbering uses Law hrefl Allowed).Inv s) :
    Own uses p s.drawn.length (s.draw p) where
  drawn := by simp [Store.draw]
  unused h := Nat.lt_irrefl _ (hinv _ h)

/-- **A number of its own** stays so. -/
theorem stable_own (n : ℕ) :
    Stable (numbering uses Law hrefl Allowed) p fun _ s => Own uses p n s where
  rely _ _ _ hst h := ⟨(hst.1.drawn n).mpr h.drawn, fun hn => h.unused (hst.1.unused n h.drawn hn)⟩
  draw _ s h := by
    have hlt : n < s.drawn.length := (List.getElem?_eq_some_iff.mp h.drawn).1
    refine ⟨?_, h.unused⟩
    rw [Store.draw, List.getElem?_append_left hlt]
    exact h.drawn
  lock _ s row h := by
    refine ⟨?_, ?_⟩
    · rw [Store.drawn_lock]
      exact h.drawn
    · rw [Store.data_lock]
      exact h.unused

theorem stable_law {P : D → Prop} (hP : ∀ x y, Law x y → P x.1 → P y.1) :
    Stable (numbering uses Law hrefl Allowed) p fun _ s => P s.data := by
  refine Stable.of_data fun _ s t hst hs => ?_
  have hsteps : ∀ x, Relation.ReflTransGen Law (s.data, s.events) x → P x.1 := by
    intro x hx
    induction hx with
    | refl => exact hs
    | tail _ hstep ih => exact hP _ _ hstep ih
  exact hsteps _ hst.2

/-- **Every step of a run** that is permitted obeys the law. -/
theorem law_of_runs {handler : Req → Prog D K W E V Unit} {g : Engine D K W E V}
    (hhandler : ∀ p request s, (numbering uses Law hrefl Allowed).Inv s →
      (handler request).Safe (numbering uses Law hrefl Allowed) p anyEnd [] s)
    (hs : (numbering uses Law hrefl Allowed).Inv s)
    (hrun : Runs (Engine.step handler) (CommitsOnly Allowed) (Engine.start s) g) :
    AllSafe (numbering uses Law hrefl Allowed) g ∧ ∀ op g', CommitsOnly Allowed g op →
      Engine.step handler g op = some g' →
        Law (g.store.data, g.store.events) (g'.store.data, g'.store.events) := by
  have hsafe : AllSafe (numbering uses Law hrefl Allowed) g :=
    allSafe_of_runs hhandler (allSafe_start hs) (permits_of_commits (fun _ _ _ => trivial) hrun)
  refine ⟨hsafe, fun op g' hop hstep => ?_⟩
  have hpermits : (numbering uses Law hrefl Allowed).Permits g op := by
    refine ⟨hop, ?_⟩
    cases op with
    | run p e => exact fun _ _ => trivial
    | _ => trivial
  obtain ⟨-, _, hguar⟩ := safe_step hhandler hsafe hpermits hstep
  exact hguar.2

end ReadCommitted
