import Mathlib.Algebra.Order.Field.Rat

/-!
# Rounds of periodic tasks

A loop goes round a list of tasks.  In each round it attempts, in order, those whose time has come; an
exception that gets out of one ends the round.

* `Turn`, `attempts`: a task in a round, and the tasks that the round attempts.
* `attempts_all_iff`: all of those whose time has come are attempted exactly when an exception gets out of
  none that has another of them behind it.
* `exists_attempted`: a task that is attempted whenever its period is over is attempted again and again.
-/

namespace Rounds

variable {τ : Type}

/-- A task in a round. -/
structure Turn (τ : Type) where
  task : τ
  /-- Its time has come. -/
  due : Bool
  /-- An exception gets out of it. -/
  breaks : Bool

/-- The tasks that a round attempts. -/
def attempts : List (Turn τ) → List τ
  | [] => []
  | t :: ts =>
    if t.due then t.task :: (if t.breaks then [] else attempts ts) else attempts ts

theorem attempts_of_not_due {t : Turn τ} (h : t.due = false) (ts : List (Turn τ)) :
    attempts (t :: ts) = attempts ts := by
  simp [attempts, h]

theorem attempts_of_breaks {t : Turn τ} (hdue : t.due = true) (hbreaks : t.breaks = true)
    (ts : List (Turn τ)) : attempts (t :: ts) = [t.task] := by
  simp [attempts, hdue, hbreaks]

theorem attempts_of_returns {t : Turn τ} (hdue : t.due = true) (hbreaks : t.breaks = false)
    (ts : List (Turn τ)) : attempts (t :: ts) = t.task :: attempts ts := by
  simp [attempts, hdue, hbreaks]

/-- No exception gets out of a task that has another behind it whose time has come. -/
def Contained (ts : List (Turn τ)) : Prop :=
  ts.Pairwise fun t u => t.due = true → t.breaks = true → u.due = false

/-- **All the tasks whose time has come are attempted exactly when** the exceptions are contained. -/
theorem attempts_all_iff {ts : List (Turn τ)} (hnodup : (ts.map Turn.task).Nodup) :
    (∀ t ∈ ts, t.due = true → t.task ∈ attempts ts) ↔ Contained ts := by
  induction ts with
  | nil => simp [Contained]
  | cons t ts ih =>
    obtain ⟨hnew, hrest⟩ := List.nodup_cons.mp hnodup
    have ih := ih hrest
    -- the task of a later turn is not this one's
    have hne : ∀ u ∈ ts, u.task ≠ t.task := fun u hu heq =>
      hnew (heq ▸ List.mem_map_of_mem hu)
    simp only [Contained, List.pairwise_cons, List.forall_mem_cons] at ih ⊢
    cases hdue : t.due with
    | false =>
      simp only [attempts_of_not_due hdue, Bool.false_eq_true, false_implies, true_and,
        implies_true]
      exact ih
    | true =>
      cases hbreaks : t.breaks with
      | true =>
        rw [attempts_of_breaks hdue hbreaks]
        constructor
        · intro hall
          have hnone : ∀ u ∈ ts, u.due = false := by
            intro u hu
            by_contra hcon
            have hmem := hall.2 u hu (by simpa using hcon)
            exact hne u hu (List.mem_singleton.mp hmem)
          refine ⟨fun u hu _ _ => hnone u hu, ?_⟩
          exact List.pairwise_of_forall_mem_list fun u hu v hv _ _ => hnone v hv
        · intro hcon
          refine ⟨fun _ => List.mem_singleton_self _, fun u hu hd => ?_⟩
          have := hcon.1 u hu rfl rfl
          simp [this] at hd
      | false =>
        rw [attempts_of_returns hdue hbreaks]
        simp only [Bool.false_eq_true, false_implies, implies_true, true_and]
        rw [← ih]
        constructor
        · intro hall u hu hd
          rcases List.mem_cons.mp (hall.2 u hu hd) with h | h
          · exact absurd h (hne u hu)
          · exact h
        · intro hall
          exact ⟨fun _ => List.mem_cons_self, fun u hu hd => List.mem_cons_of_mem _ (hall u hu hd)⟩

/-- A task that is attempted whenever its period is over, and whose time stamp stays when it is not
attempted, is attempted again and again as the clock goes on. -/
theorem exists_attempted (now last : ℕ → ℚ) (period : ℚ) {attempted : ℕ → Prop}
    (hdue : ∀ k, period ≤ now k - last k → attempted k)
    (hidle : ∀ k, ¬ attempted k → last (k + 1) = last k)
    (hclock : ∀ t n, ∃ k, n ≤ k ∧ t ≤ now k) (n : ℕ) : ∃ k, n ≤ k ∧ attempted k := by
  by_contra hnever
  have hidle : ∀ k, n ≤ k → last (k + 1) = last k := fun k hk =>
    hidle k fun ha => hnever ⟨k, hk, ha⟩
  have hlast : ∀ k, n ≤ k → last k = last n := by
    intro k hk
    induction k, hk using Nat.le_induction with
    | base => rfl
    | succ k hk ih => rw [hidle k hk, ih]
  obtain ⟨k, hk, ht⟩ := hclock (period + last n) n
  refine hnever ⟨k, hk, hdue k ?_⟩
  rw [hlast k hk]
  exact le_sub_iff_add_le.mpr ht

end Rounds
