import Mathlib.Logic.Relation

/-!
# Runs of a partial step function

A system of interleaved processes is a partial function `step : S → A → Option S`: the action says
which process moves and what the outside world answers it, and `none` says that the action is not
enabled.  A *run under `G`* takes only actions that `G` allows in the state they are taken in.
`G := fun _ _ => True` gives all interleavings; a smaller `G` restricts the processes that take part
or the circumstances they meet.

* `Runs`: runs under a guard, with `Runs.trans`, `Runs.head`, `Runs.mono` and
  `Runs.mono_of_invariant`.
* `Runs.invariant`: the induction rule --- what one allowed step preserves, a run preserves.
* `Runs.invariant_of_reach`: the same rule when one step may use that its source was reached.
* `exists_runs_of_measure`: the progress rule --- steps that lower a measure lead to a goal.
* `exec`, `runs_of_exec`: a list of actions, run by evaluation, is a run; `exists_runs_of_exec` reads
  a state off it.
-/

namespace Interleaving

variable {S A : Type*}

/-- Finitely many steps, each allowed by `G` in the state it is taken in. -/
inductive Runs (step : S → A → Option S) (G : S → A → Prop) : S → S → Prop where
  | refl (s : S) : Runs step G s s
  | tail {s t u : S} (a : A) : Runs step G s t → G t a → step t a = some u → Runs step G s u

/-- The guard that allows every action. -/
def anyAction : S → A → Prop := fun _ _ => True

variable {step : S → A → Option S} {G H : S → A → Prop} {s t u : S}

theorem Runs.single (a : A) (ha : G s a) (h : step s a = some t) : Runs step G s t :=
  Runs.tail a (Runs.refl s) ha h

theorem Runs.trans (hst : Runs step G s t) (htu : Runs step G t u) : Runs step G s u := by
  induction htu with
  | refl => exact hst
  | tail a _ hG hstep ih => exact ih.tail a hG hstep

theorem Runs.head (a : A) (hG : G s a) (h : step s a = some t)
    (htu : Runs step G t u) : Runs step G s u :=
  (Runs.single a hG h).trans htu

theorem Runs.mono (hGH : ∀ s a, G s a → H s a) (h : Runs step G s t) : Runs step H s t := by
  induction h with
  | refl => exact Runs.refl _
  | tail a _ hG hstep ih => exact ih.tail a (hGH _ _ hG) hstep

/-- The same when the guards are compared in the states that satisfy an invariant. -/
theorem Runs.mono_of_invariant {I : S → Prop}
    (hI : ∀ s a t, I s → G s a → step s a = some t → I t) (hGH : ∀ s a, I s → G s a → H s a)
    (h : Runs step G s t) (hs : I s) : Runs step H s t := by
  have hboth : Runs step H s t ∧ I t := by
    induction h with
    | refl => exact ⟨Runs.refl _, hs⟩
    | tail a _ hG hstep ih =>
      exact ⟨ih.1.tail a (hGH _ _ ih.2 hG) hstep, hI _ a _ ih.2 hG hstep⟩
  exact hboth.1

/-- **Invariants.**  What every allowed step preserves, every run preserves. -/
theorem Runs.invariant {I : S → Prop} (hI : ∀ s a t, I s → G s a → step s a = some t → I t)
    (h : Runs step G s t) (hs : I s) : I t := by
  induction h with
  | refl => exact hs
  | tail a _ hG hstep ih => exact hI _ a _ ih hG hstep

/-- The invariant rule when the step may use the run that led to its source. -/
theorem Runs.invariant_of_reach {I : S → Prop} {s₀ : S}
    (hI : ∀ s a t, Runs step G s₀ s → I s → G s a → step s a = some t → I t)
    (h : Runs step G s₀ t) (hs : I s₀) : I t := by
  induction h with
  | refl => exact hs
  | tail a hst hG hstep ih => exact hI _ a _ hst ih hG hstep

/-- **Progress.**  If each state with an invariant is at the goal or has an allowed step that keeps
the invariant and lowers a measure, a run leads to the goal. -/
theorem exists_runs_of_measure {I goal : S → Prop} (μ : S → Nat)
    (h : ∀ s, I s → goal s ∨ ∃ a t, G s a ∧ step s a = some t ∧ I t ∧ μ t < μ s)
    (hs : I s) : ∃ t, Runs step G s t ∧ goal t := by
  induction hn : μ s using Nat.strongRecOn generalizing s with
  | ind n ih =>
    rcases h s hs with hgoal | ⟨a, t, hG, hstep, ht, hlt⟩
    · exact ⟨s, Runs.refl s, hgoal⟩
    · obtain ⟨u, htu, hgoal⟩ := ih (μ t) (hn ▸ hlt) ht rfl
      exact ⟨u, htu.head a hG hstep, hgoal⟩

/-! ## Evaluating a list of actions -/

instance (s : S) (a : A) : Decidable (anyAction s a) := isTrue trivial

/-- Take the actions of a list in order, as long as `G` allows them. -/
def exec (step : S → A → Option S) (G : S → A → Prop) [∀ s a, Decidable (G s a)] :
    S → List A → Option S
  | s, [] => some s
  | s, a :: as => if G s a then (step s a).bind fun t => exec step G t as else none

variable [∀ s a, Decidable (G s a)]

theorem runs_of_exec : ∀ {as : List A} {s t : S}, exec step G s as = some t → Runs step G s t
  | [], s, t, h => by
    rw [exec, Option.some.injEq] at h
    exact h ▸ Runs.refl s
  | a :: as, s, t, h => by
    rw [exec] at h
    split at h
    · rename_i hG
      rw [Option.bind_eq_some_iff] at h
      obtain ⟨u, hu, hut⟩ := h
      exact Runs.head a hG hu (runs_of_exec hut)
    · cases h

/-- **Reading a state off a trace.**  A trace whose last state passes a test reaches a state that
passes it. -/
theorem exists_runs_of_exec (step : S → A → Option S) (s : S) (as : List A) {p : S → Bool}
    (h : (exec step G s as).any p = true) : ∃ t, Runs step G s t ∧ p t = true := by
  rw [Option.any_eq_true] at h
  obtain ⟨t, ht, hp⟩ := h
  exact ⟨t, runs_of_exec ht, hp⟩

/-- The same for two states of one trace, the second reached from the first. -/
theorem exists_runs_of_exec_exec (step : S → A → Option S) (s : S) (as bs : List A) {p q : S → Bool}
    (h : ((exec step G s as).any fun t => p t && (exec step G t bs).any q) = true) :
    ∃ t u, Runs step G s t ∧ Runs step G t u ∧ p t = true ∧ q u = true := by
  rw [Option.any_eq_true] at h
  obtain ⟨t, ht, h⟩ := h
  rw [Bool.and_eq_true] at h
  obtain ⟨u, htu, hq⟩ := exists_runs_of_exec step t bs h.2
  exact ⟨t, u, runs_of_exec ht, htu, h.1, hq⟩

end Interleaving
