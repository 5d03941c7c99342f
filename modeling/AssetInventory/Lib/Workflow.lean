import Mathlib.Data.List.Basic

/-!
# Graphs of nodes that act on a state

A workflow is a graph: a node reads the state and returns a new one or raises, and the edges, which
may look at the new state, name the next node or the end.  While it works a node does things that
are seen outside, its *events*; those it did before it raised are done.

A run is given a limit on the number of nodes it may execute, and is recorded visit by visit.

* `Graph.run`: the visits of a run and its outcome.
* `Graph.run_invariant`: what every step preserves holds before each visit and at the end, for a
  property of the next node, the state and the visits so far.
* `Graph.run_visited`: a property of each single visit, from an invariant of the states.
* `Graph.run_within`: a run whose measure falls from visit to visit ends before the limit.
-/

namespace Workflow

universe u v w x

/-- A graph over nodes `N`, states `S`, events `A` and exceptions `E`. -/
structure Graph (N : Type u) (S : Type v) (A : Type w) (E : Type x) where
  /-- What a node does: its events, and the new state or the exception it ends with. -/
  node : N → S → List A × Except E S
  /-- The next node in the state that a node left; `none` is the end. -/
  next : N → S → Option N

/-- One execution of a node. -/
structure Visit (N : Type u) (S : Type v) (A : Type w) where
  node : N
  /-- The state the node was given. -/
  before : S
  events : List A

/-- How a run ended, with the last state. -/
inductive Outcome (S : Type v) (E : Type x) where
  | finished (s : S)
  /-- A node raised; the state is the one it was given. -/
  | raised (e : E) (s : S)
  /-- The limit was reached before the end. -/
  | outOfSteps (s : S)

/-- The last state of a run. -/
def Outcome.state {S : Type v} {E : Type x} : Outcome S E → S
  | .finished s => s
  | .raised _ s => s
  | .outOfSteps s => s

/-- A run: the visits, first one first, and the outcome. -/
structure Execution (N : Type u) (S : Type v) (A : Type w) (E : Type x) where
  visited : List (Visit N S A)
  outcome : Outcome S E

variable {N : Type u} {S : Type v} {A : Type w} {E : Type x}

/-- The events of a run, in order. -/
def Execution.events (r : Execution N S A E) : List A := r.visited.flatMap Visit.events

namespace Graph

variable (g : Graph N S A E)

/-- Execute at most `limit` nodes, the first one being `n`. -/
def run : ℕ → N → S → Execution N S A E
  | 0, _, s => ⟨[], .outOfSteps s⟩
  | limit + 1, n, s =>
    let visit : Visit N S A := ⟨n, s, (g.node n s).1⟩
    match (g.node n s).2 with
    | .error e => ⟨[visit], .raised e s⟩
    | .ok t =>
      match g.next n t with
      | none => ⟨[visit], .finished t⟩
      | some m => ⟨visit :: (run limit m t).visited, (run limit m t).outcome⟩

variable {g} {limit : ℕ} {s t : S}

theorem run_of_error {n : N} {e : E} (h : (g.node n s).2 = .error e) :
    g.run (limit + 1) n s = ⟨[⟨n, s, (g.node n s).1⟩], .raised e s⟩ := by
  rw [run, h]

theorem run_of_end {n : N} (h : (g.node n s).2 = .ok t) (hn : g.next n t = none) :
    g.run (limit + 1) n s = ⟨[⟨n, s, (g.node n s).1⟩], .finished t⟩ := by
  rw [run, h]
  simp only [hn]

theorem run_of_next {n m : N} (h : (g.node n s).2 = .ok t) (hn : g.next n t = some m) :
    g.run (limit + 1) n s =
      ⟨⟨n, s, (g.node n s).1⟩ :: (g.run limit m t).visited, (g.run limit m t).outcome⟩ := by
  rw [run, h]
  simp only [hn]

theorem run_cases (g : Graph N S A E) (limit : ℕ) (n : N) (s : S) :
    (∃ e, (g.node n s).2 = .error e ∧
      g.run (limit + 1) n s = ⟨[⟨n, s, (g.node n s).1⟩], .raised e s⟩) ∨
    (∃ t, (g.node n s).2 = .ok t ∧ g.next n t = none ∧
      g.run (limit + 1) n s = ⟨[⟨n, s, (g.node n s).1⟩], .finished t⟩) ∨
    (∃ t m, (g.node n s).2 = .ok t ∧ g.next n t = some m ∧ g.run (limit + 1) n s =
        ⟨⟨n, s, (g.node n s).1⟩ :: (g.run limit m t).visited, (g.run limit m t).outcome⟩) := by
  cases h : (g.node n s).2 with
  | error e => exact Or.inl ⟨e, rfl, run_of_error h⟩
  | ok t =>
    cases hn : g.next n t with
    | none => exact Or.inr (Or.inl ⟨t, rfl, hn, run_of_end h hn⟩)
    | some m => exact Or.inr (Or.inr ⟨t, m, rfl, hn, run_of_next h hn⟩)

/-! ## Invariants -/

/-- **Invariants of a run.**  `I n s vs` is about the node to be executed next, the state it will be
given and the visits so far; `F` about the outcome and all visits.  What every visit preserves holds
before each visit, and the last visit establishes `F`. -/
theorem run_invariant {I : N → S → List (Visit N S A) → Prop}
    {F : Outcome S E → List (Visit N S A) → Prop}
    (hnext : ∀ n s vs t m, I n s vs → (g.node n s).2 = .ok t → g.next n t = some m →
      I m t (vs ++ [⟨n, s, (g.node n s).1⟩]))
    (hend : ∀ n s vs t, I n s vs → (g.node n s).2 = .ok t → g.next n t = none →
      F (.finished t) (vs ++ [⟨n, s, (g.node n s).1⟩]))
    (hraise : ∀ n s vs e, I n s vs → (g.node n s).2 = .error e →
      F (.raised e s) (vs ++ [⟨n, s, (g.node n s).1⟩]))
    (hlimit : ∀ n s vs, I n s vs → F (.outOfSteps s) vs) (limit : ℕ) {n : N}
    {vs : List (Visit N S A)} (h : I n s vs) :
    F (g.run limit n s).outcome (vs ++ (g.run limit n s).visited) := by
  induction limit generalizing n s vs with
  | zero =>
    rw [run, List.append_nil]
    exact hlimit n s vs h
  | succ limit ih =>
    rcases run_cases g limit n s with ⟨e, hs, hrun⟩ | ⟨t, hs, hn, hrun⟩ | ⟨t, m, hs, hn, hrun⟩
    · rw [hrun]
      exact hraise n s vs e h hs
    · rw [hrun]
      exact hend n s vs t h hs hn
    · have hF := ih (hnext n s vs t m h hs hn)
      rw [List.append_assoc] at hF
      rw [hrun]
      exact hF

theorem run_visited {I : N → S → Prop}
    (hnext : ∀ n s t m, I n s → (g.node n s).2 = .ok t → g.next n t = some m → I m t)
    (limit : ℕ) {n : N} (h : I n s) {v : Visit N S A} (hv : v ∈ (g.run limit n s).visited) :
    I v.node v.before ∧ v.events = (g.node v.node v.before).1 := by
  induction limit generalizing n s with
  | zero => exact absurd hv List.not_mem_nil
  | succ limit ih =>
    rcases run_cases g limit n s with ⟨e, -, hrun⟩ | ⟨t, -, -, hrun⟩ | ⟨t, m, hs, hn, hrun⟩
    · rw [hrun, List.mem_singleton] at hv
      subst hv
      exact ⟨h, rfl⟩
    · rw [hrun, List.mem_singleton] at hv
      subst hv
      exact ⟨h, rfl⟩
    · rw [hrun, List.mem_cons] at hv
      rcases hv with rfl | hv
      · exact ⟨h, rfl⟩
      · exact ih (hnext n s t m h hs hn) hv

/-! ## Ending -/

/-- **Termination within the limit.**  If a measure of the next node and the state falls with every
visit, a run whose limit is above the measure does not reach the limit, and visits at most one node
more than the measure. -/
theorem run_within {I : N → S → Prop} {r : N → S → ℕ}
    (hnext : ∀ n s t m, I n s → (g.node n s).2 = .ok t → g.next n t = some m →
      I m t ∧ r m t < r n s) {n : N} (h : I n s) (hlimit : r n s < limit) :
    (∀ t, (g.run limit n s).outcome ≠ .outOfSteps t) ∧
      (g.run limit n s).visited.length ≤ r n s + 1 := by
  induction limit generalizing n s with
  | zero => exact absurd hlimit (Nat.not_lt_zero _)
  | succ limit ih =>
    rcases run_cases g limit n s with ⟨e, -, hrun⟩ | ⟨t, -, -, hrun⟩ | ⟨t, m, hs, hn, hrun⟩
    · rw [hrun]
      exact ⟨nofun, Nat.le_add_left 1 _⟩
    · rw [hrun]
      exact ⟨nofun, Nat.le_add_left 1 _⟩
    · obtain ⟨hI, hlt⟩ := hnext n s t m h hs hn
      obtain ⟨hout, hlen⟩ := ih hI (by omega)
      rw [hrun]
      refine ⟨hout, ?_⟩
      show ((g.run limit m t).visited.length + 1) ≤ r n s + 1
      omega

end Graph

end Workflow
