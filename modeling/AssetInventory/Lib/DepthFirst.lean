import Mathlib.Data.Finset.Card
import Mathlib.Data.Finset.Union
import Mathlib.Data.List.Nodup
import Mathlib.Logic.Relation

/-!
# Depth-first traversal of an arbitrary relation

A recursive visit that marks a node, then visits the nodes below it one after the other, and
returns at once at a marked node.  Nothing is assumed of the relation: it may have loops and
cycles, and a node may be listed below another one twice.

* `walk`: the recursion, with the marked nodes in the order of their marking.  The first argument
  bounds the depth of the recursion; `none` says that it was not enough.
* `Visits`: what a visit of several nodes does to the marked ones; `Visits.visit` and `Visits.cons`
  build it along the recursion.
* `walk_visits`, `exists_walk`, `walk_of_le`: a walk that returns is a visit; it returns when the
  depth exceeds the number of the nodes that are not marked yet; more depth changes nothing.
* `exists_walk_iff`: from no marks, exactly what is reachable gets marked.
-/

namespace DepthFirst

open Relation

variable {V : Type*}

/-- `b` is listed directly below `a`. -/
def Below (children : V → List V) (a b : V) : Prop := b ∈ children a

/-- A visit of `roots` has turned the marks `seen` into `out`. -/
structure Visits (children : V → List V) (roots seen out : List V) : Prop where
  /-- Marks are only added, at the end. -/
  grows : seen <+: out
  /-- No node is marked twice. -/
  nodup : seen.Nodup → out.Nodup
  /-- The visited nodes are marked. -/
  roots_mem : ∀ v ∈ roots, v ∈ out
  /-- Only what can be reached is marked. -/
  reached : ∀ w ∈ out, w ∈ seen ∨ ∃ v ∈ roots, ReflTransGen (Below children) v w
  /-- Below a new mark everything is marked. -/
  closed : ∀ w ∈ out, w ∉ seen → ∀ c ∈ children w, c ∈ out

namespace Visits

variable {children : V → List V} {roots seen mid out : List V} {v : V}

theorem nil (seen : List V) : Visits children [] seen seen where
  grows := List.prefix_refl seen
  nodup := id
  roots_mem := by simp
  reached := fun w hw => Or.inl hw
  closed := fun w hw hn => absurd hw hn

theorem marked (h : v ∈ seen) : Visits children [v] seen seen where
  grows := List.prefix_refl seen
  nodup := id
  roots_mem := by simpa using h
  reached := fun w hw => Or.inl hw
  closed := fun w hw hn => absurd hw hn

theorem cons (h1 : Visits children [v] seen mid) (h2 : Visits children roots mid out) :
    Visits children (v :: roots) seen out where
  grows := h1.grows.trans h2.grows
  nodup := fun h => h2.nodup (h1.nodup h)
  roots_mem := by
    intro w hw
    rcases List.mem_cons.mp hw with rfl | hw
    · exact h2.grows.subset (h1.roots_mem w (by simp))
    · exact h2.roots_mem w hw
  reached := by
    intro w hw
    rcases h2.reached w hw with hm | ⟨u, hu, hr⟩
    · rcases h1.reached w hm with hs | ⟨u, hu, hr⟩
      · exact Or.inl hs
      · rw [List.mem_singleton] at hu
        exact Or.inr ⟨v, by simp, hu ▸ hr⟩
    · exact Or.inr ⟨u, List.mem_cons_of_mem v hu, hr⟩
  closed := by
    intro w hw hn c hc
    by_cases hm : w ∈ mid
    · exact h2.grows.subset (h1.closed w hm hn c hc)
    · exact h2.closed w hw hm c hc

/-- A visit of the nodes below a node that has just been marked is a visit of that node. -/
theorem visit (hv : v ∉ seen) (h : Visits children (children v) (seen ++ [v]) out) :
    Visits children [v] seen out where
  grows := (List.prefix_append seen [v]).trans h.grows
  nodup := fun hs =>
    h.nodup (List.Nodup.append hs (List.nodup_singleton v) (by simpa using hv))
  roots_mem := by
    intro w hw
    rw [List.mem_singleton] at hw
    exact h.grows.subset (by simp [hw])
  reached := by
    intro w hw
    rcases h.reached w hw with hs | ⟨c, hc, hr⟩
    · rcases List.mem_append.mp hs with hs | hs
      · exact Or.inl hs
      · rw [List.mem_singleton] at hs
        exact Or.inr ⟨v, by simp, hs ▸ ReflTransGen.refl⟩
    · exact Or.inr ⟨v, by simp, ReflTransGen.head hc hr⟩
  closed := by
    intro w hw hn c hc
    by_cases hwv : w = v
    · subst hwv
      exact h.roots_mem c hc
    · exact h.closed w hw (by simp [hn, hwv]) c hc

/-- **A visit from no marks marks exactly what is reachable.** -/
theorem mem_iff (h : Visits children [v] [] out) {w : V} :
    w ∈ out ↔ ReflTransGen (Below children) v w := by
  constructor
  · intro hw
    rcases h.reached w hw with hs | ⟨u, hu, hr⟩
    · exact absurd hs List.not_mem_nil
    · rw [List.mem_singleton] at hu
      exact hu ▸ hr
  · intro hr
    induction hr with
    | refl => exact h.roots_mem v (by simp)
    | tail _ hbc ih => exact h.closed _ ih List.not_mem_nil _ hbc

end Visits

variable {children : V → List V} {roots seen out : List V} {f : List V → V → Option (List V)}

theorem foldlM_visits (hf : ∀ c s o, f s c = some o → Visits children [c] s o)
    (h : roots.foldlM f seen = some out) : Visits children roots seen out := by
  induction roots generalizing seen with
  | nil =>
      obtain rfl : seen = out := by simpa using h
      exact Visits.nil seen
  | cons c rest ih =>
      rw [List.foldlM_cons] at h
      obtain ⟨mid, hm, ho⟩ := Option.bind_eq_some_iff.mp h
      exact (hf c seen mid hm).cons (ih ho)

theorem foldlM_of_le {g : List V → V → Option (List V)}
    (hfg : ∀ c s o, f s c = some o → g s c = some o)
    (h : roots.foldlM f seen = some out) : roots.foldlM g seen = some out := by
  induction roots generalizing seen with
  | nil => exact h
  | cons c rest ih =>
      rw [List.foldlM_cons] at h ⊢
      obtain ⟨mid, hm, ho⟩ := Option.bind_eq_some_iff.mp h
      exact Option.bind_eq_some_iff.mpr ⟨mid, hfg c seen mid hm, ih ho⟩

variable [DecidableEq V]

/-- Mark `v` and visit what is below it, unless it is marked. -/
def walk (children : V → List V) : ℕ → V → List V → Option (List V)
  | 0, _, _ => none
  | depth + 1, v, seen =>
    if v ∈ seen then some seen
    else (children v).foldlM (fun seen c => walk children depth c seen) (seen ++ [v])

theorem walk_marked {v : V} (depth : ℕ) (h : v ∈ seen) :
    walk children (depth + 1) v seen = some seen := by
  rw [walk, if_pos h]

theorem walk_fresh {v : V} (depth : ℕ) (h : v ∉ seen) : walk children (depth + 1) v seen =
      (children v).foldlM (fun seen c => walk children depth c seen) (seen ++ [v]) := by
  rw [walk, if_neg h]

/-- **A walk that returns is a visit of its node.** -/
theorem walk_visits {depth : ℕ} {v : V}
    (h : walk children depth v seen = some out) : Visits children [v] seen out := by
  induction depth generalizing v seen out with
  | zero => exact absurd h (by simp [walk])
  | succ depth ih =>
      by_cases hv : v ∈ seen
      · rw [walk_marked depth hv] at h
        obtain rfl : seen = out := by simpa using h
        exact Visits.marked hv
      · rw [walk_fresh depth hv] at h
        exact Visits.visit hv (foldlM_visits (fun c s o => ih) h)

/-- **More depth changes nothing** for a walk that returns. -/
theorem walk_of_le {depth more : ℕ} (hle : depth ≤ more) {v : V}
    (h : walk children depth v seen = some out) : walk children more v seen = some out := by
  induction depth generalizing more v seen out with
  | zero => exact absurd h (by simp [walk])
  | succ depth ih =>
      obtain ⟨more, rfl⟩ : ∃ m, more = m + 1 := ⟨more - 1, by omega⟩
      by_cases hv : v ∈ seen
      · rw [walk_marked depth hv] at h
        rw [walk_marked more hv, h]
      · rw [walk_fresh depth hv] at h
        rw [walk_fresh more hv]
        exact foldlM_of_le (fun c s o => ih (by omega)) h

section Termination

/-! ## Enough depth

Every call that goes deeper has marked a node, so the nodes that are not marked bound the depth. -/

/-- How many nodes of `univ` are not marked. -/
def unmarked (univ : Finset V) (seen : List V) : ℕ := (univ \ seen.toFinset).card

theorem unmarked_mono (univ : Finset V) (h : seen <+: out) :
    unmarked univ out ≤ unmarked univ seen := by
  refine Finset.card_le_card (Finset.sdiff_subset_sdiff (Finset.Subset.refl univ) ?_)
  intro w hw
  rw [List.mem_toFinset] at hw ⊢
  exact h.subset hw

theorem unmarked_mark {univ : Finset V} {v : V} (hu : v ∈ univ) (hv : v ∉ seen) :
    unmarked univ (seen ++ [v]) < unmarked univ seen := by
  refine Finset.card_lt_card ⟨?_, ?_⟩
  · intro w hw
    simp only [Finset.mem_sdiff, List.mem_toFinset, List.mem_append, not_or] at hw ⊢
    exact ⟨hw.1, hw.2.1⟩
  · intro hsub
    have hw : v ∈ univ \ (seen ++ [v]).toFinset := hsub (by simp [hu, hv])
    simp at hw

variable {univ : Finset V}

theorem exists_foldlM {n : ℕ} (hf : ∀ c s o, f s c = some o → Visits children [c] s o)
    (hsome : ∀ c ∈ univ, ∀ s, unmarked univ s < n → ∃ o, f s c = some o)
    (hr : ∀ c ∈ roots, c ∈ univ) (hs : unmarked univ seen < n) :
    ∃ out, roots.foldlM f seen = some out := by
  induction roots generalizing seen with
  | nil => exact ⟨seen, rfl⟩
  | cons c rest ih =>
      obtain ⟨mid, hm⟩ := hsome c (hr c (by simp)) seen hs
      have hmid : unmarked univ mid < n :=
        lt_of_le_of_lt (unmarked_mono univ (hf c seen mid hm).grows) hs
      obtain ⟨out, ho⟩ := ih (fun d hd => hr d (List.mem_cons_of_mem c hd)) hmid
      refine ⟨out, ?_⟩
      rw [List.foldlM_cons]
      exact Option.bind_eq_some_iff.mpr ⟨mid, hm, ho⟩

/-- **A walk returns** when its depth exceeds the number of the nodes that are not marked. -/
theorem exists_walk (hu : ∀ a, ∀ c ∈ children a, c ∈ univ) {depth : ℕ} {v : V}
    (hv : v ∈ univ) (h : unmarked univ seen < depth) :
    ∃ out, walk children depth v seen = some out := by
  induction depth generalizing v seen with
  | zero => omega
  | succ depth ih =>
      by_cases hm : v ∈ seen
      · exact ⟨seen, walk_marked depth hm⟩
      · rw [walk_fresh depth hm]
        have hless : unmarked univ (seen ++ [v]) < depth := by
          have := unmarked_mark hv hm
          omega
        exact exists_foldlM (fun c s o => walk_visits) (fun c hc s => ih hc) (hu v) hless

end Termination

/-- **The walk from `v` returns, and marks exactly what can be reached from `v`, each once.** -/
theorem exists_walk_iff {univ : Finset V} (hu : ∀ a, ∀ c ∈ children a, c ∈ univ) (v : V) :
    ∃ out, (∀ depth, univ.card + 1 < depth → walk children depth v [] = some out) ∧ out.Nodup ∧
      ∀ w, w ∈ out ↔ ReflTransGen (Below children) v w := by
  have hcard : unmarked (insert v univ) [] < univ.card + 2 := by
    have h1 : unmarked (insert v univ) [] = (insert v univ).card := by simp [unmarked]
    have h2 := Finset.card_insert_le v univ
    omega
  have huniv : ∀ a, ∀ c ∈ children a, c ∈ insert v univ := fun a c hc =>
    Finset.mem_insert_of_mem (hu a c hc)
  obtain ⟨out, ho⟩ := exists_walk huniv (Finset.mem_insert_self v univ) hcard
  have hvisit := walk_visits ho
  exact ⟨out, fun depth hd => walk_of_le (by omega) ho, hvisit.nodup List.nodup_nil,
    fun w => hvisit.mem_iff⟩

end DepthFirst
