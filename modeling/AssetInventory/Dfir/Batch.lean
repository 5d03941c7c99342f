import AssetInventory.Dfir.Visibility

/-!
# The batch of a tick

A tick takes at most five of the rows that DeepAgent does not own, the oldest first.  Rows that wait
in `analyzing` for a push from Hermes are among them, though a tick does nothing with such a row.

* `World.actionable`, `World.parked`: the rows a tick can make progress on, and those that wait.
* `batch_actionable_iff`: the batch has an actionable row exactly if some actionable row has fewer
  than five parked rows before it.
* `batch_starved`: six rows, of which the five oldest are parked.
-/

namespace AssetInventory

open PyJson PyTime Orm DfirInvestigation RowStore Interleaving

/-- The row waits for a push: `_state_analyze` returns at once. -/
def World.parked (w : World) (i : InvId) : Bool :=
  (w.rows.get i).any fun r : DfirInvestigation => decide (r.status = .analyzing)

/-- The row is one on which a tick can make progress. -/
def World.actionable (w : World) (i : InvId) : Bool :=
  (w.rows.get i).any fun r : DfirInvestigation =>
    decide (r.status = .pending ∨ r.status = .running ∨ r.status = .collecting)

theorem actionable_of_mem_select {w : World} {p : Pid} {ord : List InvId} {i : InvId}
    (h : i ∈ w.select p localWhere ord) : w.parked i = !w.actionable i := by
  obtain ⟨r, hr, hholds⟩ := World.keeps_iff.mp (World.mem_select.mp h).2.1
  have hterm := ((holds_localWhere r).mp hholds).1
  rw [World.parked, World.actionable, hr]
  cases hs : r.status <;> simp_all [Status.isTerminal]

/-- The parked rows that the query would take before the row. -/
def World.parkedBefore (w : World) (p : Pid) (ord : List InvId) (i : InvId) : ℕ :=
  ((w.select p localWhere ord).takeWhile fun j => decide (j ≠ i)).countP w.parked

/-- **When a batch has work.**  The batch that a tick selects has a row on which it can make progress
if and only if some such row, unlocked, has fewer than five unlocked parked rows before it. -/
theorem batch_actionable_iff (cfg : Settings) {w w' : World} {p : Pid} {ord : List InvId}
    (h : step cfg w (.move p (.selectLocal ord)) = some w') :
    ∃ batch, (w'.procs p).phase = .working batch ∧ ((∃ i ∈ batch, w.actionable i = true) ↔
        ∃ i ∈ w.select p localWhere ord, w.actionable i = true ∧
          w.parkedBefore p ord i < localLimit) := by
  cases step_cases h with
  | @move _ _ e htodo hcase =>
    cases hcase with
    | selectLocal hphase hord =>
      refine ⟨w.selectLimit p localWhere ord localLimit, ?_, ?_⟩
      · simp only [World.moved, Function.update_self]
      · have hcount : ∀ i, w.parkedBefore p ord i =
            ((w.select p localWhere ord).takeWhile fun j => decide (j ≠ i)).countP
              fun j => !w.actionable j := fun i =>
          List.countP_congr fun j hj => by
            rw [actionable_of_mem_select (List.takeWhile_subset _ hj)]
        simp only [hcount]
        exact exists_mem_take_iff

/-! ## Five parked rows -/

/-- An environment in which nothing answers: a flow that is started fails at once. -/
def silentEnv : LocalEnv where
  dispatch := ⟨.ok "windows", false, none, none, .ok ()⟩
  reply := ⟨readTimeout, 0⟩
  reconcile := ⟨readTimeout, 0⟩
  start := ⟨none, fun _ => .error ⟨"ReadTimeout", ""⟩, 0⟩
  poll := ⟨none, fun _ => .running, 0⟩
  analyze := ⟨none, .llmError "timeout", 0⟩
  later := 0

/-- A tick up to its last query, with no DeepAgent row in the table. -/
def tickToLocal (p : Pid) (ord : List InvId) : List Action :=
  [.move p (.tickStart ord), .move p .count, .move p (.claim ord), .commit p]

/-- A tick that processes its local rows, each with two commits. -/
def localTick (p : Pid) (ord batch : List InvId) : List Action :=
  tickToLocal p ord ++ [.move p (.selectLocal ord)] ++
    (batch.map fun _ => [.move p (.process silentEnv), .commit p, .commit p]).flatten ++ [.close p]

def firstFour : List InvId := ["1", "2", "3", "4"]

def firstFive : List InvId := firstFour ++ ["5"]

/-- Five investigations of Hermes are processed until they wait for a push, then a sixth arrives, and
a third tick comes to its last query. -/
def starvedTrace : List Action :=
  firstFive.map (requestNew · "hermes") ++ localTick 0 firstFive firstFive ++
    localTick 1 firstFive firstFive ++ [.advance 1, requestNew "6" "hermes"] ++
    tickToLocal 2 (firstFive ++ ["6"])

/-- **A batch without work.**  The five oldest rows are parked; the sixth is pending and unlocked, and
not in the batch. -/
theorem batch_starved : ¬ ∀ (w w' : World) (p : Pid) (ord batch : List InvId),
      Runs (step (sampleSettings 12)) anyAction emptyWorld w →
      step (sampleSettings 12) w (.move p (.selectLocal ord)) = some w' →
      (w'.procs p).phase = .working batch →
      (∃ i ∈ w.select p localWhere ord, w.actionable i = true) →
      ∃ i ∈ batch, w.actionable i = true := by
  intro h
  obtain ⟨w, hrun, hw⟩ := exists_runs_of_exec (G := anyAction) (step (sampleSettings 12))
    emptyWorld starvedTrace
    (p := fun w => decide ("6" ∈ w.select 2 localWhere (firstFive ++ ["6"]) ∧
        w.actionable "6" = true ∧ ∀ i ∈ firstFive, w.actionable i = false) &&
      (step (sampleSettings 12) w (.move 2 (.selectLocal (firstFive ++ ["6"])))).any
        fun w' : World => decide ((w'.procs 2).phase = .working firstFive))
    (by decide +kernel)
  rw [Bool.and_eq_true, decide_eq_true_eq, Option.any_eq_true] at hw
  obtain ⟨⟨hmem, hsix, hfive⟩, w', hstep, hphase⟩ := hw
  obtain ⟨i, hi, hact⟩ :=
    h w w' 2 _ _ hrun hstep (of_decide_eq_true hphase) ⟨"6", hmem, hsix⟩
  rw [hfive i hi] at hact
  cases hact

theorem batch_actionable_of_four :
    ∃ w w' batch, Runs (step (sampleSettings 12)) anyAction emptyWorld w ∧
      step (sampleSettings 12) w (.move 2 (.selectLocal firstFive)) = some w' ∧
      (w'.procs 2).phase = .working batch ∧ ∃ i ∈ batch, w.actionable i = true := by
  obtain ⟨w, hrun, hw⟩ := exists_runs_of_exec (G := anyAction) (step (sampleSettings 12))
    emptyWorld
    (firstFour.map (requestNew · "hermes") ++ localTick 0 firstFour firstFour ++
      localTick 1 firstFour firstFour ++ [.advance 1, requestNew "5" "hermes"] ++
      tickToLocal 2 firstFive)
    (p := fun w => decide ("5" ∈ w.select 2 localWhere firstFive ∧ w.actionable "5" = true ∧
        w.parkedBefore 2 firstFive "5" = 4) &&
      (step (sampleSettings 12) w (.move 2 (.selectLocal firstFive))).isSome)
    (by decide +kernel)
  rw [Bool.and_eq_true, decide_eq_true_eq, Option.isSome_iff_exists] at hw
  obtain ⟨⟨hmem, hact, hparked⟩, w', hstep⟩ := hw
  obtain ⟨batch, hphase, hiff⟩ := batch_actionable_iff (sampleSettings 12) hstep
  refine ⟨w, w', batch, hrun, hstep, hphase, hiff.mpr ⟨"5", hmem, hact, ?_⟩⟩
  rw [hparked]
  decide

end AssetInventory
