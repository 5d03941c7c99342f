import AssetInventory.Dfir.Capacity

/-!
# Releasing a slot

A DeepAgent row holds a capacity slot as long as it is `analyzing`.  A tick asks DeepAgent for the
job of every such row, and the age bound on an uncertain dispatch is there so that no row keeps its
slot for ever.  But the bound, like the answers that end a row, is looked at only when `hermes_status`
is `dispatch_uncertain`.

* `rows_of_commits`: what is in the table when a process has committed all it had to.
* `Recoverable`: the condition on the row and on the answer.
* `slot_released_iff`: a row older than the bound whose job is not reported as active is released
  exactly under this condition.
* `slot_held`: the row of a tick that crashed after its first commit is not.
-/

namespace AssetInventory

open PyJson PyTime Orm DfirInvestigation RowStore Interleaving

/-! ## Committing everything -/

section Commits

variable {cfg : Settings} {w w' : World} {p : Pid}

/-- The commits of one process, with nothing in between. -/
def OnlyCommits (p : Pid) (_ : World) (a : Action) : Prop := a = .commit p

/-- **What a process leaves** when it has committed all its flushes. -/
theorem rows_of_commits (h : Runs (step cfg) (OnlyCommits p) w w')
    (hdone : (w'.procs p).todo = []) :
    w'.rows = (w.procs p).todo.foldl (fun rows f => rowsAfter rows f.writes) w.rows := by
  -- a commit moves the first flush from the list to the table
  have hsame : (w'.procs p).todo.foldl (fun rows f => rowsAfter rows f.writes) w'.rows =
      (w.procs p).todo.foldl (fun rows f => rowsAfter rows f.writes) w.rows := by
    refine h.invariant (I := fun v => (v.procs p).todo.foldl (fun rows f => rowsAfter rows f.writes)
      v.rows = (w.procs p).todo.foldl (fun rows f => rowsAfter rows f.writes) w.rows)
      (fun v a v' hI hG hstep => ?_) rfl
    obtain rfl : a = .commit p := hG
    rw [← hI]
    cases step_cases hstep with
    | @commit _ f rest htodo hfree =>
      have hself : (v.committed p f rest).procs p =
          ⟨objsAfter (v.procs p).objs f.writes, rest, (v.procs p).phase⟩ := Function.update_self ..
      rw [hself, htodo]
      rfl
  rw [hdone] at hsame
  exact hsame

theorem get_rowFlushes (i : InvId) (tokens : Option TokenWrite)
    (l : List (DfirInvestigation × DfirInvestigation)) (rows : Table InvId DfirInvestigation) :
    ((rowFlushes i tokens l).foldl (fun rows f => rowsAfter rows f.writes) rows).get i =
      (rows.get i).map fun r => l.foldl (fun r q => writeBack q.1 q.2 r) r := by
  induction l generalizing rows with
  | nil => exact Option.map_id'.symm
  | cons q l ih =>
    obtain ⟨b, c⟩ := q
    cases l with
    | nil => exact get_rowsAfter_one rows ⟨i, b, c⟩
    | cons q' l =>
      have hget := ih (rowsAfter rows [⟨i, b, c⟩])
      rw [get_rowsAfter_one rows ⟨i, b, c⟩, Option.map_map] at hget
      exact hget

end Commits

/-! ## The condition -/

/-- **The condition under which the slot comes back.**  With a job id bound, the dispatch is
uncertain or DeepAgent does not know the job; without one, the dispatch was interrupted. -/
def Recoverable (cfg : Settings) (now : Time) (answer : HttpAnswer) (inv : DfirInvestigation) :
    Prop :=
  if truthy inv.externalJobId = true then isUncertain inv = true ∨ answer.isMissing = true
  else inv.hermesStatus = some "dispatching" ∧
    olderThan inv.startedAt (interruptedAfter cfg) now = true

theorem releases_iff_recoverable {cfg : Settings} {now : Time} {answer : HttpAnswer}
    {inv : DfirInvestigation}
    (hold : olderThan inv.startedAt cfg.deepagentReconcileMaxUncertainSeconds now = true) :
    Releases cfg now answer inv ↔ Recoverable cfg now answer inv := by
  unfold Releases Recoverable
  by_cases hjob : truthy inv.externalJobId = true
  · rw [if_pos hjob, if_pos hjob]
    constructor
    · rintro (⟨hu, -⟩ | hmissing)
      · exact Or.inl hu
      · exact Or.inr hmissing
    · rintro (hu | hmissing)
      · exact Or.inl ⟨hu, Or.inl hold⟩
      · exact Or.inr hmissing
  · rw [if_neg hjob, if_neg hjob]

/-! ## The reconcile of a row -/

/-- A tick reconciles a row that holds a slot, from its copy `r`, and commits. -/
structure Reconciled (cfg : Settings) (w : World) (p : Pid) (i : InvId) (r : DfirInvestigation)
    (env : ReconcileEnv) (w' : World) : Prop where
  /-- The row holds a slot. -/
  row : ∃ s, w.rows.get i = some s ∧ s.status = .analyzing ∧
    s.externalOrchestrator = some .deepagent
  copy : (w.procs p).objs i = some r
  /-- The copy is from a time when it did, too. -/
  analyzing : r.status = .analyzing
  /-- It is the next row of the loop. -/
  phase : ∃ queue, (w.procs p).phase = .reconciling (i :: queue)
  /-- What the tick does until its next move. -/
  run : ∃ w₁, step cfg w (.move p (.reconcile env)) = some w₁ ∧
    Runs (step cfg) (OnlyCommits p) w₁ w' ∧ (w'.procs p).todo = []

theorem status_foldl_writeBack (l : List (DfirInvestigation × DfirInvestigation))
    {r s : DfirInvestigation} (h : r.status = s.status) :
    (l.foldl (fun r q => writeBack q.1 q.2 r) r).status =
      (l.foldl (fun r q => writeBack q.1 q.2 r) s).status := by
  induction l generalizing r s with
  | nil => exact h
  | cons q l ih =>
    refine ih ?_
    rw [status_writeBack, status_writeBack, h]

/-- The status of the row after the reconcile is what the function left of the copy. -/
theorem Reconciled.status {cfg : Settings} {w w' : World} {p : Pid} {i : InvId}
    {r : DfirInvestigation} {env : ReconcileEnv} (h : Reconciled cfg w p i r env w') :
    ∃ s, w'.rows.get i = some s ∧
      s.status = (leaves (stateCheckDeepagentJob cfg w.clock env r) r).status := by
  obtain ⟨w₁, hmove, hcommits, hdone⟩ := h.run
  obtain ⟨queue, hphase⟩ := h.phase
  obtain ⟨s, hrow, hs, -⟩ := h.row
  cases step_cases hmove with
  | @move _ _ e htodo hcase =>
    cases hcase with
    | @reconcile j queue' inv env hphase' hobj =>
      have hij := Phase.reconciling.inj (hphase.symm.trans hphase')
      obtain ⟨rfl, -⟩ := List.cons.inj hij
      obtain rfl : r = inv := Option.some.inj (h.copy.symm.trans hobj)
      rw [rows_of_commits hcommits hdone]
      simp only [World.moved, Function.update_self]
      rw [get_rowFlushes, hrow]
      exact ⟨_, rfl, status_foldl_writeBack _ (hs.trans h.analyzing.symm)⟩

/-- **When a slot is released.**  Past the age bound, the row is no longer `analyzing` after the
reconcile exactly if the copy is recoverable, whatever DeepAgent answers. -/
theorem slot_released_iff (cfg : Settings) {w w' : World} {p : Pid} {i : InvId}
    {r : DfirInvestigation} {env : ReconcileEnv} (h : Reconciled cfg w p i r env w')
    (hlate : olderThan r.startedAt cfg.deepagentReconcileMaxUncertainSeconds w.clock = true) :
    (∃ r', w'.rows.get i = some r' ∧ r'.status ≠ .analyzing) ↔
      Recoverable cfg w.clock env.answer r := by
  obtain ⟨s, hs, hstatus⟩ := h.status
  rw [← releases_iff_recoverable hlate,
    ← status_stateCheckDeepagentJob_ne_analyzing_iff cfg w.clock env h.analyzing]
  constructor
  · rintro ⟨r', hr', hne⟩
    rw [hs] at hr'
    rw [← hstatus, Option.some.inj hr']
    exact hne
  · intro hne
    exact ⟨s, hs, hstatus ▸ hne⟩

/-! ## A row that is released, and one that is not -/

/-- The committing process, of a commit. -/
def Action.committer : Action → Option Pid
  | .commit p => some p
  | _ => none

theorem committer_eq_some {a : Action} {p : Pid} : a.committer = some p ↔ a = .commit p := by
  cases a <;> simp [Action.committer]

instance (p : Pid) (w : World) (a : Action) : Decidable (OnlyCommits p w a) :=
  decidable_of_iff (a.committer = some p) committer_eq_some

/-- Evaluating a run, a reconcile and the commits after it. -/
def reconciles (cfg : Settings) (p : Pid) (i : InvId) (env : ReconcileEnv) (commits : List Action)
    (test : World → DfirInvestigation → World → Bool) (w : World) : Bool :=
  (w.rows.get i).any fun r : DfirInvestigation =>
    decide (r.status = .analyzing ∧ r.externalOrchestrator = some .deepagent ∧
      (w.procs p).objs i = some r ∧ (w.procs p).phase = .reconciling [i]) &&
    (step cfg w (.move p (.reconcile env))).any fun w₁ =>
      (exec (step cfg) (OnlyCommits p) w₁ commits).any fun w' =>
        (w'.procs p).todo.isEmpty && test w r w'

theorem exists_reconciled {cfg : Settings} {p : Pid} {i : InvId} {env : ReconcileEnv}
    {commits : List Action} {test : World → DfirInvestigation → World → Bool} {w : World}
    (h : reconciles cfg p i env commits test w = true) :
    ∃ r w', Reconciled cfg w p i r env w' ∧ test w r w' = true := by
  unfold reconciles at h
  rw [Option.any_eq_true] at h
  obtain ⟨r, hr, h⟩ := h
  rw [Bool.and_eq_true, decide_eq_true_eq, Option.any_eq_true] at h
  obtain ⟨⟨hana, hdeep, hcopy, hphase⟩, w₁, hmove, h⟩ := h
  rw [Option.any_eq_true] at h
  obtain ⟨w', hexec, h⟩ := h
  rw [Bool.and_eq_true, List.isEmpty_iff] at h
  exact ⟨r, w', ⟨⟨r, hr, hana, hdeep⟩, hcopy, hana, ⟨[], hphase⟩, w₁, hmove, runs_of_exec hexec, h.1⟩,
    h.2⟩

/-- An investigation is claimed and posted, the tick ends with `rest`, half an hour and a second
pass, and a second tick selects the row. -/
def lateTrace (rest : List Action) : List Action :=
  [requestNew "1" "deepagent", .move 0 (.tickStart ["1"]), .move 0 .count,
    .move 0 (.claim ["1"]), .commit 0,
    .move 0 (.prepare ⟨.ok "windows", true, some "key", some (.ok "yaml"), .ok ()⟩ 0), .commit 0,
    .move 0 .send] ++ rest ++ [.close 0, .advance 1801000000, .move 1 (.tickStart ["1"])]

/-- **A slot that is held.**  The first tick crashed while it waited for the answer to its post, and
DeepAgent answers the reconcile with `503`: the row stays `analyzing`. -/
theorem slot_held :
    ¬ ∀ (w w' : World) (p : Pid) (i : InvId) (r : DfirInvestigation) (env : ReconcileEnv),
      Runs (step (sampleSettings 12)) anyAction emptyWorld w →
      Reconciled (sampleSettings 12) w p i r env w' →
      olderThan r.startedAt (sampleSettings 12).deepagentReconcileMaxUncertainSeconds w.clock =
        true →
      env.answer.reportsActive = false → ∃ r', w'.rows.get i = some r' ∧ r'.status ≠ .analyzing := by
  intro h
  obtain ⟨w, hrun, hw⟩ := exists_runs_of_exec (G := anyAction) (step (sampleSettings 12))
    emptyWorld (lateTrace [])
    (p := reconciles (sampleSettings 12) 1 "1" ⟨httpStatus 503, 0⟩ [] fun w r w' =>
      decide (olderThan r.startedAt 1800 w.clock = true ∧ w'.statusOf "1" = some .analyzing))
    (by decide +kernel)
  obtain ⟨r, w', hrec, htest⟩ := exists_reconciled hw
  obtain ⟨hlate, hstatus⟩ := of_decide_eq_true htest
  obtain ⟨r', hr', hne⟩ := h w w' 1 "1" r _ hrun hrec hlate rfl
  rw [World.statusOf, hr'] at hstatus
  exact hne (Option.some.inj hstatus)

/-- The post timed out, so the dispatch is uncertain: the same answer ends it. -/
theorem slot_released_of_uncertain :
    ∃ w w' r, Runs (step (sampleSettings 12)) anyAction emptyWorld w ∧
      Reconciled (sampleSettings 12) w 1 "1" r ⟨httpStatus 503, 0⟩ w' ∧
      ∃ r', w'.rows.get "1" = some r' ∧ r'.status ≠ .analyzing := by
  obtain ⟨w, hrun, hw⟩ := exists_runs_of_exec (G := anyAction) (step (sampleSettings 12))
    emptyWorld (lateTrace [.move 0 (.outcome ⟨readTimeout, 0⟩ 0), .commit 0])
    (p := reconciles (sampleSettings 12) 1 "1" ⟨httpStatus 503, 0⟩ [.commit 1] fun w r _ =>
      decide (olderThan r.startedAt 1800 w.clock = true ∧ truthy r.externalJobId = true ∧
        isUncertain r = true))
    (by decide +kernel)
  obtain ⟨r, w', hrec, htest⟩ := exists_reconciled hw
  obtain ⟨hlate, hjob, huncertain⟩ := of_decide_eq_true htest
  refine ⟨w, w', r, hrun, hrec, (slot_released_iff (sampleSettings 12) hrec hlate).mpr ?_⟩
  rw [Recoverable, if_pos hjob]
  exact Or.inl huncertain

end AssetInventory
