import AssetInventory.Dfir.Model

/-!
# Reconciling a DeepAgent job

`stateCheckDeepagentJob` is what a worker tick does with an analyzing DeepAgent row: ask DeepAgent
for the job and decide from the answer whether the row goes on, is failed, or returns to the queue.

* `requeueInterrupted`, `reconcileTimeout`, `reconcileDispatched`, `reconcileFailed`,
  `requeueMissing`: the five assignments it makes.
* `stateCheckDeepagentJob_cases`: it commits at most once, and then one of the five.
* `ReconcileWrite`: what such a commit can change.
* `Releases`: the condition on the row and the answer under which the row leaves `analyzing`, with
  `status_stateCheckDeepagentJob_ne_analyzing_iff`.
-/

namespace AssetInventory

open PyJson PyTime Orm DfirInvestigation

/-- What a reconcile meets: the answer to `GET /v1/jobs/{id}`, and the time when it has come. -/
structure ReconcileEnv where
  answer : HttpAnswer
  later : Time

/-! ## The assignments -/

/-- No job id was bound and the dispatch is old: back to the queue. -/
def requeueInterrupted (inv : DfirInvestigation) : DfirInvestigation :=
  { inv with
    status := .pending
    hermesStatus := some "recovery_required"
    hermesResponse := some (.obj [("reason", .str "deepagent_dispatch_interrupted")]) }

/-- The dispatch has been uncertain for too long. -/
def reconcileTimeout (cfg : Settings) (later : Time) (inv : DfirInvestigation) :
    DfirInvestigation :=
  { inv with
    status := .failed
    hermesStatus := some "reconcile_timeout"
    error := some (truncate 2000
      ("dispatch_uncertain không reconcile được sau " ++
        toString cfg.deepagentReconcileMaxUncertainSeconds ++ "s — " ++
        "DeepAgent backend có thể unhealthy kéo dài"))
    completedAt := some later }

/-- The job exists. -/
def reconcileDispatched (jobStatus : Json) (inv : DfirInvestigation) : DfirInvestigation :=
  { inv with
    hermesStatus := some "dispatched"
    hermesResponse := some (.obj
      [("job_id", (inv.externalJobId.map Json.str).getD .null), ("status", jobStatus),
        ("reconciled", .bool true)]) }

/-- DeepAgent refuses the request for good. -/
def reconcileFailed (statusCode : ℕ) (later : Time) (inv : DfirInvestigation) : DfirInvestigation :=
  { inv with
    status := .failed
    hermesStatus := some "reconcile_failed"
    error := some (truncate 2000
      ("DeepAgent GET /v1/jobs/" ++ inv.externalJobId.getD "None" ++ " returned HTTP " ++
        toString statusCode ++ " — terminal auth/config hoặc " ++
        "protocol incompatibility, không thể reconcile"))
    completedAt := some later }

/-- DeepAgent does not know the job: back to the queue. -/
def requeueMissing (inv : DfirInvestigation) : DfirInvestigation :=
  { inv with
    status := .pending
    externalJobId := none
    hermesStatus := some "recovery_required"
    hermesResponse := some (.obj [("reason", .str "deepagent_job_missing_after_restart")]) }

/-! ## The function -/

/-- `inv.hermes_status == "dispatch_uncertain"`. -/
def isUncertain (inv : DfirInvestigation) : Bool :=
  decide (inv.hermesStatus = some "dispatch_uncertain")

/-- The bound, in seconds, on a dispatch that has bound no job id. -/
def interruptedAfter (cfg : Settings) : ℤ := max (cfg.deepagentRequestTimeoutSeconds * 2) 60

/-- `response.json()`, or `{}` if the body does not decode. -/
def bodyOrEmpty : Except PyExc Json → Json
  | .ok body => body
  | .error _ => .obj []

/-- `_state_check_deepagent_job`.  An exception here is not caught by the worker. -/
def stateCheckDeepagentJob (cfg : Settings) (now : Time) (env : ReconcileEnv)
    (inv : DfirInvestigation) : Outcome PyExc :=
  let s := Session.load inv
  if truthy inv.externalJobId = false then
    if inv.hermesStatus = some "dispatching" ∧
        olderThan inv.startedAt (interruptedAfter cfg) now = true then
      .ret (s.set requeueInterrupted).commit
    else .ret s
  else if isUncertain inv = true ∧
      olderThan inv.startedAt cfg.deepagentReconcileMaxUncertainSeconds now = true then
    .ret (s.set (reconcileTimeout cfg now)).commit
  else
    match env.answer with
    | .raised _ => .ret s
    | .response code _ body =>
      if 200 ≤ code ∧ code < 300 then
        if isUncertain inv = true then
          match (bodyOrEmpty body).entries? with
          | some kvs =>
            .ret (s.set (reconcileDispatched (getD kvs "status" .null))).commit
          -- the status is assigned before `.get` raises, and never flushed
          | none =>
            .raise (s.set fun r => { r with hermesStatus := some "dispatched" })
              (attributeError (bodyOrEmpty body))
        else .ret s
      else if code ≠ 404 then
        if isUncertain inv = true ∧ code ∈ [400, 401, 403, 422] then
          .ret (s.set (reconcileFailed code env.later)).commit
        else .ret s
      else .ret (s.set requeueMissing).commit

/-! ## What it commits -/

/-- **The commits of a reconcile.**  There is at most one, and it makes one of five assignments, each
under its own condition. -/
theorem stateCheckDeepagentJob_cases (cfg : Settings) (now : Time) (env : ReconcileEnv)
    (inv : DfirInvestigation) : (stateCheckDeepagentJob cfg now env inv).session.flushed = [] ∨
    ∃ c, (stateCheckDeepagentJob cfg now env inv).session.flushed = [(inv, c)] ∧
      (stateCheckDeepagentJob cfg now env inv).raised = none ∧
      (c = requeueInterrupted inv ∨ c = reconcileTimeout cfg now inv ∨
        (∃ status, isUncertain inv = true ∧ c = reconcileDispatched status inv) ∨
        (∃ code, c = reconcileFailed code env.later inv) ∨ c = requeueMissing inv) := by
  unfold stateCheckDeepagentJob
  dsimp only
  split
  · split
    · exact Or.inr ⟨_, rfl, rfl, Or.inl rfl⟩
    · exact Or.inl rfl
  · split
    · exact Or.inr ⟨_, rfl, rfl, Or.inr (Or.inl rfl)⟩
    · cases env.answer with
      | raised e => exact Or.inl rfl
      | response code text body =>
        dsimp only
        split
        · split
          · rename_i hu
            split
            · exact Or.inr ⟨_, rfl, rfl, Or.inr (Or.inr (Or.inl ⟨_, hu, rfl⟩))⟩
            · exact Or.inl rfl
          · exact Or.inl rfl
        · split
          · split
            · exact Or.inr ⟨_, rfl, rfl, Or.inr (Or.inr (Or.inr (Or.inl ⟨_, rfl⟩)))⟩
            · exact Or.inl rfl
          · exact Or.inr ⟨_, rfl, rfl, Or.inr (Or.inr (Or.inr (Or.inr rfl)))⟩

/-- What a commit of a reconcile can change. -/
structure ReconcileWrite (b c : DfirInvestigation) : Prop where
  kept : Kept b c
  /-- The row stays where it is, returns to the queue, or fails. -/
  status : c.status = b.status ∨ c.status = .pending ∨ c.status = .failed
  /-- The polling lease is not touched. -/
  polled : c.externalPolledAt = b.externalPolledAt
  /-- The answer of a job is recorded only for an uncertain dispatch or on the way to the queue. -/
  response : c.hermesResponse = b.hermesResponse ∨ c.status = .pending ∨ isUncertain b = true

variable {inv c : DfirInvestigation}

theorem reconcileWrite_of_mem {cfg : Settings} {now : Time} {env : ReconcileEnv}
    {b : DfirInvestigation}
    (h : (b, c) ∈ (stateCheckDeepagentJob cfg now env inv).session.flushed) :
    b = inv ∧ ReconcileWrite inv c := by
  rcases stateCheckDeepagentJob_cases cfg now env inv with h₀ | ⟨d, hd, -, hcases⟩
  · rw [h₀] at h
    exact absurd h List.not_mem_nil
  · rw [hd, List.mem_singleton, Prod.mk.injEq] at h
    obtain ⟨rfl, rfl⟩ := h
    refine ⟨rfl, ?_⟩
    rcases hcases with rfl | rfl | ⟨st, hu, rfl⟩ | ⟨code, rfl⟩ | rfl
    · exact ⟨⟨rfl, rfl, rfl, rfl⟩, Or.inr (Or.inl rfl), rfl, Or.inr (Or.inl rfl)⟩
    · exact ⟨⟨rfl, rfl, rfl, rfl⟩, Or.inr (Or.inr rfl), rfl, Or.inl rfl⟩
    · exact ⟨⟨rfl, rfl, rfl, rfl⟩, Or.inl rfl, rfl, Or.inr (Or.inr hu)⟩
    · exact ⟨⟨rfl, rfl, rfl, rfl⟩, Or.inr (Or.inr rfl), rfl, Or.inl rfl⟩
    · exact ⟨⟨rfl, rfl, rfl, rfl⟩, Or.inr (Or.inl rfl), rfl, Or.inr (Or.inl rfl)⟩

/-! ## When the row leaves `analyzing` -/

/-- The answers that report the job as queued or running. -/
def HttpAnswer.reportsActive : HttpAnswer → Bool
  | .raised _ => false
  | .response code _ body =>
    decide (200 ≤ code ∧ code < 300) &&
      match (bodyOrEmpty body).entries? with
      | some kvs => decide (getD kvs "status" .null ∈ [.str "queued", .str "running"])
      | none => false

/-- The answer is `404`. -/
def HttpAnswer.isMissing : HttpAnswer → Bool
  | .raised _ => false
  | .response code _ _ => decide (code = 404)

/-- The answer is one of the four that end an uncertain dispatch. -/
def HttpAnswer.isRefused : HttpAnswer → Bool
  | .raised _ => false
  | .response code _ _ => decide (code ∈ [400, 401, 403, 422])

/-- **The exact condition for leaving `analyzing`.**  With a job id bound, the row must be uncertain
and old or uncertain and refused, or the job must be unknown; without one, the row must still be
dispatching and old. -/
def Releases (cfg : Settings) (now : Time) (answer : HttpAnswer) (inv : DfirInvestigation) : Prop :=
  if truthy inv.externalJobId = true then
    (isUncertain inv = true ∧
      (olderThan inv.startedAt cfg.deepagentReconcileMaxUncertainSeconds now = true ∨
        answer.isRefused = true)) ∨ answer.isMissing = true
  else inv.hermesStatus = some "dispatching" ∧
    olderThan inv.startedAt (interruptedAfter cfg) now = true

/-- What a session leaves of the row it was loaded from. -/
def leaves {ε : Type} (o : Outcome ε) (inv : DfirInvestigation) : DfirInvestigation :=
  o.session.flushed.foldl (fun r p => writeBack p.1 p.2 r) inv

theorem leaves_of_flushed_nil {ε : Type} {o : Outcome ε}
    (h : o.session.flushed = []) : leaves o inv = inv := by
  rw [leaves, h, List.foldl_nil]

theorem leaves_of_flushed_one {ε : Type} {o : Outcome ε}
    (h : o.session.flushed = [(inv, c)]) : leaves o inv = c := by
  rw [leaves, h, List.foldl_cons, List.foldl_nil, writeBack_base]

theorem status_stateCheckDeepagentJob_ne_analyzing_iff (cfg : Settings) (now : Time)
    (env : ReconcileEnv) (hinv : inv.status = .analyzing) :
    (leaves (stateCheckDeepagentJob cfg now env inv) inv).status ≠ .analyzing ↔
      Releases cfg now env.answer inv := by
  -- a branch that commits nothing leaves the row analyzing
  have stays : ∀ (o : Outcome PyExc) {P : Prop}, o.session.flushed = [] → ¬P →
      ((leaves o inv).status ≠ .analyzing ↔ P) := fun o P ho hP =>
    iff_of_false (not_not_intro (by rw [leaves_of_flushed_nil ho, hinv])) hP
  unfold stateCheckDeepagentJob Releases
  dsimp only
  by_cases hjob : truthy inv.externalJobId = true
  · rw [if_neg (by simp [hjob]), if_pos hjob]
    by_cases hold : isUncertain inv = true ∧
        olderThan inv.startedAt cfg.deepagentReconcileMaxUncertainSeconds now = true
    · rw [if_pos hold, leaves_of_flushed_one rfl]
      exact iff_of_true (by simp [reconcileTimeout]) (Or.inl ⟨hold.1, Or.inl hold.2⟩)
    · rw [if_neg hold]
      cases hans : env.answer with
      | raised e =>
        refine stays _ rfl ?_
        simp only [HttpAnswer.isRefused, HttpAnswer.isMissing]
        grind
      | response code text body =>
        simp only [HttpAnswer.isRefused, HttpAnswer.isMissing, decide_eq_true_eq]
        by_cases hok : 200 ≤ code ∧ code < 300
        · rw [if_pos hok]
          have hmiss : code ≠ 404 := by omega
          have href : code ∉ [400, 401, 403, 422] := by grind
          split
          · split
            · rw [leaves_of_flushed_one rfl]
              exact iff_of_false (not_not_intro hinv) (by grind)
            · exact stays _ rfl (by grind)
          · exact stays _ rfl (by grind)
        · rw [if_neg hok]
          by_cases hmiss : code = 404
          · rw [if_neg (not_not_intro hmiss), leaves_of_flushed_one rfl]
            exact iff_of_true (by simp [requeueMissing]) (Or.inr hmiss)
          · rw [if_pos hmiss]
            by_cases href : isUncertain inv = true ∧ code ∈ [400, 401, 403, 422]
            · rw [if_pos href, leaves_of_flushed_one rfl]
              exact iff_of_true (by simp [reconcileFailed]) (Or.inl ⟨href.1, Or.inr href.2⟩)
            · rw [if_neg href]
              exact stays _ rfl (by grind)
  · rw [if_pos (by simpa using hjob), if_neg hjob]
    by_cases hold : inv.hermesStatus = some "dispatching" ∧
        olderThan inv.startedAt (interruptedAfter cfg) now = true
    · rw [if_pos hold, leaves_of_flushed_one rfl]
      exact iff_of_true (by simp [requeueInterrupted]) hold
    · rw [if_neg hold]
      exact stays _ rfl hold

end AssetInventory
