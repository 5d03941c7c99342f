import AssetInventory.Dfir.Callback

/-!
# Status callbacks

`updateInvestigationStatus` accepts a heartbeat of an external job unless it is a step back from the
one it finds in `hermes_response`.  It reads that column without looking at its shape first, so what
it compares with is whatever JSON another writer left there.

* `statusPhaseOrder`: `_STATUS_PHASE_ORDER`.
* `previousOf`: the phase order, progress and step that a stored response stands for.  Absent values
  and zeros both read as `-1`.
* `stepBack`: the test that rejects, with Python's tuple comparison.
-/

namespace AssetInventory

open PyJson PyTime Orm DfirInvestigation

/-- The body of a status callback. -/
structure StatusBody where
  externalJobId : String
  phase : String
  progressPercent : ℤ
  currentStep : Option ℤ
  totalSteps : Option ℤ
  message : Option String
  deriving DecidableEq

/-- What the schema of the route promises of a body. -/
structure StatusBody.Valid (b : StatusBody) : Prop where
  phase : 1 ≤ b.phase.length ∧ b.phase.length ≤ 64
  progress : 0 ≤ b.progressPercent ∧ b.progressPercent ≤ 100
  step : ∀ n, b.currentStep = some n → 0 ≤ n
  total : ∀ n, b.totalSteps = some n → 0 ≤ n
  message : ∀ m, b.message = some m → m.length ≤ 1000

def statusPhaseOrder : String → Option ℤ
  | "dispatching" => some 0
  | "running" => some 1
  | "collecting" => some 2
  | "finalizing" => some 3
  | "completed" => some 4
  | "failed" => some 4
  | _ => none

/-- `_STATUS_PHASE_ORDER.get(body.phase, 1)`. -/
def currentOrder (b : StatusBody) : ℤ := (statusPhaseOrder b.phase).getD 1

/-- `body.current_step or -1`. -/
def stepOrMinusOne : Option ℤ → ℤ
  | none => -1
  | some n => if n = 0 then -1 else n

/-- What a stored response stands for when a status callback is compared with it. -/
structure Previous where
  phase : Json
  progress : Json
  step : Json
  deriving DecidableEq

/-- The three values read from `inv.hermes_response or {}`. -/
def previousOf (response : Option Json) : Previous :=
  match ((response.getD .null).orElse (.obj [])).entries? with
  | some kvs =>
    { phase := getD kvs "phase" .null
      progress := (getD kvs "progress_percent" (.num (-1))).orElse (.num (-1))
      step := (getD kvs "current_step" (.num (-1))).orElse (.num (-1)) }
  | none => { phase := .null, progress := .num (-1), step := .num (-1) }

/-- `_STATUS_PHASE_ORDER.get(previous_phase, -1)`; `none` is `TypeError`, for a key that cannot be
hashed. -/
def previousOrder (phase : Json) : Option ℤ :=
  match phase with
  | .str s => some ((statusPhaseOrder s).getD (-1))
  | x => if x.hashable then some (-1) else none

/-- `(m, p, s) < (m', p', s')` on tuples: the first components that differ are compared.  `none` is
`TypeError`. -/
def tupleLt (m : ℤ) (p s : ℚ) (m' : ℤ) (p' s' : Json) : Option Bool :=
  if m ≠ m' then some (decide (m < m'))
  else if eqNum p p' = false then ltNum p p'
  else if eqNum s s' = false then ltNum s s'
  else some false

/-- The test by which a status callback is a step back; `none` is `TypeError`. -/
def stepBack (prev : Previous) (b : StatusBody) : Option Bool := do
  let order ← previousOrder prev.phase
  let less ← ltNum b.progressPercent prev.progress
  if less then some true
  else
    tupleLt (currentOrder b) b.progressPercent (stepOrMinusOne b.currentStep) order prev.progress
      prev.step

/-- The `hermes_response` of an accepted status callback. -/
def statusResponse (now : Time) (b : StatusBody) : Json :=
  .obj
    [("phase", .str b.phase), ("progress_percent", .num b.progressPercent),
      ("current_step", (b.currentStep.map fun n => Json.num n).getD .null),
      ("total_steps", (b.totalSteps.map fun n => Json.num n).getD .null),
      ("message", (b.message.map Json.str).getD .null),
      ("updated_at", .str (isoformat now))]

/-- The assignments of an accepted status callback. -/
def recordStatus (now : Time) (b : StatusBody) (inv : DfirInvestigation) : DfirInvestigation :=
  { inv with
    externalJobId := some b.externalJobId
    hermesStatus := some b.phase
    hermesResponse := some (statusResponse now b) }

/-- The error of an unhandled `TypeError`. -/
def internalServerError : HttpError := ⟨500, "Internal Server Error"⟩

/-- `update_investigation_status` on the row it has locked: the row to commit if the callback is
accepted, `none` if it is answered `accepted: False`. -/
def updateInvestigationStatus (now : Time) (b : StatusBody) :
    Option DfirInvestigation → Except HttpError (Option DfirInvestigation)
  | none => .error ⟨404, "Investigation không tồn tại"⟩
  | some inv =>
    if inv.externalOrchestrator = none then .ok none
    else if inv.externalOrchestrator = some .deepagent ∧ truthy inv.externalJobId = false then
      .error ⟨409, "DeepAgent job chưa được bind"⟩
    else if truthy inv.externalJobId ∧ some b.externalJobId ≠ inv.externalJobId then
      .error ⟨409, "external_job_id không khớp với job đã dispatch"⟩
    else if inv.status.isTerminal then .ok none
    else
      match stepBack (previousOf inv.hermesResponse) b with
      | none => .error internalServerError
      | some true => .ok none
      | some false => .ok (some (recordStatus now b inv))

/-- **An accepted status callback** carries the bound job id, meets a row that has not ended, and is
not a step back from the stored response. -/
theorem updateInvestigationStatus_cases {now : Time} {b : StatusBody} {inv r : DfirInvestigation}
    (h : updateInvestigationStatus now b (some inv) = .ok (some r)) :
    r = recordStatus now b inv ∧ inv.externalOrchestrator ≠ none ∧ inv.status.isTerminal = false ∧
      (truthy inv.externalJobId = true → inv.externalJobId = some b.externalJobId) ∧
      stepBack (previousOf inv.hermesResponse) b = some false := by
  unfold updateInvestigationStatus at h
  dsimp only at h
  split at h
  · cases h
  · rename_i horch
    split at h
    · cases h
    · split at h
      · cases h
      · rename_i hjob
        split at h
        · cases h
        · rename_i hterm
          cases hback : stepBack (previousOf inv.hermesResponse) b with
          | none => rw [hback] at h; cases h
          | some back =>
            rw [hback] at h
            cases back with
            | true => cases h
            | false =>
              refine ⟨?_, horch, by simpa using hterm, ?_, rfl⟩
              · exact (Option.some.inj (Except.ok.inj h)).symm
              · intro hbound
                by_contra hne
                exact hjob ⟨hbound, fun heq => hne heq.symm⟩

end AssetInventory
