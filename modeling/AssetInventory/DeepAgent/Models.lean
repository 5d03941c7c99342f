import AssetInventory.Dfir.Model
import AssetInventory.Lib.PyText

/-!
# The values of a DeepAgent investigation

The request, the plan, the evidence and the assessment, with the checks that build them.  A value that
pydantic validates carries the checks it passed as fields, so that `validate` is the only way to one.

* `InvestigationRequest`, `InvestigationPlan`: what comes from the backend and from the model.
* `validateEventLogExpansions`: the expansions of an event-log triage that may be executed.
* `fitEvidenceBudget`: evidence cut down to a number of characters.

The text of a `ValidationError` is pydantic's and is not modelled; its `PyExc` names the field.  A
naive `datetime` is one without a time zone; all others are instants in UTC.
-/

namespace AssetInventory.DeepAgent

open PyJson PyTime

/-! ## The request -/

/-- The operating systems an investigation can have as its target. -/
inductive Platform where
  | windows | linux | macos
  deriving DecidableEq, Repr

def maxDetailCalls : ℕ := 2

def maxTier2Steps : ℕ := 2

def maxEventLogDurationMinutes : ℤ := 60

/-- The period under investigation. -/
structure TimeRange where
  from_ : Time
  to_ : Time
  from_lt_to : from_ < to_
  days_le : (to_ - from_) / seconds 86400 ≤ 31
  deriving DecidableEq

/-- A character of `[A-Za-z0-9_]`. -/
def isNameChar (c : Char) : Bool := c.isAlphanum || c == '_'

/-- `^Custom\.[A-Za-z0-9_]+(\.[A-Za-z0-9_]+)*$`. -/
def isCustomName (name : String) : Bool :=
  match name.toList.splitOn '.' with
  | head :: part :: parts =>
    decide (head = "Custom".toList) && (part :: parts).all fun p => !p.isEmpty && p.all isNameChar
  | _ => false

/-- `ArtifactTier`: 1 for the initial collection, 2 for the collection that evidence triggers. -/
inductive ArtifactTier where
  | one | two
  deriving DecidableEq, Repr

/-- An artifact `Custom.*` that the backend lists in a request. -/
structure CustomArtifactRef where
  name : String
  description : String
  tier : ArtifactTier
  supportedPlatforms : List Platform
  name_length : 8 ≤ name.length ∧ name.length ≤ 255
  name_custom : isCustomName name = true
  description_length : description.length ≤ 300
  platforms_ne : supportedPlatforms ≠ []
  deriving DecidableEq

/-- A request for an investigation, with the fields that a run reads. -/
structure InvestigationRequest where
  clientId : String
  hostname : String
  targetPlatform : Platform
  timeRange : TimeRange
  suspiciousActivity : String
  orgId : Option String
  customArtifacts : List CustomArtifactRef
  client_length : 3 ≤ clientId.length ∧ clientId.length ≤ 64
  hostname_length : 1 ≤ hostname.length ∧ hostname.length ≤ 255
  activity_length : 1 ≤ suspiciousActivity.length ∧ suspiciousActivity.length ≤ 4000
  org_length : ∀ org ∈ orgId, org.length ≤ 128
  artifacts_length : customArtifacts.length ≤ 20

/-- The configuration a run reads. -/
structure Settings where
  velociraptorOrgId : String
  maxSteps : ℤ
  maxEvidenceChars : ℤ
  maxToolResultChars : ℤ
  deriving DecidableEq, Repr

/-- `request.org_id or settings.velociraptor_org_id`. -/
def orgOf (orgId : Option String) (settings : Settings) : String :=
  if truthy orgId then orgId.getD "" else settings.velociraptorOrgId

/-! ## The plan -/

/-- `ValidationError` on a field. -/
def validationError (field : String) : PyExc := ⟨"ValidationError", field⟩

/-- A step: one tool to run. -/
structure InvestigationStep where
  tool : String
  rationale : String
  rationale_length : 1 ≤ rationale.length ∧ rationale.length ≤ 500
  deriving DecidableEq

/-- Build a step from a `dict`. -/
def InvestigationStep.validate (tool rationale : String) : Except PyExc InvestigationStep :=
  if h : 1 ≤ rationale.length ∧ rationale.length ≤ 500 then .ok ⟨tool, rationale, h⟩
  else .error (validationError "rationale")

/-- A plan: at least one step and at most twelve. -/
structure InvestigationPlan where
  hypothesis : String
  steps : List InvestigationStep
  hypothesis_length : 1 ≤ hypothesis.length ∧ hypothesis.length ≤ 1000
  steps_length : 1 ≤ steps.length ∧ steps.length ≤ 12
  deriving DecidableEq

/-- Build a plan. -/
def InvestigationPlan.validate (hypothesis : String) (steps : List InvestigationStep) :
    Except PyExc InvestigationPlan :=
  if h : 1 ≤ hypothesis.length ∧ hypothesis.length ≤ 1000 then
    if h' : 1 ≤ steps.length ∧ steps.length ≤ 12 then .ok ⟨hypothesis, steps, h, h'⟩
    else .error (validationError "steps")
  else .error (validationError "hypothesis")

theorem InvestigationStep.tool_of_validate {tool rationale : String} {step : InvestigationStep}
    (h : validate tool rationale = .ok step) : step.tool = tool := by
  unfold validate at h
  split at h
  · cases h
    rfl
  · cases h

theorem InvestigationPlan.validate_eq_ok {hypothesis : String} {steps : List InvestigationStep}
    {plan : InvestigationPlan} (h : validate hypothesis steps = .ok plan) :
    plan.hypothesis = hypothesis ∧ plan.steps = steps := by
  unfold validate at h
  split at h
  · split at h
    · cases h
      exact ⟨rfl, rfl⟩
    · cases h
  · cases h

/-- A hypothesis of another plan and a list of the right length make a plan. -/
theorem InvestigationPlan.exists_validate (p : InvestigationPlan) (steps : List InvestigationStep)
    (h : 1 ≤ steps.length ∧ steps.length ≤ 12) :
    ∃ plan, validate p.hypothesis steps = .ok plan := by
  rw [validate, dif_pos p.hypothesis_length, dif_pos h]
  exact ⟨_, rfl⟩

/-! ## The evidence -/

/-- The result of one collection. -/
structure EvidenceItem where
  evidenceId : String
  tool : String
  collectedAt : Time
  ok : Bool
  data : Json
  pagination : Option (List (String × Json))
  error : Option String
  timeout : Bool
  deriving DecidableEq

def jsonOfText : Option String → Json
  | none => .null
  | some s => .str s

/-- `item.model_dump(mode="json")`. -/
def EvidenceItem.dump (item : EvidenceItem) : Json :=
  .obj [("evidence_id", .str item.evidenceId), ("tool", .str item.tool),
    ("collected_at", .str (isoZ item.collectedAt)), ("ok", .bool item.ok), ("data", item.data),
    ("pagination", (item.pagination.map Json.obj).getD .null), ("error", jsonOfText item.error),
    ("timeout", .bool item.timeout)]

/-! ## The assessment -/

/-- The degrees of severity. -/
inductive Severity where
  | critical | high | medium | low | info
  deriving DecidableEq, Repr

/-- The degrees of confidence. -/
inductive Confidence where
  | high | medium | low
  deriving DecidableEq, Repr

/-- How a finding was made. -/
inductive FindingStatus where
  | observed | inferred | notObserved
  deriving DecidableEq, Repr

/-- The value of a severity. -/
def Severity.name : Severity → String
  | .critical => "critical"
  | .high => "high"
  | .medium => "medium"
  | .low => "low"
  | .info => "info"

/-- The value of a confidence. -/
def Confidence.name : Confidence → String
  | .high => "high"
  | .medium => "medium"
  | .low => "low"

/-- The value of a status. -/
def FindingStatus.name : FindingStatus → String
  | .observed => "observed"
  | .inferred => "inferred"
  | .notObserved => "not_observed"

/-- A finding of the model. -/
structure Finding where
  id : String
  title : String
  severity : Severity
  confidence : Confidence
  status : FindingStatus
  evidenceRefs : List String
  evidence : String
  mitreId : Option String
  recommendation : String
  deriving DecidableEq

/-- An indicator of compromise. -/
structure Ioc where
  type : String
  value : String
  evidenceRef : String
  deriving DecidableEq

/-- What the model makes of the evidence. -/
structure Assessment where
  severity : Severity
  confidence : Confidence
  executiveSummary : String
  conclusion : String
  findings : List Finding
  iocs : List Ioc
  limitations : List String
  deriving DecidableEq

/-! ## Event-log expansions -/

/-- A `datetime`: a naive one denotes no instant, and its `instant` is its wall-clock value. -/
structure PyDateTime where
  instant : Time
  aware : Bool
  deriving DecidableEq, Repr

/-- The fields of an expansion before its window is checked. -/
structure ExpansionFields where
  dateAfter : PyDateTime
  dateBefore : PyDateTime
  eventIds : List String
  rationale : String
  eventIds_ne : eventIds ≠ []
  rationale_length : 1 ≤ rationale.length ∧ rationale.length ≤ 500
  deriving DecidableEq

/-- A bounded request for the details of some event ids. -/
structure EventLogExpansion where
  dateAfter : Time
  dateBefore : Time
  eventIds : List String
  rationale : String
  eventIds_ne : eventIds ≠ []
  rationale_length : 1 ≤ rationale.length ∧ rationale.length ≤ 500
  after_le_before : dateAfter ≤ dateBefore
  duration_le : dateBefore - dateAfter ≤ minutes maxEventLogDurationMinutes
  deriving DecidableEq

/-- `EventLogExpansion.validate_window`; the error is the text of a `ValueError`. -/
def ExpansionFields.validateWindow (x : ExpansionFields) : Except String EventLogExpansion :=
  if x.dateAfter.aware = false ∨ x.dateBefore.aware = false then
    .error "Expansion timestamps must have timezone"
  else if h : x.dateBefore.instant - x.dateAfter.instant < 0 then
    .error "date_after must be before date_before"
  else if h' : x.dateBefore.instant - x.dateAfter.instant >
      minutes maxEventLogDurationMinutes then
    .error "Expansion window exceeds 60 minutes"
  else
    .ok ⟨x.dateAfter.instant, x.dateBefore.instant, x.eventIds, x.rationale, x.eventIds_ne,
      x.rationale_length, Int.sub_nonneg.mp (not_lt.mp h), not_lt.mp h'⟩

/-- An entry of the model's answer to an expansion request. -/
inductive RawExpansion where
  /-- A `dict`: what pydantic makes of its fields, or the text of its error, and how it words an error
  of `validate_window` on this input. -/
  | dict (fields : Except String ExpansionFields) (errorText : String → String)
  /-- An expansion that has been validated. -/
  | model (e : EventLogExpansion)
  /-- Anything else; reading its attributes raises an exception with this text. -/
  | other (message : String)

/-- `EventLogExpansion.model_validate(expansion)` of a `dict`, or the object itself; the error is
`str(exc)`. -/
def RawExpansion.parse : RawExpansion → Except String EventLogExpansion
  | .dict (.error message) _ => .error message
  | .dict (.ok fields) errorText =>
    match fields.validateWindow with
    | .ok e => .ok e
    | .error text => .error (errorText text)
  | .model e => .ok e
  | .other message => .error message

/-- The label under which a failed parse is recorded. -/
def rejectionLabel (message : String) : String :=
  let excMsg := message.toLower
  if contains "60 minutes" excMsg || contains "exceeds" excMsg then "window_exceeds_60_minutes"
  else if contains "before" excMsg || contains "after" excMsg then "window_before_case_range"
  else if contains "timezone" excMsg then "expansion_schema_invalid"
  else "expansion_schema_invalid"

/-- `a == b` of two sets of texts. -/
def sameSet (a b : List String) : Bool :=
  a.all (fun x => decide (x ∈ b)) && b.all fun x => decide (x ∈ a)

/-- The variables of the loop over the expansions. -/
structure ExpansionScan where
  validated : List EventLogExpansion
  seenIds : List (List String)
  rejections : List String

/-- Record a rejection. -/
def ExpansionScan.reject (a : ExpansionScan) (label : String) : ExpansionScan :=
  { a with rejections := a.rejections ++ [label] }

/-- The body of the loop, after the check of the count. -/
def ExpansionScan.step (range : TimeRange) (sampled : List String) (a : ExpansionScan)
    (expansion : RawExpansion) : ExpansionScan :=
  match expansion.parse with
  | .error message => a.reject (rejectionLabel message)
  | .ok parsed =>
    if parsed.eventIds = [] then a.reject "event_ids_empty"
    else if parsed.eventIds.any (fun id => decide (id ∉ sampled)) then
      a.reject "event_ids_not_in_sample"
    else if parsed.dateAfter < range.from_ then a.reject "window_before_case_range"
    else if parsed.dateBefore > range.to_ then a.reject "window_after_case_range"
    else if parsed.dateBefore - parsed.dateAfter > minutes maxEventLogDurationMinutes then
      a.reject "window_exceeds_60_minutes"
    else if a.seenIds.any (sameSet parsed.eventIds) then a.reject "expansion_duplicate"
    else
      { a with seenIds := a.seenIds ++ [parsed.eventIds], validated := a.validated ++ [parsed] }

/-- The loop; `total` is the length of the whole list. -/
def ExpansionScan.loop (range : TimeRange) (sampled : List String) (total : ℕ) :
    ExpansionScan → List RawExpansion → ExpansionScan
  | a, [] => a
  | a, x :: xs =>
    if maxDetailCalls ≤ a.validated.length then
      if maxDetailCalls < total then a.reject "expansion_count_exceeded" else a
    else loop range sampled total (a.step range sampled x) xs

/-- `validate_event_log_expansions`: the accepted expansions and the labels of the rejected ones. -/
def validateEventLogExpansions (expansions : List RawExpansion) (range : TimeRange)
    (sampled : List String) : List EventLogExpansion × List String :=
  let a := ExpansionScan.loop range sampled expansions.length ⟨[], [], []⟩ expansions
  (a.validated, a.rejections)

/-- What the validator checks of an expansion. -/
structure EventLogExpansion.Within (e : EventLogExpansion) (range : TimeRange)
    (sampled : List String) : Prop where
  from_le : range.from_ ≤ e.dateAfter
  le_to : e.dateBefore ≤ range.to_
  sampled : ∀ id ∈ e.eventIds, id ∈ sampled

/-! ## The evidence budget -/

section Budget

variable (R : Reprs) (maxChars : ℤ)

/-- The text of a list of items as the budget counts it. -/
def serialize (items : List EvidenceItem) : List Char :=
  dumps R (.arr (items.map EvidenceItem.dump))

/-- `len(serialize(items)) <= max_chars`. -/
def fits (items : List EvidenceItem) : Bool := decide (((serialize R items).length : ℤ) ≤ maxChars)

/-- The data that replace what was cut. -/
def truncatedData (preview : Json) : Json := .obj [("truncated", .bool true), ("preview", preview)]

/-- The exception of `x[:100]`: a `dict` has no such key, other values have no parts. -/
def sliceError : Json → PyExc
  | .obj _ => ⟨"KeyError", "slice(None, 100, None)"⟩
  | x => ⟨"TypeError", "'" ++ x.typeName ++ "' object is not subscriptable"⟩

/-- `preview[:100] if preview else ""`. -/
def shortPreview (preview : Json) : Except PyExc Json :=
  if preview.truthy then
    match preview.slice 100 with
    | some short => .ok short
    | none => .error (sliceError preview)
  else .ok (.str "")

/-- The form in which the first pass keeps an item, after the items of `bounded`. -/
def boundItem (bounded : List EvidenceItem) (item : EvidenceItem) : Except PyExc EvidenceItem :=
  if item.data = .null then .ok item
  else if fits R maxChars (bounded ++ [item]) then .ok item
  else
    match item.data with
    | .obj kvs =>
      if (getD kvs "truncated" .null).truthy then
        let preview := getD kvs "preview" (.str "")
        let kept := { item with data := truncatedData preview }
        if fits R maxChars (bounded ++ [kept]) then .ok kept
        else (shortPreview preview).map fun short => { item with data := truncatedData short }
      else
        let counted :=
          { item with data := truncatedData (.str (toString kvs.length ++ " fields truncated")) }
        if fits R maxChars (bounded ++ [counted]) then .ok counted else .ok item
    | .arr xs =>
      let counted :=
        { item with data := truncatedData (.str (toString xs.length ++ " rows truncated")) }
      if fits R maxChars (bounded ++ [counted]) then .ok counted else .ok item
    | _ => .ok item

/-- The first pass. -/
def boundItems : List EvidenceItem → List EvidenceItem → Except PyExc (List EvidenceItem)
  | bounded, [] => .ok bounded
  | bounded, item :: items =>
    match boundItem R maxChars bounded item with
    | .error e => .error e
    | .ok kept => boundItems (bounded ++ [kept]) items

/-- The second pass, for one item: keep a note, else the bare item, else nothing. -/
def squeezeItem (result : List EvidenceItem) (item : EvidenceItem) : List EvidenceItem :=
  let minimal := { item with data := truncatedData (.str "data truncated due to budget") }
  let bare := { item with data := .null }
  if fits R maxChars (result ++ [minimal]) then result ++ [minimal]
  else if fits R maxChars (result ++ [bare]) then result ++ [bare]
  else result

def fitEvidenceBudget (evidence : List EvidenceItem) : Except PyExc (List EvidenceItem) :=
  if maxChars ≤ 0 then .ok []
  else if fits R maxChars evidence then .ok evidence
  else
    match boundItems R maxChars [] evidence with
    | .error e => .error e
    | .ok bounded =>
      if fits R maxChars bounded then .ok bounded
      else .ok (evidence.foldl (squeezeItem R maxChars) [])

end Budget

end AssetInventory.DeepAgent
