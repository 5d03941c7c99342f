import Mathlib.Data.List.Find
import AssetInventory.Lib.PyDict
import AssetInventory.Lib.Run
import AssetInventory.DeepAgent.Runner

/-!
# The jobs of the service

A request for an investigation makes a job and a task, unless the investigation has a job already.  The task
waits for a permit, writes the credentials of the request to a temporary file, runs the investigation and
posts its result.  If anything of this raises, the job has failed, and the task posts that instead.  At the
end it removes the file and gives the permit back.

What a task does between two awaits happens at once.  The awaits are the permit, the run of the graph
and the answers to the posts, and between these anything may happen to the other jobs.  A semaphore of
`asyncio` is fair, and a task asks for its permit before it awaits anything, so that permits are given
in the order of the jobs.

A post is *heard* when the service receives its answer, with status 200 and a JSON body.  One that
the backend has taken and whose answer is lost is not heard, and is made again.

* `createInvestigation`, `advance`, `step`: the service in the life of one process.
* `Stands`: what a job and its task have come to, in each phase of the task.
* `Sound`: the invariant, with `sound_of_runs`.
* `Later`: what may become of a job.
-/

namespace AssetInventory.DeepAgent.Jobs

open PyJson PyDict PyTime Interleaving

/-! ## The service -/

/-- The configuration that the jobs read. -/
structure ServiceSettings where
  run : Settings
  maxConcurrentJobs : ℕ
  backendApiKey : String
  llmModel : String
  capacity : 1 ≤ maxConcurrentJobs ∧ maxConcurrentJobs ≤ 12

/-- The body of a request.  A UUID is its canonical text. -/
structure JobRequest where
  investigationId : String
  investigation : InvestigationRequest
  /-- `llm_runtime.model`. -/
  llmModel : String

inductive Status where
  | queued | running | completed | failed
  deriving DecidableEq, Repr

structure JobStatus where
  jobId : String
  investigationId : String
  status : Status
  error : Option String
  createdAt : Time
  completedAt : Option Time
  deriving DecidableEq, Repr

/-- The temporary file with the credentials: it is not there, it is and `api_client_path` names it, or it is
without the task knowing its path. -/
inductive CredentialFile where
  | absent | kept | lost
  deriving DecidableEq, Repr

def CredentialFile.unlink : CredentialFile → CredentialFile
  | .kept => .absent
  | file => file

/-- A post of a payload to the result endpoint of the backend. -/
structure Post where
  payload : CallbackPayload
  heard : Bool

/-- Where a task has come to: which await it is at, and how many posts it has behind it. -/
inductive Phase where
  | waiting
  | working
  | submitting (payload : CallbackPayload) (attempts : ℕ)
  | failing (attempts : ℕ)
  | done

def Phase.isWaiting : Phase → Bool
  | .waiting => true
  | _ => false

/-- The permits that a task holds. -/
def Phase.held : Phase → ℕ
  | .waiting | .done => 0
  | _ => 1

/-- An entry of `_jobs` and the task that has been made for it, with the posts that its run has made and those
made in the place of a result. -/
structure Job extends JobStatus where
  request : JobRequest
  phase : Phase
  file : CredentialFile
  results : List Post
  failures : List Post

/-- `_jobs`, and the free permits of `_semaphore`. -/
structure Service where
  jobs : List (String × Job)
  permits : Option ℕ

def Service.initial : Service := ⟨[], none⟩

/-- How a task gets to its run: the file cannot be made; the file cannot be written; something else that the
run needs cannot be had; or all goes well.  An exception comes with the text that `safe_error_detail`
makes of it. -/
inductive Start where
  | noFile (error : String)
  | notWritten (error : String)
  | notReady (error : String)
  | ready

inductive Reply where
  | accepted
  | refused (error : String)

inductive Move where
  | enter (start : Start)
  | run (answers : Answers) (error : String)
  | answer (reply : Reply)

section Moves

variable (settings : ServiceSettings) (now : Time)

/-- The `finally` of `_execute`. -/
def finish (job : Job) : Job :=
  { job with
    completedAt := some now
    phase := .done
    file := job.file.unlink }

/-- The `except` of `_execute`.  Without a key the client raises before it posts anything. -/
def fail (error : String) (job : Job) : Job :=
  let job := { job with status := .failed, error := some error }
  if settings.backendApiKey = "" then finish now job else { job with phase := .failing 0 }

/-- The payload that reports a failure. -/
def failedPayload (job : Job) : CallbackPayload where
  reportMarkdown := "# Điều tra thất bại: " ++ job.request.investigation.hostname ++
    "\n\nDeepAgent không thể hoàn tất truy vấn. Xem trường lỗi của investigation để biết chi tiết vận hành.\n"
  severity := .info
  findingsCount := 0
  findings := []
  iocs := []
  llmProvider := "deepagent-langgraph"
  llmModel := settings.llmModel
  externalJobId := job.jobId
  error := job.error
  rawResponse := some (.obj [("workflow", .str "bounded-langgraph-v1"), ("phase", .str "failed")])

/-- From the permit to the run. -/
def enter (start : Start) (job : Job) : Job :=
  let job := { job with status := .running }
  match start with
  | .noFile error => fail settings now error job
  | .notWritten error => fail settings now error { job with file := .lost }
  | .notReady error => fail settings now error { job with file := .kept }
  | .ready => { job with phase := .working, file := .kept }

/-- `runner.run`, up to its first post. -/
def run (answers : Answers) (error : String) (job : Job) : Job :=
  match runPayload settings.run job.request.investigation answers job.request.llmModel job.jobId with
  | some payload =>
    if settings.backendApiKey = "" then fail settings now error job
    else { job with phase := .submitting payload 0 }
  | none => fail settings now error job

/-- An answer to the result, or none in time. -/
def answerResult (payload : CallbackPayload) (attempts : ℕ) (reply : Reply) (job : Job) : Job :=
  match reply with
  | .accepted => finish now { job with status := .completed, results := job.results ++ [⟨payload, true⟩] }
  | .refused error =>
    let job := { job with results := job.results ++ [⟨payload, false⟩] }
    if attempts + 1 < 3 then { job with phase := .submitting payload (attempts + 1) }
    else fail settings now error job

/-- An answer to the report of a failure.  What goes wrong with it is logged and no more. -/
def answerFailure (attempts : ℕ) (reply : Reply) (job : Job) : Job :=
  let payload := failedPayload settings job
  match reply with
  | .accepted => finish now { job with failures := job.failures ++ [⟨payload, true⟩] }
  | .refused _ =>
    let job := { job with failures := job.failures ++ [⟨payload, false⟩] }
    if attempts + 1 < 3 then { job with phase := .failing (attempts + 1) } else finish now job

/-- `_execute`, from one await to the next. -/
def advance (move : Move) (job : Job) : Option Job :=
  match job.phase, move with
  | .waiting, .enter start => some (enter settings now start job)
  | .working, .run answers error => some (run settings now answers error job)
  | .submitting payload attempts, .answer reply => some (answerResult settings now payload attempts reply job)
  | .failing attempts, .answer reply => some (answerFailure settings now attempts reply job)
  | _, _ => none

end Moves

def jobIdOf (investigationId : String) : String := "deepagent-" ++ investigationId

def createInvestigation (request : JobRequest) (now : Time) (s : Service) : JobStatus × Service :=
  match s.jobs.find? fun entry => decide (entry.2.investigationId = request.investigationId) with
  | some entry => (entry.2.toJobStatus, s)
  | none =>
    let jobId := jobIdOf request.investigationId
    let job : JobStatus := ⟨jobId, request.investigationId, .queued, none, now, none⟩
    (job, { s with jobs := setItem jobId ⟨job, request, .waiting, .absent, [], []⟩ s.jobs })

def getJob (jobId : String) (s : Service) : Except (ℕ × String) JobStatus :=
  match get? s.jobs jobId with
  | some job => .ok job.toJobStatus
  | none => .error (404, "Job không tồn tại")

inductive Action where
  | create (request : JobRequest) (now : Time)
  | move (jobId : String) (move : Move) (now : Time)

section Requests

variable (settings : ServiceSettings)

/-- The permits that are free; the semaphore is made by the first task. -/
def Service.free (s : Service) : ℕ := s.permits.getD settings.maxConcurrentJobs

/-- The job whose task has asked first for a permit. -/
def Service.next (s : Service) : Option String :=
  (s.jobs.find? fun entry => entry.2.phase.isWaiting).map Prod.fst

def step (s : Service) : Action → Option Service
  | .create request now => some (createInvestigation request now s).2
  | .move jobId move now =>
    match get? s.jobs jobId with
    | none => none
    | some job =>
      if job.phase.isWaiting = true → s.next = some jobId ∧ 0 < s.free settings then
        (advance settings now move job).map fun job' =>
          ⟨setItem jobId job' s.jobs, some (s.free settings + job.phase.held - job'.phase.held)⟩
      else none

end Requests

/-! ## What a job and its task have come to -/

def Status.rank : Status → ℕ
  | .queued => 0
  | .running => 1
  | .completed | .failed => 2

/-- **What may become of a job.**  An ended job does not change. -/
structure Later (job job' : JobStatus) : Prop where
  jobId : job'.jobId = job.jobId
  investigationId : job'.investigationId = job.investigationId
  createdAt : job'.createdAt = job.createdAt
  status : job'.status = job.status ∨ job.status.rank < job'.status.rank
  ended : job.completedAt ≠ none → job' = job

theorem Later.refl (job : JobStatus) : Later job job := ⟨rfl, rfl, rfl, .inl rfl, fun _ => rfl⟩

theorem Later.trans {job job' job'' : JobStatus} (h : Later job job') (h' : Later job' job'') :
    Later job job'' where
  jobId := h'.jobId.trans h.jobId
  investigationId := h'.investigationId.trans h.investigationId
  createdAt := h'.createdAt.trans h.createdAt
  status := by
    rcases h.status with heq | hlt
    · rw [← heq]
      exact h'.status
    · rcases h'.status with heq | hlt'
      · exact .inr (heq ▸ hlt)
      · exact .inr (hlt.trans hlt')
  ended := fun hended => by
    have hsame := h.ended hended
    rw [← hsame]
    exact h'.ended (hsame ▸ hended)

/-- The moves that a task may still make. -/
def Phase.weight : Phase → ℕ
  | .waiting => 9
  | .working => 8
  | .submitting _ attempts => 4 + (3 - attempts)
  | .failing attempts => 1 + (2 - attempts)
  | .done => 0

section Standing

variable (settings : ServiceSettings)

/-- A payload that a run of the job submits. -/
def IsResult (job : Job) (payload : CallbackPayload) : Prop :=
  ∃ answers, runPayload settings.run job.request.investigation answers job.request.llmModel job.jobId =
    some payload

/-- `n` posts of a payload, none of them heard. -/
def unheard (payload : CallbackPayload) (n : ℕ) : List Post := List.replicate n ⟨payload, false⟩

/-- The payload has been posted until a post was heard. -/
def Heard (payload : CallbackPayload) (posts : List Post) : Prop :=
  ∃ n < 3, posts = unheard payload n ++ [⟨payload, true⟩]

/-- A run that has raised has posted nothing, or three times the same, unheard. -/
def Raised (job : Job) : Prop :=
  job.results = [] ∨ settings.backendApiKey ≠ "" ∧
    ∃ payload, IsResult settings job payload ∧ job.results = unheard payload 3

/-- **The end of a job.** -/
inductive Ended (job : Job) : Prop where
  /-- A post of the result has been heard, and no failure is reported. -/
  | completed (payload : CallbackPayload) : job.status = .completed → IsResult settings job payload →
      Heard payload job.results → job.failures = [] → Ended job
  /-- No post of a result has been heard, and a report of the failure has been. -/
  | reported : job.status = .failed → Raised settings job →
      Heard (failedPayload settings job) job.failures → Ended job
  /-- Three reports of the failure were not heard. -/
  | unreported : job.status = .failed → Raised settings job →
      job.failures = unheard (failedPayload settings job) 3 → Ended job
  /-- There is no key, and nothing has been posted. -/
  | keyless : job.status = .failed → settings.backendApiKey = "" → job.results = [] → job.failures = [] →
      Ended job

/-- **What a job has come to**, in each phase of its task. -/
def Stands (job : Job) : Prop :=
  match job.phase with
  | .waiting => job.status = .queued ∧ job.completedAt = none ∧ job.results = [] ∧ job.failures = []
  | .working => job.status = .running ∧ job.completedAt = none ∧ job.results = [] ∧ job.failures = []
  | .submitting payload n => job.status = .running ∧ job.completedAt = none ∧
      settings.backendApiKey ≠ "" ∧ IsResult settings job payload ∧ n < 3 ∧
      job.results = unheard payload n ∧ job.failures = []
  | .failing n => job.status = .failed ∧ job.completedAt = none ∧ Raised settings job ∧ n < 3 ∧
      job.failures = unheard (failedPayload settings job) n
  | .done => job.completedAt ≠ none ∧ job.file ≠ .kept ∧ Ended settings job

/-- **A move** of a job to another. -/
structure Moved (job job' : Job) : Prop where
  stands : Stands settings job'
  later : Later job.toJobStatus job'.toJobStatus
  weight : job'.phase.weight < job.phase.weight
  entered : job'.phase.isWaiting = false

end Standing

section Moves

variable {settings : ServiceSettings} {now : Time} {job job' : Job} {error : String} {reply : Reply} {n : ℕ}

theorem unheard_succ (payload : CallbackPayload) (n : ℕ) :
    unheard payload n ++ [⟨payload, false⟩] = unheard payload (n + 1) := List.replicate_succ'.symm

theorem unlink_ne_kept (file : CredentialFile) : file.unlink ≠ .kept := by
  cases file <;> decide

theorem stands_finish (h : Ended settings (finish now job)) : Stands settings (finish now job) :=
  ⟨Option.some_ne_none now, unlink_ne_kept _, h⟩

/-- An open job may get any status that is further on. -/
theorem later_of_open {job job' : JobStatus} (hopen : job.completedAt = none)
    (hstatus : job.status.rank < job'.status.rank)
    (hsame : job'.jobId = job.jobId ∧ job'.investigationId = job.investigationId ∧
      job'.createdAt = job.createdAt) : Later job job' :=
  ⟨hsame.1, hsame.2.1, hsame.2.2, .inr hstatus, fun h => absurd hopen h⟩

theorem moved_fail (hopen : job'.completedAt = none) (hraised : Raised settings job')
    (hfailures : job'.failures = []) (hweight : 3 < job.phase.weight)
    (hlater : ∀ completedAt, Later job.toJobStatus { job'.toJobStatus with
      status := .failed, error := some error, completedAt := completedAt }) :
    Moved settings job (fail settings now error job') := by
  unfold fail
  split_ifs with hkey
  · have hnothing := hraised.resolve_right fun h => h.1 hkey
    exact ⟨stands_finish (.keyless rfl hkey hnothing hfailures), hlater _, Nat.zero_lt_of_lt hweight, rfl⟩
  · exact ⟨⟨rfl, hopen, hraised, by decide, hfailures⟩, hlater _, hweight, rfl⟩

theorem moved_enter {start : Start} (hphase : job.phase = .waiting) (h : Stands settings job) :
    Moved settings job (enter settings now start job) := by
  rw [Stands, hphase] at h
  obtain ⟨hstatus, hopen, hresults, hfailures⟩ := h
  have hrank : job.status.rank < 1 := by rw [hstatus]; decide
  have hweight : 8 < job.phase.weight := by rw [hphase]; decide
  cases start with
  | ready =>
    exact ⟨⟨rfl, hopen, hresults, hfailures⟩, later_of_open hopen hrank ⟨rfl, rfl, rfl⟩, hweight, rfl⟩
  | _ =>
    exact moved_fail hopen (.inl hresults) hfailures (by omega)
      fun _ => later_of_open hopen (Nat.lt_succ_of_lt hrank) ⟨rfl, rfl, rfl⟩

theorem moved_run {answers : Answers} (hphase : job.phase = .working) (h : Stands settings job) :
    Moved settings job (run settings now answers error job) := by
  rw [Stands, hphase] at h
  obtain ⟨hstatus, hopen, hresults, hfailures⟩ := h
  have hrank : job.status.rank < 2 := by rw [hstatus]; decide
  have hweight : 7 < job.phase.weight := by rw [hphase]; decide
  have hfail : Moved settings job (fail settings now error job) :=
    moved_fail hopen (.inl hresults) hfailures (by omega)
      fun _ => later_of_open hopen hrank ⟨rfl, rfl, rfl⟩
  unfold run
  split
  · rename_i payload hpayload
    split_ifs with hkey
    · exact hfail
    · exact ⟨⟨hstatus, hopen, hkey, ⟨answers, hpayload⟩, by decide, hresults, hfailures⟩, .refl _, hweight,
        rfl⟩
  · exact hfail

theorem moved_answerResult {payload : CallbackPayload} (hphase : job.phase = .submitting payload n)
    (h : Stands settings job) : Moved settings job (answerResult settings now payload n reply job) := by
  rw [Stands, hphase] at h
  obtain ⟨hstatus, hopen, hkey, hresult, hn, hresults, hfailures⟩ := h
  have hrank : job.status.rank < 2 := by rw [hstatus]; decide
  have hweight : job.phase.weight = 4 + (3 - n) := by rw [hphase]; rfl
  have hpositive : 0 < job.phase.weight := by omega
  cases reply with
  | accepted =>
    refine ⟨stands_finish ?_, later_of_open hopen hrank ⟨rfl, rfl, rfl⟩, hpositive, rfl⟩
    exact .completed payload rfl hresult ⟨n, hn, congrArg (· ++ [_]) hresults⟩ hfailures
  | refused error =>
    have hposted : job.results ++ [⟨payload, false⟩] = unheard payload (n + 1) := by
      rw [hresults, unheard_succ]
    unfold answerResult
    simp only
    split_ifs with hmore
    · refine ⟨⟨hstatus, hopen, hkey, hresult, hmore, hposted, hfailures⟩, .refl _, ?_, rfl⟩
      change 4 + (3 - (n + 1)) < _
      omega
    · have hthree : n + 1 = 3 := by omega
      exact moved_fail hopen (.inr ⟨hkey, payload, hresult, hthree ▸ hposted⟩) hfailures (by omega)
        fun _ => later_of_open hopen hrank ⟨rfl, rfl, rfl⟩

theorem moved_answerFailure (hphase : job.phase = .failing n) (h : Stands settings job) :
    Moved settings job (answerFailure settings now n reply job) := by
  rw [Stands, hphase] at h
  obtain ⟨hstatus, hopen, hraised, hn, hfailures⟩ := h
  have hweight : job.phase.weight = 1 + (2 - n) := by rw [hphase]; rfl
  have hpositive : 0 < job.phase.weight := by omega
  have hlater : Later job.toJobStatus { job.toJobStatus with completedAt := some now } :=
    ⟨rfl, rfl, rfl, .inl rfl, fun h => absurd hopen h⟩
  cases reply with
  | accepted =>
    refine ⟨stands_finish ?_, hlater, hpositive, rfl⟩
    exact .reported hstatus hraised ⟨n, hn, congrArg (· ++ [_]) hfailures⟩
  | refused error =>
    have hposted : job.failures ++ [⟨failedPayload settings job, false⟩] =
        unheard (failedPayload settings job) (n + 1) := by
      rw [hfailures, unheard_succ]
    unfold answerFailure
    simp only
    split_ifs with hmore
    · exact ⟨⟨hstatus, hopen, hraised, hmore, hposted⟩, .refl _, by change 1 + (2 - (n + 1)) < _; omega, rfl⟩
    · have hthree : n + 1 = 3 := by omega
      refine ⟨stands_finish ?_, hlater, hpositive, rfl⟩
      exact .unreported hstatus hraised (hthree ▸ hposted)

/-- **One move.** -/
theorem moved_of_advance {move : Move} (h : Stands settings job)
    (hmove : advance settings now move job = some job') : Moved settings job job' := by
  unfold advance at hmove
  split at hmove
  all_goals cases hmove
  · exact moved_enter ‹_› h
  · exact moved_run ‹_› h
  · exact moved_answerResult ‹_› h
  · exact moved_answerFailure ‹_› h

end Moves

/-! ## The invariant of the service -/

section Runs

variable (settings : ServiceSettings)

/-- **The invariant.** -/
structure Sound (s : Service) : Prop where
  keys : (s.jobs.map Prod.fst).Nodup
  named : ∀ entry ∈ s.jobs, entry.1 = jobIdOf entry.2.investigationId ∧ entry.2.jobId = entry.1
  stands : ∀ entry ∈ s.jobs, Stands settings entry.2
  /-- Those who wait have come after those who do not. -/
  order : s.jobs.Pairwise fun entry later => entry.2.phase.isWaiting = true → later.2.phase.isWaiting = true
  /-- No permit is lost and none is made. -/
  permits : s.free settings + (s.jobs.map fun entry => entry.2.phase.held).sum = settings.maxConcurrentJobs

variable {settings} {s t : Service} {job job' : Job} {jobId : String}

/-- The job of an investigation is found under its id. -/
theorem Sound.find_investigation (hs : Sound settings s) (investigationId : String) :
    (s.jobs.find? fun entry => decide (entry.2.investigationId = investigationId)).map Prod.snd =
      get? s.jobs (jobIdOf investigationId) := by
  unfold get?
  refine congrArg _ (List.find?_congr fun entry hentry => ?_)
  rw [(hs.named entry hentry).1, jobIdOf, jobIdOf, decide_eq_decide, String.append_right_inj]

theorem sound_initial : Sound settings .initial where
  keys := List.nodup_nil
  named := fun _ h => absurd h List.not_mem_nil
  stands := fun _ h => absurd h List.not_mem_nil
  order := .nil
  permits := rfl

/-! ### Creating a job -/

/-- **A request** gets the job of its investigation, or a new one at the end of the queue. -/
theorem create_cases (hs : Sound settings s) (request : JobRequest) (now : Time) :
    (∃ job, get? s.jobs (jobIdOf request.investigationId) = some job ∧
      createInvestigation request now s = (job.toJobStatus, s)) ∨
    ∃ job : Job, get? s.jobs (jobIdOf request.investigationId) = none ∧
      job = ⟨⟨jobIdOf request.investigationId, request.investigationId, .queued, none, now, none⟩, request,
        .waiting, .absent, [], []⟩ ∧
      createInvestigation request now s =
        (job.toJobStatus, { s with jobs := s.jobs ++ [(jobIdOf request.investigationId, job)] }) := by
  have hfind := hs.find_investigation request.investigationId
  unfold createInvestigation
  split
  · rename_i entry hentry
    rw [hentry, Option.map_some] at hfind
    exact .inl ⟨entry.2, hfind.symm, rfl⟩
  · rename_i hnone
    rw [hnone, Option.map_none] at hfind
    exact .inr ⟨_, hfind.symm, rfl, by simp only [setItem_eq_append hfind.symm]⟩

theorem sound_create (hs : Sound settings s) (request : JobRequest) (now : Time) :
    Sound settings (createInvestigation request now s).2 := by
  rcases create_cases hs request now with ⟨job, -, h⟩ | ⟨job, hnone, rfl, h⟩
  · exact h ▸ hs
  · rw [h]
    refine ⟨?_, ?_, ?_, ?_, ?_⟩
    · rw [List.map_append, List.map_singleton]
      exact hs.keys.append (List.nodup_singleton _)
        (List.disjoint_singleton.mpr (get?_eq_none_iff.mp hnone))
    · exact List.forall_mem_append.mpr ⟨hs.named, List.forall_mem_singleton.mpr ⟨rfl, rfl⟩⟩
    · exact List.forall_mem_append.mpr ⟨hs.stands, List.forall_mem_singleton.mpr ⟨rfl, rfl, rfl, rfl⟩⟩
    · rw [List.pairwise_append]
      refine ⟨hs.order, List.pairwise_singleton _ _, fun _ _ later hlater _ => ?_⟩
      rw [List.mem_singleton.mp hlater]
      rfl
    · rw [List.map_append, List.sum_append, List.map_singleton, List.sum_singleton]
      exact hs.permits

/-! ### Moving a task -/

theorem step_move {move : Move} {now : Time} (h : step settings s (.move jobId move now) = some t) :
    ∃ job job', get? s.jobs jobId = some job ∧
      (job.phase.isWaiting = true → s.next = some jobId ∧ 0 < s.free settings) ∧
      advance settings now move job = some job' ∧
      t = ⟨setItem jobId job' s.jobs, some (s.free settings + job.phase.held - job'.phase.held)⟩ := by
  rw [step] at h
  split at h
  · cases h
  · rename_i job hjob
    split_ifs at h with hmay
    obtain ⟨job', hmove, rfl⟩ := Option.map_eq_some_iff.mp h
    exact ⟨job, job', hjob, hmay, hmove, rfl⟩

theorem order_setItem {jobs : List (String × Job)}
    (h : jobs.Pairwise fun entry later => entry.2.phase.isWaiting = true → later.2.phase.isWaiting = true)
    (hjob : get? jobs jobId = some job)
    (hnext : job.phase.isWaiting = true →
      (jobs.find? fun entry => entry.2.phase.isWaiting).map Prod.fst = some jobId)
    (hentered : job'.phase.isWaiting = false) :
    (setItem jobId job' jobs).Pairwise
      fun entry later => entry.2.phase.isWaiting = true → later.2.phase.isWaiting = true := by
  induction jobs with
  | nil => cases hjob
  | cons entry jobs ih =>
    rw [List.pairwise_cons] at h
    rw [get?_cons] at hjob
    rw [setItem]
    split_ifs at hjob ⊢ with hkey
    · exact .cons (fun later _ hwaiting => absurd hwaiting (by simp [hentered])) h.2
    · by_cases hwaiting : entry.2.phase.isWaiting = true
      · -- the job waits as well, and is not the first to do so
        have hfirst := hnext (h.1 _ (mem_of_get? hjob) hwaiting)
        simp only [List.find?_cons, hwaiting, Option.map_some, Option.some.injEq] at hfirst
        exact absurd hfirst hkey
      · refine .cons (fun later _ he => absurd he hwaiting) (ih h.2 hjob fun hjobWaits => ?_)
        have hfirst := hnext hjobWaits
        simpa only [List.find?_cons, hwaiting] using hfirst

theorem held_of_entered {phase : Phase} (hentered : phase.isWaiting = false) (hweight : 0 < phase.weight) :
    phase.held = 1 := by
  cases phase with
  | waiting => cases hentered
  | done => cases hweight
  | _ => rfl

theorem held_le_one (phase : Phase) : phase.held ≤ 1 := by
  cases phase <;> simp [Phase.held]

theorem moved_of_step (hs : Sound settings s) (hjob : get? s.jobs jobId = some job) {move : Move} {now : Time}
    (hmove : advance settings now move job = some job') : Moved settings job job' :=
  moved_of_advance (hs.stands _ (mem_of_get? hjob)) hmove

theorem sound_move {move : Move} {now : Time} (hs : Sound settings s)
    (h : step settings s (.move jobId move now) = some t) : Sound settings t := by
  obtain ⟨job, job', hjob, hmay, hmove, rfl⟩ := step_move h
  have hmoved := moved_of_step hs hjob hmove
  have hnamed := hs.named _ (mem_of_get? hjob)
  refine ⟨nodup_setItem hs.keys jobId job', fun entry hentry => ?_, fun entry hentry => ?_,
    order_setItem hs.order hjob (fun hwaiting => (hmay hwaiting).1) hmoved.entered, ?_⟩
  · rcases mem_of_mem_setItem hentry with rfl | hentry
    · exact ⟨hnamed.1.trans (congrArg jobIdOf hmoved.later.investigationId.symm),
        hmoved.later.jobId.trans hnamed.2⟩
    · exact hs.named entry hentry
  · rcases mem_of_mem_setItem hentry with rfl | hentry
    · exact hmoved.stands
    · exact hs.stands entry hentry
  · have hsum := sum_setItem (fun job : Job => job.phase.held) job' hjob
    have hpermits := hs.permits
    have hnew := held_le_one job'.phase
    have hroom : 1 ≤ s.free settings + job.phase.held := by
      by_cases hwaiting : job.phase.isWaiting = true
      · exact (hmay hwaiting).2.trans_le (Nat.le_add_right _ _)
      · rw [held_of_entered (Bool.eq_false_iff.mpr hwaiting) (Nat.zero_lt_of_lt hmoved.weight)]
        exact Nat.le_add_left _ _
    change s.free settings + job.phase.held - job'.phase.held +
      ((setItem jobId job' s.jobs).map fun entry => entry.2.phase.held).sum = settings.maxConcurrentJobs
    omega

theorem sound_step {a : Action} (hs : Sound settings s) (h : step settings s a = some t) :
    Sound settings t := by
  cases a with
  | create request now =>
    cases h
    exact sound_create hs request now
  | move jobId move now => exact sound_move hs h

theorem Sound.runs {G : Service → Action → Prop} (hs : Sound settings s) (h : Runs (step settings) G s t) :
    Sound settings t :=
  h.invariant (fun _ _ _ hs _ hstep => sound_step hs hstep) hs

/-- **Every run.** -/
theorem sound_of_runs (h : Runs (step settings) anyAction .initial s) : Sound settings s := sound_initial.runs h

/-! ### What becomes of a job -/

theorem later_step {a : Action} (hs : Sound settings s) (h : step settings s a = some t)
    (hjob : get? s.jobs jobId = some job) :
    ∃ job', get? t.jobs jobId = some job' ∧ Later job.toJobStatus job'.toJobStatus := by
  cases a with
  | create request now =>
    cases h
    rcases create_cases hs request now with ⟨other, -, h⟩ | ⟨other, -, -, h⟩
    · exact ⟨job, h ▸ hjob, .refl _⟩
    · refine ⟨job, ?_, .refl _⟩
      rw [h, get?_append, hjob, Option.some_or]
  | move moving move now =>
    obtain ⟨old, job', hold, -, hmove, rfl⟩ := step_move h
    rw [get?_setItem]
    split_ifs with hkey
    · subst hkey
      rw [hold, Option.some.injEq] at hjob
      exact ⟨job', rfl, hjob ▸ (moved_of_step hs hold hmove).later⟩
    · exact ⟨job, hjob, .refl _⟩

theorem later_of_runs (hs : Sound settings s) (h : Runs (step settings) anyAction s t)
    (hjob : get? s.jobs jobId = some job) :
    ∃ job', get? t.jobs jobId = some job' ∧ Later job.toJobStatus job'.toJobStatus :=
  h.invariant_of_reach (I := fun u => ∃ job', get? u.jobs jobId = some job' ∧
      Later job.toJobStatus job'.toJobStatus)
    (fun _ _ _ hu ⟨_, hjob', hlater⟩ _ hstep => by
      obtain ⟨job'', hjob'', hlater'⟩ := later_step (hs.runs hu) hstep hjob'
      exact ⟨job'', hjob'', hlater.trans hlater'⟩)
    ⟨job, hjob, .refl _⟩

end Runs

/-! ## Results -/

section Results

variable {settings : ServiceSettings} {s t : Service} {job : Job} {jobId : String}

/-- One job at a time, and no key for the backend. -/
def exampleService : ServiceSettings := ⟨exampleSettings 100, 1, "", "qwen", by decide⟩

def exampleJobRequest : JobRequest := ⟨"11", exampleRequest [triageRef .two] length_triageRef, "qwen"⟩

/-- A job whose credentials could not be written, and that could not be reported. -/
def failedJob : Job :=
  ⟨⟨"deepagent-11", "11", .failed, some "[internal]", 0, some 5⟩, exampleJobRequest, .done, .lost, [], []⟩

def failedService : Service := ⟨[("deepagent-11", failedJob)], some 1⟩

theorem failedService_reached : Runs (step exampleService) anyAction .initial failedService :=
  (Runs.single (.create exampleJobRequest 0) trivial rfl).tail
    (.move "deepagent-11" (.enter (.notWritten "[internal]")) 5) trivial rfl

/-- **An investigation has one job.**  Once a request has been answered with a job, every later request for
the same investigation is answered with what has become of that job, and starts nothing. -/
theorem investigation_has_one_job {request request' : JobRequest} {now : Time} (now' : Time)
    (hs : Runs (step settings) anyAction .initial s)
    (ht : Runs (step settings) anyAction (createInvestigation request now s).2 t)
    (hsame : request'.investigationId = request.investigationId) :
    (createInvestigation request now s).1.jobId = jobIdOf request.investigationId ∧
    ∃ status', Later (createInvestigation request now s).1 status' ∧
      createInvestigation request' now' t = (status', t) ∧
      getJob (jobIdOf request.investigationId) t = .ok status' := by
  have hsound := sound_create (sound_of_runs hs) request now
  obtain ⟨job, hjob, hstatus⟩ : ∃ job : Job, get? (createInvestigation request now s).2.jobs
      (jobIdOf request.investigationId) = some job ∧
        job.toJobStatus = (createInvestigation request now s).1 := by
    rcases create_cases (sound_of_runs hs) request now with ⟨job, hjob, h⟩ | ⟨job, hnone, -, h⟩
    · exact ⟨job, by rw [h, hjob], by rw [h]⟩
    · exact ⟨job, by rw [h, get?_append, hnone, Option.none_or, get?_cons, if_pos rfl], by rw [h]⟩
  rw [← hstatus]
  obtain ⟨job', hjob', hlater⟩ := later_of_runs hsound ht hjob
  refine ⟨(hsound.named _ (mem_of_get? hjob)).2, job'.toJobStatus, hlater, ?_, ?_⟩
  · have hfind := (hsound.runs ht).find_investigation request'.investigationId
    rw [hsame, hjob', Option.map_eq_some_iff] at hfind
    obtain ⟨entry, hentry, rfl⟩ := hfind
    rw [createInvestigation, hsame, hentry]
  · rw [getJob, hjob']

theorem investigation_has_one_job_failed :
    ∃ status', createInvestigation exampleJobRequest 9 failedService = (status', failedService) := by
  obtain ⟨-, status', -, h, -⟩ := investigation_has_one_job 9 (.refl Service.initial)
    (Runs.single (.move "deepagent-11" (.enter (.notWritten "[internal]")) 5) trivial rfl :
      Runs (step exampleService) anyAction (createInvestigation exampleJobRequest 0 .initial).2 failedService)
    rfl
  exact ⟨status', h⟩

/-- A running job is one whose task holds a permit, and a queued one is one whose task waits. -/
theorem status_of_stands (h : Stands settings job) :
    (job.status = .queued ↔ job.phase.isWaiting = true) ∧ (job.status = .running → job.phase.held = 1) := by
  unfold Stands at h
  split at h
  case h_5 hphase =>
    rcases h.2.2 with ⟨payload, hstatus, -⟩ | ⟨hstatus, -⟩ | ⟨hstatus, -⟩ | ⟨hstatus, -⟩
    all_goals simp [hstatus, hphase, Phase.isWaiting]
  all_goals
    rename_i hphase
    simp [h.1, hphase, Phase.isWaiting, Phase.held]

theorem running_le_held {jobs : List (String × Job)} (h : ∀ entry ∈ jobs, Stands settings entry.2) :
    (jobs.filter fun entry => decide (entry.2.status = .running)).length ≤
      (jobs.map fun entry => entry.2.phase.held).sum := by
  induction jobs with
  | nil => exact Nat.le_refl 0
  | cons entry jobs ih =>
    obtain ⟨hstands, hrest⟩ := List.forall_mem_cons.mp h
    have hle := ih hrest
    rw [List.filter_cons, List.map_cons, List.sum_cons]
    split_ifs with hrunning
    · rw [List.length_cons, (status_of_stands hstands).2 (of_decide_eq_true hrunning)]
      omega
    · omega

/-- **Capacity.**  No more jobs run than there are permits, no permit is lost, and jobs start in the order in
which they have been made. -/
theorem capacity_and_order (hs : Runs (step settings) anyAction .initial s) :
    (s.jobs.filter fun entry => decide (entry.2.status = .running)).length ≤ settings.maxConcurrentJobs ∧
    s.free settings + (s.jobs.map fun entry => entry.2.phase.held).sum = settings.maxConcurrentJobs ∧
    s.jobs.Pairwise fun entry later => entry.2.status = .queued → later.2.status = .queued := by
  have hsound := sound_of_runs hs
  have hpermits := hsound.permits
  refine ⟨(running_le_held hsound.stands).trans (by omega), hpermits,
    hsound.order.imp_of_mem fun hentry hlater horder => ?_⟩
  rw [(status_of_stands (hsound.stands _ hentry)).1, (status_of_stands (hsound.stands _ hlater)).1]
  exact horder

theorem capacity_and_order_failed :
    failedService.free exampleService + (failedService.jobs.map fun entry => entry.2.phase.held).sum = 1 :=
  (capacity_and_order failedService_reached).2.1

/-! ### Rest -/

/-- Nobody answers. -/
def silence : Answers where
  tools := .error ⟨"ConnectError", ""⟩
  verify := .timedOut
  plan := .error ⟨"ConnectError", ""⟩
  collect := fun _ => .timedOut
  triage := fun _ => .timedOut
  detail := fun _ _ => .timedOut
  expansion := fun _ => none
  tier2 := none
  assess := .error ⟨"ConnectError", ""⟩
  now := fun _ _ => 0
  reprs := ⟨fun _ => "", fun text => text⟩

theorem weight_eq_zero_iff {phase : Phase} : phase.weight = 0 ↔ phase = .done := by
  cases phase <;> simp [Phase.weight]

/-- A job that has not ended has a move. -/
theorem exists_advance (settings : ServiceSettings) (h : job.phase.weight ≠ 0) :
    ∃ move job', advance settings 0 move job = some job' := by
  unfold advance
  cases hphase : job.phase with
  | waiting => exact ⟨.enter .ready, _, rfl⟩
  | working => exact ⟨.run silence "", _, rfl⟩
  | submitting payload n => exact ⟨.answer .accepted, _, rfl⟩
  | failing n => exact ⟨.answer .accepted, _, rfl⟩
  | done => exact absurd (weight_eq_zero_iff.mpr hphase) h

def Action.isMove : Action → Prop
  | .create .. => False
  | .move .. => True

/-- Nobody holds a permit but those who are between waiting and the end. -/
theorem held_sum_eq_zero {jobs : List (String × Job)}
    (h : ∀ entry ∈ jobs, entry.2.phase.isWaiting = false → entry.2.phase.weight = 0) :
    (jobs.map fun entry => entry.2.phase.held).sum = 0 := by
  rw [List.sum_eq_zero_iff_forall_eq_nat]
  intro n hn
  obtain ⟨entry, hentry, rfl⟩ := List.mem_map.mp hn
  cases hwaiting : entry.2.phase.isWaiting with
  | false => rw [weight_eq_zero_iff.mp (h entry hentry hwaiting)]; rfl
  | true => cases hphase : entry.2.phase <;> simp_all [Phase.isWaiting, Phase.held]

/-- The moves that are left in a state. -/
def Service.weight (s : Service) : ℕ := (s.jobs.map fun entry => entry.2.phase.weight).sum

/-- A move that the tasks make by themselves. -/
def MovesOn (settings : ServiceSettings) (s : Service) : Prop :=
  ∃ a t, a.isMove ∧ step settings s a = some t ∧ t.jobs.map Prod.fst = s.jobs.map Prod.fst ∧
    t.weight < s.weight

theorem exists_step (hs : Sound settings s) (hjob : get? s.jobs jobId = some job)
    (hweight : job.phase.weight ≠ 0)
    (hmay : job.phase.isWaiting = true → s.next = some jobId ∧ 0 < s.free settings) : MovesOn settings s := by
  obtain ⟨move, job', hmove⟩ := exists_advance settings hweight
  refine ⟨.move jobId move 0,
    ⟨setItem jobId job' s.jobs, some (s.free settings + job.phase.held - job'.phase.held)⟩, trivial, ?_, ?_, ?_⟩
  · rw [step, hjob]
    simp only
    rw [if_pos hmay, hmove, Option.map_some]
  · rw [keys_setItem, if_pos (mem_keys_iff.mpr ⟨job, hjob⟩)]
  · have hsum := sum_setItem (fun job : Job => job.phase.weight) job' hjob
    have hlt := (moved_of_step hs hjob hmove).weight
    change ((setItem jobId job' s.jobs).map fun entry => entry.2.phase.weight).sum <
      (s.jobs.map fun entry => entry.2.phase.weight).sum
    omega

theorem ended_or_movesOn (hs : Sound settings s) :
    (∀ entry ∈ s.jobs, entry.2.phase.weight = 0) ∨ MovesOn settings s := by
  by_cases hinside : ∃ entry ∈ s.jobs, entry.2.phase.isWaiting = false ∧ entry.2.phase.weight ≠ 0
  · obtain ⟨entry, hentry, hentered, hweight⟩ := hinside
    exact .inr (exists_step hs ((get?_eq_some_iff hs.keys).mpr hentry) hweight
      fun hwaiting => absurd hwaiting (by simp [hentered]))
  · have houtside : ∀ entry ∈ s.jobs, entry.2.phase.isWaiting = false → entry.2.phase.weight = 0 :=
      fun entry hentry hentered => by_contra fun hweight => hinside ⟨entry, hentry, hentered, hweight⟩
    cases hfirst : s.jobs.find? fun entry => entry.2.phase.isWaiting with
    | none =>
      refine .inl fun entry hentry => houtside entry hentry ?_
      simpa using List.find?_eq_none.mp hfirst entry hentry
    | some entry =>
      -- nobody holds a permit, so that all of them are free
      have hheld := held_sum_eq_zero fun entry hentry => (houtside entry hentry)
      have hpermits := hs.permits
      have hcapacity := settings.capacity.1
      have hentry := List.mem_of_find?_eq_some hfirst
      have hwaiting := List.find?_some hfirst
      refine .inr (exists_step hs ((get?_eq_some_iff hs.keys).mpr hentry) (fun hweight => ?_)
        fun _ => ⟨by rw [Service.next, hfirst, Option.map_some], by omega⟩)
      rw [weight_eq_zero_iff.mp hweight] at hwaiting
      cases hwaiting

/-- **Every job can come to its end.**  Whatever has gone wrong so far, the tasks by themselves lead to a
state in which all jobs have ended, all permits are free, and the only credential files are those that
could not be written. -/
theorem comes_to_rest (hs : Runs (step settings) anyAction .initial s) :
    ∃ t, Runs (step settings) (fun _ a => a.isMove) s t ∧ t.jobs.map Prod.fst = s.jobs.map Prod.fst ∧
      t.free settings = settings.maxConcurrentJobs ∧
      ∀ entry ∈ t.jobs, entry.2.completedAt ≠ none ∧ entry.2.file ≠ .kept := by
  obtain ⟨t, hrun, ⟨ht, hkeys⟩, hended⟩ : ∃ t, Runs (step settings) (fun _ a => a.isMove) s t ∧
      (Sound settings t ∧ t.jobs.map Prod.fst = s.jobs.map Prod.fst) ∧
      ∀ entry ∈ t.jobs, entry.2.phase.weight = 0 :=
    exists_runs_of_measure (I := fun u => Sound settings u ∧ u.jobs.map Prod.fst = s.jobs.map Prod.fst)
      Service.weight (fun u hu => by
        rcases ended_or_movesOn hu.1 with hended | ⟨a, v, hmove, hstep, hkeys, hlt⟩
        · exact .inl ⟨hu, hended⟩
        · exact .inr ⟨a, v, hmove, hstep, ⟨sound_step hu.1 hstep, hkeys.trans hu.2⟩, hlt⟩)
      ⟨sound_of_runs hs, rfl⟩
  have hheld := held_sum_eq_zero fun entry hentry _ => hended entry hentry
  have hpermits := ht.permits
  refine ⟨t, hrun, hkeys, by omega, fun entry hentry => ?_⟩
  have hstands := ht.stands entry hentry
  rw [Stands, weight_eq_zero_iff.mp (hended entry hentry)] at hstands
  exact ⟨hstands.1, hstands.2.1⟩

theorem comes_to_rest_failed : ∃ t, Runs (step exampleService) (fun _ a => a.isMove) failedService t ∧
    t.free exampleService = 1 := by
  obtain ⟨t, hrun, -, hfree, -⟩ := comes_to_rest failedService_reached
  exact ⟨t, hrun, hfree⟩

/-! ### What is posted -/

theorem not_heard {payload : CallbackPayload} {n : ℕ} :
    ¬∃ post ∈ unheard payload n, post.heard = true := by
  rintro ⟨post, hpost, hheard⟩
  rw [List.eq_of_mem_replicate hpost] at hheard
  cases hheard

theorem not_heard_of_raised (h : Raised settings job) : ¬∃ post ∈ job.results, post.heard = true := by
  rcases h with h | ⟨-, payload, -, h⟩
  · simp [h]
  · rw [h]
    exact not_heard

theorem completed_iff (h : Stands settings job) :
    job.status = .completed ↔ ∃ post ∈ job.results, post.heard = true := by
  unfold Stands at h
  split at h
  · simp [h.1, h.2.2.1]
  · simp [h.1, h.2.2.1]
  · obtain ⟨hstatus, -, -, -, -, hresults, -⟩ := h
    simp [hstatus, hresults, not_heard]
  · simp [h.1, not_heard_of_raised h.2.2.1]
  · cases h.2.2 with
    | completed payload hstatus _ hheard _ =>
      obtain ⟨n, -, hresults⟩ := hheard
      exact ⟨fun _ => ⟨⟨payload, true⟩, hresults ▸ List.mem_concat_self, rfl⟩, fun _ => hstatus⟩
    | reported hstatus hraised _ => simp [hstatus, not_heard_of_raised hraised]
    | unreported hstatus hraised _ => simp [hstatus, not_heard_of_raised hraised]
    | keyless hstatus _ hresults _ => simp [hstatus, hresults]

/-- **Every end is reported.**  A job is completed exactly if a post of its result has been heard, and a job
that has ended has been reported as what it is, unless three reports of its failure were not heard or
there is no key. -/
theorem ends_are_reported (hs : Runs (step settings) anyAction .initial s)
    (hjob : get? s.jobs jobId = some job) :
    (job.status = .completed ↔ ∃ post ∈ job.results, post.heard = true) ∧
      (job.completedAt ≠ none → Ended settings job) := by
  have hstands := (sound_of_runs hs).stands _ (mem_of_get? hjob)
  refine ⟨completed_iff hstands, fun hended => ?_⟩
  unfold Stands at hstands
  split at hstands
  case h_5 => exact hstands.2.2
  all_goals exact absurd hstands.2.1 hended

theorem ends_are_reported_failed : Ended exampleService failedJob :=
  (ends_are_reported failedService_reached
    (rfl : get? failedService.jobs "deepagent-11" = some failedJob)).2 nofun

end Results

end AssetInventory.DeepAgent.Jobs
