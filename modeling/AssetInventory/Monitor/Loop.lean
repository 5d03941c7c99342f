import AssetInventory.Lib.Rounds

/-!
# The monitor loop

The loop runs as long as the server.  Each iteration sweeps the machines that have gone offline and then
runs the jobs whose period is over; one `except` around the whole iteration catches what gets out of a job,
and the jobs behind it are not attempted then.  The time stamp of a job moves on when the job has returned,
so a job that fails is due again in the next iteration.

Of a job only its `try` statements matter here: which of the exceptions that its statements raise get out of
it.

* `sweepOffline`, `ensurePartitions`, `scanAlerts`, `sweepLost`, `cleanupTokens`: the jobs.
* `iteration`: the body of the loop.
* `jobs_isolated_iff`: every job whose period is over is attempted exactly as long as no exception gets out of a
  job with another one behind it whose period is over; and then every job is attempted again and again.
* `cleanup_starves`: an offline sweep that keeps failing keeps the tokens from being cleaned up for ever.
-/

namespace AssetInventory.Monitor

open Rounds

/-! ## The jobs -/

/-- The text of an exception. -/
abbrev Exn := String

/-- A statement that may raise an exception. -/
def raises : Option Exn → Except Exn Unit
  | none => pure ()
  | some e => throw e

/-- `try` with an `except Exception` that only logs. -/
def swallow (body : Except Exn Unit) : Except Exn Unit := tryCatch body fun _ => pure ()

/-- `async with AsyncSessionLocal()`: the session is closed also when an exception gets out of the body. -/
def withSession (enter close : Option Exn) (body : Except Exn Unit) : Except Exn Unit := do
  raises enter
  match body with
  | .ok _ => raises close
  | .error e => throw (close.getD e)

/-- What the statements about one machine raise. -/
structure MachineFaults where
  /-- Reading its attributes, which may have expired. -/
  attributes : Option Exn
  /-- Publishing the event. -/
  publish : Option Exn
  /-- The look for a rule, and the alert. -/
  alert : Option Exn

/-- What the statements of a sweep raise, those of the lost machines included. -/
structure SweepFaults where
  enter : Option Exn
  select : Option Exn
  machines : List MachineFaults
  commit : Option Exn
  rollback : Option Exn
  close : Option Exn

/-- What the statements about one rule raise. -/
structure RuleFaults where
  template : Option Exn
  scope : Option Exn
  /-- Reading its configuration, and the query for its machines. -/
  select : Option Exn
  /-- The alerts for the machines that the rule finds. -/
  alerts : List (Option Exn)

/-- What the statements of an alert scan raise. -/
structure ScanFaults where
  enter : Option Exn
  select : Option Exn
  rules : List RuleFaults
  commit : Option Exn
  close : Option Exn

/-- What the statements of a job with a single transaction raise. -/
structure JobFaults where
  enter : Option Exn
  body : Option Exn
  close : Option Exn

def publishMachineEvent (fault : Option Exn) : Except Exn Unit := swallow (raises fault)

def sweepOffline (f : SweepFaults) : Except Exn Unit :=
  withSession f.enter f.close do
    raises f.select
    f.machines.forM fun m => do
      raises m.attributes
      publishMachineEvent m.publish
      swallow (raises m.alert)
    if f.machines ≠ [] then raises f.commit

def ensurePartitions (f : JobFaults) : Except Exn Unit :=
  swallow (withSession f.enter f.close (raises f.body))

def scanAlerts (f : ScanFaults) : Except Exn Unit :=
  withSession f.enter f.close do
    raises f.select
    f.rules.forM fun rule => do
      raises rule.template
      raises rule.scope
      raises rule.select
      rule.alerts.forM raises
    if f.rules ≠ [] then raises f.commit

def sweepLost (f : SweepFaults) : Except Exn Unit :=
  withSession f.enter f.close <|
    tryCatch
      (do
        raises f.select
        f.machines.forM fun m => do
          raises m.attributes
          swallow (publishMachineEvent m.publish)
        if f.machines ≠ [] then raises f.commit)
      fun _ => raises f.rollback

def cleanupTokens (f : JobFaults) : Except Exn Unit :=
  swallow (withSession f.enter f.close (raises f.body))

/-! ## The loop -/

inductive Job where
  | sweepOffline
  | ensurePartitions
  | scanAlerts
  | sweepLost
  | cleanupTokens
  | runPendingInvestigations
  deriving DecidableEq

/-- The periods that the settings name. -/
structure Settings where
  velociraptorSyncIntervalSeconds : ℤ
  llmInvestigationIntervalSeconds : ℤ

def partitionScanSeconds : ℚ := 3600
def alertScanSeconds : ℚ := 60
def alertCheckSeconds : ℚ := 600
def dfirScheduleScanSeconds : ℚ := 60
def lostScanSeconds : ℚ := 3600
def tokenCleanupSeconds : ℚ := 3600

/-- The local variables of the loop. -/
structure Last where
  partitionCheck : ℚ
  alertCheck : ℚ
  scheduleCheck : ℚ
  lostCheck : ℚ
  tokenCleanup : ℚ
  velociraptorCheck : ℚ
  llmDfirCheck : ℚ

/-- Their values before the first iteration. -/
def Last.start (settings : Settings) : Last where
  partitionCheck := -partitionScanSeconds
  alertCheck := -alertCheckSeconds
  scheduleCheck := -dfirScheduleScanSeconds
  lostCheck := -lostScanSeconds
  tokenCleanup := -tokenCleanupSeconds
  velociraptorCheck := -settings.velociraptorSyncIntervalSeconds
  llmDfirCheck := -settings.llmInvestigationIntervalSeconds

/-- What an iteration meets: the clock, and what the statements of the jobs raise. -/
structure Iteration where
  /-- `asyncio.get_event_loop().time()`. -/
  now : ℚ
  offline : SweepFaults
  partitions : JobFaults
  alerts : ScanFaults
  lost : SweepFaults
  tokens : JobFaults
  /-- What `run_pending_investigations` raises. -/
  investigations : Option Exn

/-- The local variables, and the jobs that the iteration has attempted. -/
structure Progress where
  last : Last
  attempted : List Job

abbrev Loop := ExceptT Exn (StateM Progress)

def attempt (job : Job) (body : Except Exn Unit) : Loop Unit := do
  modify fun p => { p with attempted := p.attempted ++ [job] }
  ofExcept body

/-- `if now - last_... >= period`, with the time stamp moved on behind it. -/
def whenDue (now period : ℚ) (stamp : Last → ℚ) (setStamp : ℚ → Last → Last) (body : Loop Unit) :
    Loop Unit := do
  if period ≤ now - stamp (← get).last then
    body
    modify fun p => { p with last := setStamp now p.last }

/-- **The body of `monitor_loop`**, inside its `try`. -/
def iterationBody (settings : Settings) (i : Iteration) : Loop Unit := do
  attempt .sweepOffline (sweepOffline i.offline)
  whenDue i.now partitionScanSeconds Last.partitionCheck (fun t l => { l with partitionCheck := t })
    (attempt .ensurePartitions (ensurePartitions i.partitions))
  whenDue i.now alertScanSeconds Last.alertCheck (fun t l => { l with alertCheck := t })
    (attempt .scanAlerts (scanAlerts i.alerts))
  whenDue i.now lostScanSeconds Last.lostCheck (fun t l => { l with lostCheck := t })
    (attempt .sweepLost (sweepLost i.lost))
  whenDue i.now tokenCleanupSeconds Last.tokenCleanup (fun t l => { l with tokenCleanup := t })
    (attempt .cleanupTokens (cleanupTokens i.tokens))
  -- nothing is synchronised any more
  whenDue i.now settings.velociraptorSyncIntervalSeconds Last.velociraptorCheck
    (fun t l => { l with velociraptorCheck := t }) (pure ())
  whenDue i.now settings.llmInvestigationIntervalSeconds Last.llmDfirCheck
    (fun t l => { l with llmDfirCheck := t })
    (attempt .runPendingInvestigations (swallow (raises i.investigations)))

/-- An iteration of `monitor_loop`: what gets out of the body is logged. -/
def iteration (settings : Settings) (last : Last) (i : Iteration) : Progress :=
  ((tryCatch (iterationBody settings i) fun _ => pure ()).run.run ⟨last, []⟩).2

/-- The local variables before each iteration of a run. -/
def lastAt (settings : Settings) (run : ℕ → Iteration) : ℕ → Last
  | 0 => Last.start settings
  | k + 1 => (iteration settings (lastAt settings run k) (run k)).last

/-! ## What an iteration attempts -/

/-- An exception gets out of the job. -/
def escapes : Except Exn Unit → Bool
  | .ok _ => false
  | .error _ => true

@[simp] theorem escapes_ok (a : Unit) : escapes (.ok a) = false := rfl

@[simp] theorem escapes_error (e : Exn) : escapes (.error e) = true := rfl

@[simp] theorem escapes_swallow (body : Except Exn Unit) : escapes (swallow body) = false := by
  cases body with
  | ok _ => rfl
  | error e => rfl

namespace Job

/-- All of them, in the order of the loop. -/
def all : List Job :=
  [sweepOffline, ensurePartitions, scanAlerts, sweepLost, cleanupTokens, runPendingInvestigations]

theorem mem_all (job : Job) : job ∈ all := by cases job <;> decide

def period (settings : Settings) : Job → ℚ
  | sweepOffline => 0
  | ensurePartitions => partitionScanSeconds
  | scanAlerts => alertScanSeconds
  | sweepLost => lostScanSeconds
  | cleanupTokens => tokenCleanupSeconds
  | runPendingInvestigations => settings.llmInvestigationIntervalSeconds

/-- Its time stamp; the offline sweep has none. -/
def stamp (last : Last) : Job → Option ℚ
  | sweepOffline => none
  | ensurePartitions => some last.partitionCheck
  | scanAlerts => some last.alertCheck
  | sweepLost => some last.lostCheck
  | cleanupTokens => some last.tokenCleanup
  | runPendingInvestigations => some last.llmDfirCheck

/-- Its period is over.  That of the offline sweep always is. -/
def due (settings : Settings) (last : Last) (now : ℚ) (job : Job) : Bool :=
  (job.stamp last).all fun t => decide (job.period settings ≤ now - t)

def body (i : Iteration) : Job → Except Exn Unit
  | sweepOffline => Monitor.sweepOffline i.offline
  | ensurePartitions => Monitor.ensurePartitions i.partitions
  | scanAlerts => Monitor.scanAlerts i.alerts
  | sweepLost => Monitor.sweepLost i.lost
  | cleanupTokens => Monitor.cleanupTokens i.tokens
  | runPendingInvestigations => swallow (raises i.investigations)

def turn (settings : Settings) (last : Last) (i : Iteration) (job : Job) : Turn Job where
  task := job
  due := job.due settings last i.now
  breaks := escapes (job.body i)

end Job

/-! ### Running the statements of the loop -/

theorem run_bind {α β : Type} (m : Loop α) (k : α → Loop β) (p : Progress) : (m >>= k).run.run p =
      match m.run.run p with
      | (.ok a, q) => (k a).run.run q
      | (.error e, q) => (.error e, q) := by
  rw [ExceptT.run_bind, StateT.run_bind]
  rcases m.run.run p with ⟨_ | _, q⟩ <;> rfl

theorem run_tryCatch (m : Loop Unit) (handler : Exn → Loop Unit) (p : Progress) :
    (tryCatch m handler).run.run p = match m.run.run p with
      | (.ok a, q) => (.ok a, q)
      | (.error e, q) => (handler e).run.run q := by
  change (ExceptT.tryCatch m handler).run.run p = _
  rw [ExceptT.tryCatch, ExceptT.run_mk, StateT.run_bind]
  change (do let r ← m.run.run p; _ : Id _) = _
  rcases m.run.run p with ⟨_ | _, q⟩ <;> rfl

theorem run_attempt (job : Job) (body : Except Exn Unit) (p : Progress) :
    (attempt job body).run.run p = (body, { p with attempted := p.attempted ++ [job] }) := by
  cases body with
  | ok _ => rfl
  | error e => rfl

theorem run_whenDue (now period : ℚ) (stamp : Last → ℚ) (setStamp : ℚ → Last → Last)
    (body : Loop Unit) (p : Progress) : (whenDue now period stamp setStamp body).run.run p =
      if period ≤ now - stamp p.last then match body.run.run p with
        | (.ok _, q) => (.ok (), { q with last := setStamp now q.last })
        | (.error e, q) => (.error e, q)
      else (.ok (), p) := by
  have hget : (get : Loop Progress).run.run p = (.ok p, p) := rfl
  rw [whenDue, run_bind, hget]
  dsimp only
  split
  · rw [run_bind]
    rcases body.run.run p with ⟨_ | _, q⟩ <;> rfl
  · rfl

/-- The functions read and write the time stamp of the job, and of no other. -/
structure Stamps (job : Job) (stamp : Last → ℚ) (setStamp : ℚ → Last → Last) : Prop where
  own : ∀ l, job.stamp l = some (stamp l)
  other : ∀ other, other ≠ job → ∀ t l, other.stamp (setStamp t l) = other.stamp l

theorem stamps_partitions :
    Stamps .ensurePartitions Last.partitionCheck (fun t l => { l with partitionCheck := t }) := by
  refine ⟨fun _ => rfl, fun other hne t l => ?_⟩
  cases other <;> first | rfl | exact absurd rfl hne

theorem stamps_alerts :
    Stamps .scanAlerts Last.alertCheck (fun t l => { l with alertCheck := t }) := by
  refine ⟨fun _ => rfl, fun other hne t l => ?_⟩
  cases other <;> first | rfl | exact absurd rfl hne

theorem stamps_lost : Stamps .sweepLost Last.lostCheck (fun t l => { l with lostCheck := t }) := by
  refine ⟨fun _ => rfl, fun other hne t l => ?_⟩
  cases other <;> first | rfl | exact absurd rfl hne

theorem stamps_tokens :
    Stamps .cleanupTokens Last.tokenCleanup (fun t l => { l with tokenCleanup := t }) := by
  refine ⟨fun _ => rfl, fun other hne t l => ?_⟩
  cases other <;> first | rfl | exact absurd rfl hne

theorem stamps_investigations :
    Stamps .runPendingInvestigations Last.llmDfirCheck (fun t l => { l with llmDfirCheck := t }) := by
  refine ⟨fun _ => rfl, fun other hne t l => ?_⟩
  cases other <;> first | rfl | exact absurd rfl hne

/-! ### The jobs that are attempted -/

section Performs

variable {settings : Settings} {last : Last} {i : Iteration} {job : Job} {jobs : List Job}
  {stamp : Last → ℚ} {setStamp : ℚ → Last → Last} {k : Unit → Loop Unit}

/-- As long as the time stamps of these jobs are those of `last`, the program attempts them as a round
does. -/
def Performs (settings : Settings) (last : Last) (i : Iteration) (jobs : List Job) (m : Loop Unit) :
    Prop :=
  ∀ p, (∀ job ∈ jobs, job.stamp p.last = job.stamp last) →
    (m.run.run p).2.attempted = p.attempted ++ attempts (jobs.map (Job.turn settings last i))

theorem performs_pure : Performs settings last i [] (pure ()) :=
  fun p _ => (List.append_nil p.attempted).symm

theorem performs_attempt (hstamp : job.stamp last = none)
    (hk : Performs settings last i jobs (k ())) :
    Performs settings last i (job :: jobs) (attempt job (job.body i) >>= k) := by
  intro p hp
  have hdue : (job.turn settings last i).due = true := by
    simp [Job.turn, Job.due, hstamp]
  rw [run_bind, run_attempt, List.map_cons]
  cases hbody : job.body i with
  | error e =>
    have hbreaks : (job.turn settings last i).breaks = true := by simp [Job.turn, hbody]
    rw [attempts_of_breaks hdue hbreaks]
    rfl
  | ok _ =>
    have hbreaks : (job.turn settings last i).breaks = false := by simp [Job.turn, hbody]
    rw [attempts_of_returns hdue hbreaks]
    have hrest := hk ⟨p.last, p.attempted ++ [job]⟩ fun other hmem =>
      hp other (List.mem_cons_of_mem _ hmem)
    exact hrest.trans (List.append_assoc _ _ _)

theorem performs_whenDue (hjob : Stamps job stamp setStamp) (hnew : job ∉ jobs)
    (hk : Performs settings last i jobs (k ())) : Performs settings last i (job :: jobs)
      (whenDue i.now (job.period settings) stamp setStamp (attempt job (job.body i)) >>= k) := by
  intro p hp
  have hown : stamp p.last = stamp last := by
    have := hp job List.mem_cons_self
    rw [hjob.own, hjob.own] at this
    exact Option.some.inj this
  have hdue : (job.turn settings last i).due = decide (job.period settings ≤ i.now - stamp last) := by
    simp [Job.turn, Job.due, hjob.own]
  rw [run_bind, run_whenDue, run_attempt, hown, List.map_cons]
  by_cases hle : job.period settings ≤ i.now - stamp last
  · have hdue : (job.turn settings last i).due = true := by simpa [hle] using hdue
    rw [if_pos hle]
    cases hbody : job.body i with
    | error e =>
      have hbreaks : (job.turn settings last i).breaks = true := by simp [Job.turn, hbody]
      rw [attempts_of_breaks hdue hbreaks]
      rfl
    | ok _ =>
      have hbreaks : (job.turn settings last i).breaks = false := by simp [Job.turn, hbody]
      rw [attempts_of_returns hdue hbreaks]
      have hrest := hk ⟨setStamp i.now p.last, p.attempted ++ [job]⟩ fun other hmem => by
        rw [hjob.other other (fun heq => hnew (heq ▸ hmem))]
        exact hp other (List.mem_cons_of_mem _ hmem)
      exact hrest.trans (List.append_assoc _ _ _)
  · have hdue : (job.turn settings last i).due = false := by simpa [hle] using hdue
    rw [if_neg hle, attempts_of_not_due hdue]
    exact hk p fun other hmem => hp other (List.mem_cons_of_mem _ hmem)

theorem performs_stamp {period : ℚ}
    (hset : ∀ job : Job, ∀ t l, job.stamp (setStamp t l) = job.stamp l)
    (hk : Performs settings last i jobs (k ())) :
    Performs settings last i jobs (whenDue i.now period stamp setStamp (pure ()) >>= k) := by
  intro p hp
  have hpure : (pure () : Loop Unit).run.run p = (.ok (), p) := rfl
  rw [run_bind, run_whenDue, hpure]
  by_cases hle : period ≤ i.now - stamp p.last
  · rw [if_pos hle]
    exact hk _ fun job hmem => (hset job _ _).trans (hp job hmem)
  · rw [if_neg hle]
    exact hk p hp

end Performs

theorem performs_iterationBody (settings : Settings) (last : Last) (i : Iteration) :
    Performs settings last i Job.all (iterationBody settings i) := by
  have hvelociraptor : ∀ job : Job, ∀ t l,
      job.stamp { l with velociraptorCheck := t } = job.stamp l := by
    intro job t l
    cases job <;> rfl
  rw [iterationBody, ← bind_pure (whenDue i.now settings.llmInvestigationIntervalSeconds _ _ _)]
  exact performs_attempt rfl <|
    performs_whenDue stamps_partitions (by decide) <|
    performs_whenDue stamps_alerts (by decide) <|
    performs_whenDue stamps_lost (by decide) <|
    performs_whenDue stamps_tokens (by decide) <|
    performs_stamp hvelociraptor <|
    performs_whenDue stamps_investigations (by decide) performs_pure

/-- What gets out of the body changes nothing about what has been attempted. -/
theorem iteration_eq (settings : Settings) (last : Last) (i : Iteration) :
    iteration settings last i = ((iterationBody settings i).run.run ⟨last, []⟩).2 := by
  rw [iteration, run_tryCatch]
  rcases (iterationBody settings i).run.run ⟨last, []⟩ with ⟨_ | _, q⟩ <;> rfl

theorem attempted_iteration (settings : Settings) (last : Last) (i : Iteration) :
    (iteration settings last i).attempted = attempts (Job.all.map (Job.turn settings last i)) := by
  rw [iteration_eq]
  exact performs_iterationBody settings last i ⟨last, []⟩ fun _ _ => rfl

/-! ### The time stamps of the jobs that are not attempted -/

section Keeps

variable {job : Job} {stamp : Last → ℚ} {setStamp : ℚ → Last → Last} {k : Unit → Loop Unit}

/-- The program only adds to the jobs that have been attempted, and the time stamps of the others stay. -/
def Keeps (m : Loop Unit) : Prop :=
  ∀ p, ∃ new, (m.run.run p).2.attempted = p.attempted ++ new ∧
    ∀ job, job ∉ new → job.stamp (m.run.run p).2.last = job.stamp p.last

theorem keeps_of_same {m : Loop Unit} (h : ∀ p, (m.run.run p).2.attempted = p.attempted ∧
    ∀ job : Job, job.stamp (m.run.run p).2.last = job.stamp p.last) : Keeps m :=
  fun p => ⟨[], (h p).1.trans (List.append_nil _).symm, fun job _ => (h p).2 job⟩

theorem keeps_attempt (job : Job) (body : Except Exn Unit) : Keeps (attempt job body) := by
  intro p
  rw [run_attempt]
  exact ⟨[job], rfl, fun _ _ => rfl⟩

theorem keeps_whenDue {now period : ℚ} {body : Except Exn Unit} (hjob : Stamps job stamp setStamp) :
    Keeps (whenDue now period stamp setStamp (attempt job body)) := by
  intro p
  rw [run_whenDue, run_attempt]
  by_cases hle : period ≤ now - stamp p.last
  · rw [if_pos hle]
    cases body with
    | error e => exact ⟨[job], rfl, fun _ _ => rfl⟩
    | ok _ =>
      exact ⟨[job], rfl, fun other hother =>
        hjob.other other (List.ne_of_not_mem_cons hother) _ _⟩
  · rw [if_neg hle]
    exact ⟨[], (List.append_nil _).symm, fun _ _ => rfl⟩

theorem Keeps.bind {m : Loop Unit} (hm : Keeps m) (hk : Keeps (k ())) : Keeps (m >>= k) := by
  intro p
  obtain ⟨new, hnew, hstamps⟩ := hm p
  rw [run_bind]
  rcases hrun : m.run.run p with ⟨_ | _, q⟩
  · rw [hrun] at hnew hstamps
    exact ⟨new, hnew, hstamps⟩
  · rw [hrun] at hnew hstamps
    obtain ⟨more, hmore, hlater⟩ := hk q
    refine ⟨new ++ more, ?_, fun job hjob => ?_⟩
    · change ((k ()).run.run q).2.attempted = _
      rw [hmore, hnew, List.append_assoc]
    · have hnot := mt List.mem_append.mpr hjob
      rw [not_or] at hnot
      exact (hlater job hnot.2).trans (hstamps job hnot.1)

end Keeps

theorem keeps_iterationBody (settings : Settings) (i : Iteration) :
    Keeps (iterationBody settings i) := by
  refine (keeps_attempt _ _).bind ((keeps_whenDue stamps_partitions).bind
    ((keeps_whenDue stamps_alerts).bind ((keeps_whenDue stamps_lost).bind
    ((keeps_whenDue stamps_tokens).bind (Keeps.bind (keeps_of_same fun p => ?_)
    (keeps_whenDue stamps_investigations))))))
  have hpure : (pure () : Loop Unit).run.run p = (.ok (), p) := rfl
  rw [run_whenDue, hpure]
  split
  · exact ⟨rfl, fun job => by cases job <;> rfl⟩
  · exact ⟨rfl, fun _ => rfl⟩

theorem stamp_iteration {settings : Settings} {last : Last} {i : Iteration} {job : Job}
    (h : job ∉ (iteration settings last i).attempted) :
    job.stamp (iteration settings last i).last = job.stamp last := by
  rw [iteration_eq] at h ⊢
  obtain ⟨new, hnew, hstamps⟩ := keeps_iterationBody settings i ⟨last, []⟩
  rw [hnew] at h
  exact hstamps job h

/-! ## Jobs that do not keep each other from running -/

/-- The `k`th iteration of a run attempts the job. -/
def Attempted (settings : Settings) (run : ℕ → Iteration) (k : ℕ) (job : Job) : Prop :=
  job ∈ (iteration settings (lastAt settings run k) (run k)).attempted

/-- The period of the job is over in the `k`th iteration. -/
def Due (settings : Settings) (run : ℕ → Iteration) (k : ℕ) (job : Job) : Prop :=
  job.due settings (lastAt settings run k) (run k).now = true

instance (settings : Settings) (run : ℕ → Iteration) (k : ℕ) (job : Job) :
    Decidable (Attempted settings run k job) :=
  inferInstanceAs (Decidable (job ∈ (iteration settings (lastAt settings run k) (run k)).attempted))

instance (settings : Settings) (run : ℕ → Iteration) (k : ℕ) (job : Job) :
    Decidable (Due settings run k job) :=
  inferInstanceAs (Decidable (job.due settings (lastAt settings run k) (run k).now = true))

/-- Every job whose period is over is attempted. -/
def Isolated (settings : Settings) (run : ℕ → Iteration) : Prop :=
  ∀ k job, Due settings run k job → Attempted settings run k job

/-- The second job is behind the first in the loop. -/
def Job.Before (job later : Job) : Prop := [job, later].Sublist Job.all

/-- In the `k`th iteration no exception gets out of a job with one behind it whose period is over. -/
def ContainedAt (settings : Settings) (run : ℕ → Iteration) (k : ℕ) : Prop :=
  ∀ job later, Job.Before job later → Due settings run k job → escapes (job.body (run k)) = true →
    ¬ Due settings run k later

theorem escapes_body (i : Iteration) {job : Job} (h : escapes (job.body i) = true) :
    job = .sweepOffline ∨ job = .scanAlerts ∨ job = .sweepLost := by
  cases job with
  | sweepOffline => exact .inl rfl
  | scanAlerts => exact .inr (.inl rfl)
  | sweepLost => exact .inr (.inr rfl)
  | ensurePartitions => exact absurd h (by simp [Job.body, ensurePartitions])
  | cleanupTokens => exact absurd h (by simp [Job.body, cleanupTokens])
  | runPendingInvestigations => exact absurd h (by simp [Job.body])

theorem attempted_iff (settings : Settings) (run : ℕ → Iteration) (k : ℕ) (job : Job) :
    Attempted settings run k job ↔
      job ∈ attempts (Job.all.map (Job.turn settings (lastAt settings run k) (run k))) := by
  rw [Attempted, attempted_iteration]

theorem attempted_all_iff (settings : Settings) (run : ℕ → Iteration) (k : ℕ) :
    (∀ job, Due settings run k job → Attempted settings run k job) ↔ ContainedAt settings run k := by
  have htasks : ((Job.all.map (Job.turn settings (lastAt settings run k) (run k))).map
      Turn.task).Nodup := by
    rw [List.map_map]
    change (Job.all.map id).Nodup
    decide
  have hall := attempts_all_iff htasks
  rw [Contained, List.pairwise_map, List.pairwise_iff_forall_sublist, List.forall_mem_map] at hall
  constructor
  · intro h job later hbefore hdue hescapes
    have hlater := hall.mp (fun job _ hjob => (attempted_iff settings run k job).mp (h job hjob))
      hbefore hdue hescapes
    exact (Bool.not_eq_true _).mpr hlater
  · intro h job hdue
    refine (attempted_iff settings run k job).mpr (hall.mpr ?_ job (Job.mem_all job) hdue)
    intro job later hbefore hdue hescapes
    exact (Bool.not_eq_true _).mp (h job later hbefore hdue hescapes)

/-- In a run whose clock goes on, jobs that do not keep each other from running all run again and
again. -/
theorem Isolated.attempted_again {settings : Settings} {run : ℕ → Iteration}
    (h : Isolated settings run) (hclock : ∀ t n, ∃ k, n ≤ k ∧ t ≤ (run k).now) (job : Job) (n : ℕ) :
    ∃ k, n ≤ k ∧ Attempted settings run k job := by
  refine exists_attempted (fun k => (run k).now) (fun k => (job.stamp (lastAt settings run k)).getD 0)
    (job.period settings) ?_ ?_ hclock n
  · intro k hk
    refine h k job ?_
    rw [Due, Job.due]
    cases hstamp : job.stamp (lastAt settings run k) with
    | none => rfl
    | some t =>
      rw [hstamp] at hk
      exact decide_eq_true hk
  · intro k hk
    exact congrArg (fun t => t.getD 0) (stamp_iteration hk)

/-- **The jobs do not keep each other from running exactly when** in every iteration the exceptions are
contained; and then, as the clock goes on, every job runs again and again. -/
theorem jobs_isolated_iff (settings : Settings) (run : ℕ → Iteration) :
    (Isolated settings run ↔ ∀ k, ContainedAt settings run k) ∧
      (Isolated settings run → (∀ t n, ∃ k, n ≤ k ∧ t ≤ (run k).now) →
        ∀ job n, ∃ k, n ≤ k ∧ Attempted settings run k job) :=
  ⟨forall_congr' fun k => attempted_all_iff settings run k,
    fun h hclock job n => h.attempted_again hclock job n⟩

/-! ## A sweep that keeps failing -/

/-- Nothing is raised. -/
def quietSweep : SweepFaults := ⟨none, none, [], none, none, none⟩

/-- Reading the attributes of a machine keeps failing. -/
def failingSweep : SweepFaults :=
  { quietSweep with machines := [⟨some "MissingGreenlet", none, none⟩] }

/-- An iteration every thirty seconds, with a machine whose attributes cannot be read. -/
def failingSweeps (k : ℕ) : Iteration where
  now := 30 * k
  offline := failingSweep
  partitions := ⟨none, none, none⟩
  alerts := ⟨none, none, [], none, none⟩
  lost := quietSweep
  tokens := ⟨none, none, none⟩
  investigations := none

def exampleSettings : Settings := ⟨300, 30⟩

/-- When an exception gets out of the offline sweep, nothing else is attempted. -/
theorem attempted_of_failing_sweep {settings : Settings} {run : ℕ → Iteration} {k : ℕ} {job : Job}
    (hsweep : escapes (sweepOffline (run k).offline) = true) (h : Attempted settings run k job) :
    job = .sweepOffline := by
  rw [attempted_iff, Job.all, List.map_cons, attempts_of_breaks rfl hsweep] at h
  exact List.mem_singleton.mp h

/-- Every token whose time has come stays where it is: the cleanup is due from the start, and never
attempted. -/
theorem cleanup_starves :
    ¬ Isolated exampleSettings failingSweeps ∧ Due exampleSettings failingSweeps 0 .cleanupTokens ∧
      ∀ k, ¬ Attempted exampleSettings failingSweeps k .cleanupTokens := by
  have hnever : ∀ k, ¬ Attempted exampleSettings failingSweeps k .cleanupTokens := fun k h =>
    absurd (attempted_of_failing_sweep rfl h) (by decide)
  have hdue : Due exampleSettings failingSweeps 0 .cleanupTokens := by
    decide +kernel
  exact ⟨fun h => hnever 0 (h 0 _ hdue), hdue, hnever⟩

end AssetInventory.Monitor
