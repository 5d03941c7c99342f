import AssetInventory.Lib.Run
import AssetInventory.Lib.Table
import AssetInventory.Dfir.Queries

/-!
# The system: sessions over one table

Worker ticks and requests are *processes*, each with a database session of its own, over one table
of investigations, one daily token counter and one clock.  A process computes on the objects it has
loaded, and what it commits is a `Flush`.  Between any two of its steps every other process may step.

The rules of the session are those of the source: `READ COMMITTED` transactions, `expire_on_commit =
False`, and an `UPDATE` of the changed columns by primary key.

* A `SELECT ... FOR UPDATE SKIP LOCKED` skips the rows that another process has locked and locks the
  ones it takes; `FOR UPDATE` without it waits.  A commit ends the locks of its process.
* A row that is already in the session keeps its object: the query's row is not read into it.
* A flush takes the locks of the rows it writes for the instant of the commit, so it waits while
  another process holds one.
* `ORDER BY` leaves rows with equal keys in any order, so an order is part of the action.

What a step cannot do is visible in its type: a `Move` yields a new `Proc`, the rows it locks and the
answers it gives, and only `World.commit` and the insert of `Action.create` change the table.
-/

namespace AssetInventory

open PyJson PyTime Orm DfirInvestigation RowStore

/-- The identity of a process: a tick, or a request. -/
abbrev Pid := ℕ

/-- One row of a flush. -/
structure Write where
  id : InvId
  base : DfirInvestigation
  cur : DfirInvestigation
  deriving DecidableEq

/-- The write of the daily token counter: the value read before, and the amount added to it. -/
structure TokenWrite where
  read : ℤ
  amount : ℤ
  deriving DecidableEq

/-- An answer to a request. -/
inductive Reply where
  | answered (i : InvId) (call : ResultCallback) (reply : Except CallbackError Snapshot)
  /-- A status callback was answered: with an error, or with its `accepted` flag. -/
  | reported (i : InvId) (body : StatusBody) (reply : Except HttpError Bool)
  /-- A poll of the pending investigations was answered. -/
  | polled (p : Pid) (limit : ℕ) (start stamp : Time) (ids : List InvId)

/-- What has been observed outside, newest first: commits, requests sent to DeepAgent, and answers
to requests. -/
inductive Event where
  /-- A transaction was committed. -/
  | committed (p : Pid) (writes : List Write) (tokens : Option TokenWrite)
  /-- The investigation was posted to DeepAgent. -/
  | sent (p : Pid) (i : InvId)
  /-- A request was answered. -/
  | replied (reply : Reply)

/-- What a process commits at once, and what it answers then. -/
structure Flush where
  writes : List Write
  tokens : Option TokenWrite
  reply : Option Reply

/-- Where a process stands. -/
inductive Phase where
  /-- The session is not open yet. -/
  | idle
  /-- A tick with these DeepAgent rows left to reconcile. -/
  | reconciling (queue : List InvId)
  /-- A tick that has counted this many free slots. -/
  | claiming (available : ℕ)
  /-- A tick with these claimed rows left to dispatch. -/
  | dispatching (queue : List InvId)
  /-- A tick about to post the row. -/
  | posting (i : InvId) (queue : List InvId)
  /-- A tick waiting for the answer to the post. -/
  | awaiting (i : InvId) (queue : List InvId)
  /-- A tick with these local rows left to process. -/
  | working (queue : List InvId)
  /-- A poll that has read the clock. -/
  | polling (start : Time) (limit : ℤ)
  /-- A poll that has selected these rows. -/
  | stamping (start : Time) (limit : ℕ) (ids : List InvId)
  /-- A chat that has read the token counter and waits for the LLM. -/
  | chatting (read : ℤ)
  /-- Nothing is left to do but to commit. -/
  | ended
  deriving DecidableEq

/-- A process: the objects in its session as last loaded or committed, what it has still to commit,
and where it stands. -/
structure Proc where
  objs : InvId → Option DfirInvestigation
  todo : List Flush
  phase : Phase

/-- A process that has not started. -/
def Proc.fresh : Proc := ⟨fun _ => none, [], .idle⟩

def Proc.over : Proc := ⟨fun _ => none, [], .ended⟩

/-- The whole system. -/
structure World where
  clock : Time
  rows : Table InvId DfirInvestigation
  locks : InvId → Option Pid
  procs : Pid → Proc
  tokens : ℤ
  log : List Event

/-- No process has started. -/
structure World.Quiet (w : World) : Prop where
  procs : ∀ p, w.procs p = Proc.fresh
  locks : ∀ i, w.locks i = none
  log : w.log = []

/-- The system over a table. -/
def World.start (clock : Time) (rows : Table InvId DfirInvestigation) (tokens : ℤ) : World where
  clock := clock
  rows := rows
  locks := fun _ => none
  procs := fun _ => Proc.fresh
  tokens := tokens
  log := []

theorem World.quiet_start (clock : Time) (rows : Table InvId DfirInvestigation) (tokens : ℤ) :
    (World.start clock rows tokens).Quiet := ⟨fun _ => rfl, fun _ => rfl, rfl⟩

/-! ## Queries -/

namespace World

/-- `WHERE q` keeps the row under the key. -/
def keeps (w : World) (q : DfirInvestigation → Sql.Truth) (i : InvId) : Bool :=
  (w.rows.get i).any fun r => Sql.holds (q r)

/-- No other process has locked the row. -/
def free (w : World) (p : Pid) (i : InvId) : Bool :=
  decide (w.locks i = none ∨ w.locks i = some p)

/-- The orders `ORDER BY created_at` may give. -/
def Ordered (w : World) (ord : List InvId) : Prop := w.rows.IsOrder createdAt ord

instance (w : World) (ord : List InvId) : Decidable (w.Ordered ord) := by
  unfold Ordered
  infer_instance

/-- The rows of `WHERE q ... FOR UPDATE SKIP LOCKED`, in an order. -/
def select (w : World) (p : Pid) (q : DfirInvestigation → Sql.Truth) (ord : List InvId) :
    List InvId := ord.filter fun i => w.keeps q i && w.free p i

/-- The rows of `WHERE q ... LIMIT n FOR UPDATE SKIP LOCKED`, in an order. -/
def selectLimit (w : World) (p : Pid) (q : DfirInvestigation → Sql.Truth) (ord : List InvId)
    (n : ℕ) : List InvId := limit ord (fun i => w.keeps q i && w.free p i) n

/-- The objects of a session after a query has returned these rows: a row that is in the session
keeps its object. -/
def loaded (w : World) (objs : InvId → Option DfirInvestigation) (ids : List InvId) :
    InvId → Option DfirInvestigation :=
  fun i => if i ∈ ids then (objs i).or (w.rows.get i) else objs i

/-- The busy DeepAgent slots. -/
def busy (w : World) : ℕ := w.rows.count fun r => Sql.holds (reconcileWhere r)

end World

/-! ## Flushes -/

/-- The flushes of one row.  The token counter is written with the last of them. -/
def rowFlushes (i : InvId) (tokens : Option TokenWrite) :
    List (DfirInvestigation × DfirInvestigation) → List Flush
  | [] => []
  | [(b, c)] => [⟨[⟨i, b, c⟩], tokens, none⟩]
  | (b, c) :: l => ⟨[⟨i, b, c⟩], none, none⟩ :: rowFlushes i tokens l

/-- The flush of one assignment to many rows. -/
def manyWrites (objs : InvId → Option DfirInvestigation) (ids : List InvId)
    (f : InvId → DfirInvestigation → DfirInvestigation) : List Write :=
  ids.filterMap fun i => (objs i).map fun o => ⟨i, o, f i o⟩

/-- The objects after a flush. -/
def objsAfter (objs : InvId → Option DfirInvestigation) (writes : List Write) :
    InvId → Option DfirInvestigation :=
  writes.foldl (fun o wr => Function.update o wr.id (some wr.cur)) objs

/-- The table after a flush. -/
def rowsAfter (rows : Table InvId DfirInvestigation) (writes : List Write) :
    Table InvId DfirInvestigation :=
  writes.foldl (fun t wr => t.modify wr.id (writeBack wr.base wr.cur)) rows

/-- The token counter after a flush. -/
def tokensAfter (tokens : ℤ) : Option TokenWrite → ℤ
  | none => tokens
  | some tw => pick tw.read (tw.read + tw.amount) tokens

/-! ## Moves -/

/-- What a process does between two commits, with what it meets. -/
inductive Move where
  /-- A tick starts, the LLM being enabled, and selects the DeepAgent rows to reconcile. -/
  | tickStart (ord : List InvId)
  /-- The next row is reconciled. -/
  | reconcile (env : ReconcileEnv)
  /-- The free slots are counted. -/
  | count
  /-- Pending rows are claimed. -/
  | claim (ord : List InvId)
  /-- The next claimed row is prepared up to its first commit. -/
  | prepare (env : DispatchEnv) (later : Time)
  /-- The prepared row is posted. -/
  | send
  /-- The post is answered. -/
  | outcome (env : DispatchReply) (later : Time)
  /-- The rows DeepAgent does not own are selected. -/
  | selectLocal (ord : List InvId)
  /-- The next of them is processed. -/
  | process (env : LocalEnv)
  /-- A result callback arrives. -/
  | callback (i : InvId) (call : ResultCallback)
  /-- A status callback arrives. -/
  | status (i : InvId) (body : StatusBody)
  /-- A stop request arrives. -/
  | stop (i : InvId)
  /-- A poll arrives, and reads the clock. -/
  | poll (limit : ℤ)
  /-- The poll selects its rows. -/
  | pollSelect (ord : List InvId)
  | pollStamp
  /-- A chat request arrives, and reads the configuration. -/
  | chat (i : InvId)
  /-- The LLM has answered the chat. -/
  | chatReply (totalTokens : ℤ)

/-- What a move leaves: the process, the rows it has locked, and the answers it has given. -/
structure Effect where
  proc : Proc
  locked : List InvId
  said : List Event

namespace World

/-- `run_pending_investigations` up to the first loop. -/
def tickStart (w : World) (p : Pid) (ord : List InvId) : Option Effect :=
  if w.Ordered ord then
    let ids := w.select p reconcileWhere ord
    some ⟨⟨w.loaded (w.procs p).objs ids, [], .reconciling ids⟩, ids, []⟩
  else none

/-- One round of the first loop.  An exception ends the tick. -/
def reconcileNext (cfg : Settings) (w : World) (p : Pid) (i : InvId) (queue : List InvId)
    (env : ReconcileEnv) : Option Effect :=
  ((w.procs p).objs i).map fun inv =>
    let o := stateCheckDeepagentJob cfg w.clock env inv
    ⟨⟨(w.procs p).objs, rowFlushes i none o.session.flushed,
      if o.raised.isSome then .ended else .reconciling queue⟩, [], []⟩

/-- `claim_deepagent_dispatches` up to the count. -/
def countSlots (cfg : Settings) (w : World) (p : Pid) : Effect :=
  let available := cfg.deepagentMaxConcurrentJobs - w.busy
  ⟨⟨(w.procs p).objs, [], if available = 0 then .dispatching [] else .claiming available⟩, [], []⟩

/-- `claim_deepagent_dispatches` from the second query on. -/
def claimRows (w : World) (p : Pid) (available : ℕ) (ord : List InvId) : Option Effect :=
  if w.Ordered ord then
    let ids := w.selectLimit p claimWhere ord available
    let objs := w.loaded (w.procs p).objs ids
    let writes := manyWrites objs ids reserveJobId
    some ⟨⟨objs, [⟨writes, none, none⟩], .dispatching ids⟩, ids, []⟩
  else none

/-- `_state_dispatch_deepagent` up to its first commit, or the worker's `except` clause. -/
def prepareNext (cfg : Settings) (w : World) (p : Pid) (i : InvId) (queue : List InvId)
    (env : DispatchEnv) (later : Time) : Option Effect :=
  ((w.procs p).objs i).map fun inv =>
    match dispatchPrepare cfg env inv with
    | .error e =>
      let s := dispatchBoundary later (.raise (Session.load inv) (.other e))
      ⟨⟨(w.procs p).objs, rowFlushes i none s.flushed, .dispatching queue⟩, [], []⟩
    | .ok _ =>
      let s := ((Session.load inv).set (dispatchReserve i w.clock)).commit
      ⟨⟨(w.procs p).objs, rowFlushes i none s.flushed, .posting i queue⟩, [], []⟩

/-- The `POST`. -/
def sendNext (w : World) (p : Pid) (i : InvId) (queue : List InvId) : Effect :=
  ⟨⟨(w.procs p).objs, [], .awaiting i queue⟩, [], [.sent p i]⟩

/-- `_state_dispatch_deepagent` from the answer on, in the worker's `try`. -/
def outcomeNext (w : World) (p : Pid) (i : InvId) (queue : List InvId) (env : DispatchReply)
    (later : Time) : Option Effect :=
  ((w.procs p).objs i).map fun inv =>
    let s := dispatchBoundary later (dispatchOutcome i env inv)
    ⟨⟨(w.procs p).objs, rowFlushes i none s.flushed, .dispatching queue⟩, [], []⟩

/-- The query for the rows DeepAgent does not own. -/
def selectLocal (w : World) (p : Pid) (ord : List InvId) : Option Effect :=
  if w.Ordered ord then
    let ids := w.selectLimit p localWhere ord localLimit
    some ⟨⟨w.loaded (w.procs p).objs ids, [], .working ids⟩, ids, []⟩
  else none

/-- One round of the last loop. -/
def processNext (cfg : Settings) (w : World) (p : Pid) (i : InvId) (queue : List InvId)
    (env : LocalEnv) : Option Effect :=
  ((w.procs p).objs i).map fun inv =>
    let o := processOne cfg i w.clock env inv
    let s := localBoundary env.later o.1
    ⟨⟨(w.procs p).objs, rowFlushes i (o.2.map (TokenWrite.mk w.tokens)) s.flushed,
      .working queue⟩, [], []⟩

/-- A result callback: `FOR UPDATE` waits for the row. -/
def callback (w : World) (p : Pid) (i : InvId) (call : ResultCallback) : Option Effect :=
  if w.free p i then
    match w.rows.get i, submitExternalResult i w.clock call (w.rows.get i) with
    | some inv, .ok e =>
      let reply := Reply.answered i call (.ok (invToDict i e.row))
      some ⟨⟨w.loaded (w.procs p).objs [i],
        [⟨[⟨i, inv, e.row⟩], e.spent.map (TokenWrite.mk w.tokens), some reply⟩], .ended⟩, [i], []⟩
    | _, .error e =>
      some ⟨⟨(w.procs p).objs, [], .ended⟩, [], [.replied (.answered i call (.error e))]⟩
    | none, .ok _ => none
  else none

/-- A status callback. -/
def status (w : World) (p : Pid) (i : InvId) (body : StatusBody) : Option Effect :=
  if w.free p i then
    match w.rows.get i, updateInvestigationStatus w.clock body (w.rows.get i) with
    | some inv, .ok (some r) =>
      some ⟨⟨w.loaded (w.procs p).objs [i],
        [⟨[⟨i, inv, r⟩], none, some (.reported i body (.ok true))⟩], .ended⟩, [i], []⟩
    | _, .ok none =>
      some ⟨⟨(w.procs p).objs, [], .ended⟩, [], [.replied (.reported i body (.ok false))]⟩
    | _, .error e =>
      some ⟨⟨(w.procs p).objs, [], .ended⟩, [], [.replied (.reported i body (.error e))]⟩
    | none, .ok (some _) => none
  else none

/-- A stop request: the row is read without a lock. -/
def stop (w : World) (p : Pid) (i : InvId) : Effect :=
  match w.rows.get i, stopInvestigation w.clock (w.rows.get i) with
  | some inv, .ok r =>
    ⟨⟨w.loaded (w.procs p).objs [i], [⟨[⟨i, inv, r⟩], none, none⟩], .ended⟩, [], []⟩
  | _, _ => ⟨⟨(w.procs p).objs, [], .ended⟩, [], []⟩

/-- `list_pending_for_external` up to its query: a negative limit is an error of the database. -/
def poll (w : World) (p : Pid) (limit : ℤ) : Effect :=
  ⟨⟨(w.procs p).objs, [], if limit < 0 then .ended else .polling w.clock limit⟩, [], []⟩

/-- The query of `list_pending_for_external`.  With no row it returns at once. -/
def pollSelect (w : World) (p : Pid) (start : Time) (limit : ℤ) (ord : List InvId) :
    Option Effect :=
  if w.Ordered ord then
    let ids := w.selectLimit p (leaseWhere (start - minutes 5)) ord limit.toNat
    if ids = [] then
      some ⟨⟨(w.procs p).objs, [], .ended⟩, [], [.replied (.polled p limit.toNat start w.clock [])]⟩
    else
      some ⟨⟨w.loaded (w.procs p).objs ids, [], .stamping start limit.toNat ids⟩, ids, []⟩
  else none

/-- The assignments of the lease. -/
def stampLease (now : Time) (inv : DfirInvestigation) : DfirInvestigation :=
  { inv with externalPolledAt := some now, hermesStatus := some "claimed" }

/-- The rest of `list_pending_for_external`. -/
def pollStamp (w : World) (p : Pid) (start : Time) (limit : ℕ) (ids : List InvId) : Effect :=
  let writes := manyWrites (w.procs p).objs ids fun _ => stampLease w.clock
  ⟨⟨(w.procs p).objs, [⟨writes, none, some (.polled p limit start w.clock ids)⟩], .ended⟩, [], []⟩

/-- `chat_with_llm` up to the call of the LLM: only a completed investigation can be asked about. -/
def chat (w : World) (p : Pid) (i : InvId) : Effect :=
  if (w.rows.get i).any fun r => decide (r.status = .completed) then
    ⟨⟨(w.procs p).objs, [], .chatting w.tokens⟩, [], []⟩
  else ⟨⟨(w.procs p).objs, [], .ended⟩, [], []⟩

/-- `chat_with_llm` from the answer on. -/
def chatReply (w : World) (p : Pid) (read totalTokens : ℤ) : Effect :=
  ⟨⟨(w.procs p).objs, [⟨[], some ⟨read, totalTokens⟩, none⟩], .ended⟩, [], []⟩

/-- A move of a process that has nothing to commit. -/
def move (cfg : Settings) (w : World) (p : Pid) (a : Move) : Option Effect :=
  if (w.procs p).todo.isEmpty then
    match (w.procs p).phase, a with
    | .idle, .tickStart ord => w.tickStart p ord
    | .reconciling (i :: queue), .reconcile env => reconcileNext cfg w p i queue env
    | .reconciling [], .count => some (countSlots cfg w p)
    | .claiming available, .claim ord => w.claimRows p available ord
    | .dispatching (i :: queue), .prepare env later => prepareNext cfg w p i queue env later
    | .posting i queue, .send => some (w.sendNext p i queue)
    | .awaiting i queue, .outcome env later => w.outcomeNext p i queue env later
    | .dispatching [], .selectLocal ord => w.selectLocal p ord
    | .working (i :: queue), .process env => processNext cfg w p i queue env
    | .idle, .callback i call => w.callback p i call
    | .idle, .status i body => w.status p i body
    | .idle, .stop i => some (w.stop p i)
    | .idle, .poll limit => some (w.poll p limit)
    | .polling start limit, .pollSelect ord => w.pollSelect p start limit ord
    | .stamping start limit ids, .pollStamp => some (w.pollStamp p start limit ids)
    | .idle, .chat i => some (w.chat p i)
    | .chatting read, .chatReply total => some (w.chatReply p read total)
    | _, _ => none
  else none

/-! ## Steps -/

/-- The locks without those of a process. -/
def release (w : World) (p : Pid) : InvId → Option Pid :=
  fun i => if w.locks i = some p then none else w.locks i

/-- The system after a move. -/
def moved (w : World) (p : Pid) (e : Effect) : World :=
  { w with
    locks := fun i => if i ∈ e.locked then some p else w.locks i
    procs := Function.update w.procs p e.proc
    log := e.said ++ w.log }

/-- The system after a commit. -/
def committed (w : World) (p : Pid) (f : Flush) (rest : List Flush) : World :=
  { w with
    rows := rowsAfter w.rows f.writes
    locks := w.release p
    procs := Function.update w.procs p
      ⟨objsAfter (w.procs p).objs f.writes, rest, (w.procs p).phase⟩
    tokens := tokensAfter w.tokens f.tokens
    log := f.reply.toList.map Event.replied ++ .committed p f.writes f.tokens :: w.log }

/-- The next commit of a process: it waits for the rows it writes. -/
def commit (w : World) (p : Pid) : Option World :=
  match (w.procs p).todo with
  | [] => none
  | f :: rest => if f.writes.all fun wr => w.free p wr.id then some (w.committed p f rest) else none

/-- The process ends, or crashes: its transaction is rolled back. -/
def close (w : World) (p : Pid) : World :=
  { w with
    locks := w.release p
    procs := Function.update w.procs p Proc.over }

/-- A new investigation is inserted under a fresh key. -/
def create (cfg : Settings) (w : World) (i : InvId) (env : CreateEnv) (req : CreateRequest) :
    Option World :=
  match createInvestigation cfg w.clock env req with
  | .ok r => if w.rows.get i = none then some { w with rows := w.rows.insert i r } else none
  | .error _ => some w

end World

/-- The steps of the system. -/
inductive Action where
  /-- Time passes. -/
  | advance (d : ℕ)
  /-- A request for a new investigation. -/
  | create (i : InvId) (env : CreateEnv) (req : CreateRequest)
  /-- A process moves. -/
  | move (p : Pid) (a : Move)
  /-- A process commits. -/
  | commit (p : Pid)
  /-- A process ends. -/
  | close (p : Pid)

/-- **One step of the system.** -/
def step (cfg : Settings) (w : World) : Action → Option World
  | .advance d => some { w with clock := w.clock + d }
  | .create i env req => World.create cfg w i env req
  | .move p a => (World.move cfg w p a).map (w.moved p)
  | .commit p => w.commit p
  | .close p => some (w.close p)

/-! ## A deployment to run -/

/-- Settings with the defaults of the source, DeepAgent enabled, and a capacity. -/
def sampleSettings (capacity : ℕ) : Settings where
  deepagentMaxConcurrentJobs := capacity
  deepagentRequestTimeoutSeconds := 30
  deepagentReconcileMaxUncertainSeconds := 1800
  deepagentEnabled := true
  deepagentApiKey := "token"
  llmCollectMaxWaitSeconds := 600
  llmExternalOrchestrator := ""
  llmDefaultArtifacts := ["Windows.System.Pslist"]

/-- The system with no investigation. -/
def emptyWorld : World := World.start 0 Table.empty 0

/-- A request for an investigation under the configured orchestrator. -/
def requestNew (i : InvId) (orchestrator : String) : Action :=
  .create i ⟨true, some "C.1", some orchestrator⟩ ⟨"machine-" ++ i, none, none, "admin", none⟩

/-- The dispatch of the next claimed row, with its two commits. -/
def dispatchOne (p : Pid) (answer : HttpAnswer) : List Action :=
  [.move p (.prepare ⟨.ok "windows", true, some "key", some (.ok "yaml"), .ok ()⟩ 0), .commit p,
    .move p .send, .move p (.outcome ⟨answer, 0⟩ 0), .commit p]

/-- The client gave up waiting for the answer. -/
def readTimeout : HttpAnswer := .raised ⟨"ReadTimeout", ""⟩

/-- DeepAgent answers with a status code and no body. -/
def httpStatus (code : ℕ) : HttpAnswer := .response code "" (.error ⟨"JSONDecodeError", ""⟩)

/-- The status of a row. -/
def World.statusOf (w : World) (i : InvId) : Option Status :=
  (w.rows.get i).map DfirInvestigation.status

end AssetInventory
