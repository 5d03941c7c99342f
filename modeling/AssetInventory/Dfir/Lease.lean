import AssetInventory.Dfir.Tokens

/-!
# The polling lease

A poll locks the oldest free rows that wait for Hermes and were not polled in the last five minutes,
stamps them, and commits.  From the query to the commit it holds their locks, so no other poll can
take them in between, and afterwards the stamp keeps the others away.

* `Oldest`: the rows a poll should select, and `oldest_selectLimit`, that its query does.
* `PollAnswer`, `polls`: the answered polls of a log.
* `Leasing`: a poll between its query and its commit; `LeaseProc`, `Leased`: the invariant of a
  session, and of the system.
* `lease_exclusive`: over all interleavings, with polls of any limit, no row is returned to two polls
  within five minutes, and each poll returns the oldest rows it could.
-/

namespace AssetInventory

open PyJson PyTime Orm DfirInvestigation RowStore Interleaving

/-! ## The property -/

def World.createdAtOf (w : World) (i : InvId) : ℤ := w.rows.sortKey createdAt i

/-- The row waits for Hermes, was not polled since `reclaimBefore`, and no other transaction has
locked it. -/
def World.leasable (w : World) (p : Pid) (reclaimBefore : Time) (i : InvId) : Prop :=
  w.keeps (leaseWhere reclaimBefore) i = true ∧ w.free p i = true

/-- **The `n` oldest leasable rows**, oldest first. -/
structure Oldest (w : World) (p : Pid) (reclaimBefore : Time) (n : ℕ) (ids : List InvId) : Prop where
  nodup : ids.Nodup
  leasable : ∀ i ∈ ids, w.leasable p reclaimBefore i
  /-- There are `n`, or all there are. -/
  full : ids.length = n ∨ (ids.length < n ∧ ∀ j, w.leasable p reclaimBefore j → j ∈ ids)
  sorted : ids.Pairwise fun i j => w.createdAtOf i ≤ w.createdAtOf j
  /-- A leasable row that is not among them is not older than one that is. -/
  oldest : ∀ i ∈ ids, ∀ j, w.leasable p reclaimBefore j → j ∉ ids →
    w.createdAtOf i ≤ w.createdAtOf j

/-- A poll that was answered: who polled, the limit, when it read the clock first and when it read it
for the stamp, and the rows. -/
structure PollAnswer where
  poller : Pid
  limit : ℕ
  start : Time
  stamp : Time
  ids : List InvId
  deriving DecidableEq

def Reply.poll? : Reply → Option PollAnswer
  | .polled p limit start stamp ids => some ⟨p, limit, start, stamp, ids⟩
  | _ => none

def Event.poll? : Event → Option PollAnswer
  | .replied reply => reply.poll?
  | _ => none

/-- The polls that were answered, newest first. -/
def polls (log : List Event) : List PollAnswer := log.filterMap Event.poll?

/-- Two polls that return no row in common, or the newer of which began more than five minutes after
the older one had stamped it. -/
def Apart (newer older : PollAnswer) : Prop :=
  ∀ i ∈ newer.ids, i ∈ older.ids → older.stamp + minutes 5 < newer.start

/-- **How an answer came about.**  The rows were the oldest in the state of the query, and wait for
Hermes in the state of the answer. -/
def Answered (cfg : Settings) (w₀ w : World) (a : PollAnswer) : Prop :=
  ∃ v u, Runs (step cfg) anyAction w₀ v ∧ Runs (step cfg) anyAction v u ∧
    Runs (step cfg) anyAction u w ∧ a.start ≤ v.clock ∧ v.clock ≤ a.stamp ∧ a.stamp ≤ u.clock ∧
    Oldest v a.poller (a.start - minutes 5) a.limit a.ids ∧
    ∀ i ∈ a.ids, ∃ r, u.rows.get i = some r ∧ r.status = .analyzing ∧
      r.externalOrchestrator = some .hermes ∧ r.externalPolledAt = some a.stamp

/-! ## What a poll selects -/

section Select

variable {w : World} {p : Pid}

/-- **`ORDER BY created_at LIMIT n` takes the oldest.** -/
theorem oldest_selectLimit {reclaimBefore : Time} {ord : List InvId} (hord : w.Ordered ord)
    (n : ℕ) : Oldest w p reclaimBefore n (w.selectLimit p (leaseWhere reclaimBefore) ord n) := by
  have hmem : ∀ j, w.leasable p reclaimBefore j → j ∈ ord := by
    rintro j ⟨hkeeps, -⟩
    obtain ⟨r, hr, -⟩ := World.keeps_iff.mp hkeeps
    exact hord.mem_of_get hr
  have htest : ∀ j, w.leasable p reclaimBefore j →
      (w.keeps (leaseWhere reclaimBefore) j && w.free p j) = true := by
    rintro j ⟨hkeeps, hfree⟩
    rw [hkeeps, hfree]
    rfl
  refine ⟨nodup_limit hord.nodup _ _, fun i hi => (World.of_mem_selectLimit hi).2, ?_,
    pairwise_limit hord.2 _ _, fun i hi j hj hnot => ?_⟩
  · have hlen := length_limit ord
      (fun i => w.keeps (leaseWhere reclaimBefore) i && w.free p i) n
    rw [List.countP_eq_length_filter] at hlen
    by_cases hn : n ≤ (ord.filter fun i =>
        w.keeps (leaseWhere reclaimBefore) i && w.free p i).length
    · exact Or.inl (hlen.trans (Nat.min_eq_left hn))
    · refine Or.inr ⟨?_, fun j hj => ?_⟩
      · rw [World.selectLimit, hlen]
        omega
      · rw [World.selectLimit, limit, List.take_of_length_le (by omega)]
        exact List.mem_filter.mpr ⟨hmem j hj, htest j hj⟩
  · exact rel_of_mem_limit hord.2 hi (hmem j hj) (htest j hj) hnot

end Select

/-! ## The invariant -/

/-- **A poll between its query, in the state `v`, and its commit.**  It has locked its rows, and its
copies of them are as the rows are: they wait for Hermes, and were not polled in the five minutes
before it began. -/
structure Leasing (cfg : Settings) (w₀ v w : World) (p : Pid) (start : Time) (n : ℕ)
    (ids : List InvId) : Prop where
  reached : Runs (step cfg) anyAction w₀ v
  since : Runs (step cfg) anyAction v w
  started : start ≤ v.clock
  oldest : Oldest v p (start - minutes 5) n ids
  locked : ∀ i ∈ ids, w.locks i = some p
  row : ∀ i ∈ ids, ∃ r, w.rows.get i = some r ∧ (w.procs p).objs i = some r ∧
    r.status = .analyzing ∧ r.externalOrchestrator = some .hermes ∧
    ∀ t, r.externalPolledAt = some t → t + minutes 5 < start

/-- The flush changes no stamp, and answers no poll. -/
def Flush.Plain (f : Flush) : Prop :=
  (∀ wr ∈ f.writes, wr.cur.externalPolledAt = wr.base.externalPolledAt) ∧
    f.reply.bind Reply.poll? = none

def leaseFlush (objs : InvId → Option DfirInvestigation) (a : PollAnswer) : Flush :=
  ⟨manyWrites objs a.ids fun _ => World.stampLease a.stamp, none,
    some (.polled a.poller a.limit a.start a.stamp a.ids)⟩

/-- A process that is in no poll. -/
structure Proc.Unleased (pr : Proc) : Prop where
  polling : ∀ start limit, pr.phase ≠ .polling start limit
  stamping : ∀ start n ids, pr.phase ≠ .stamping start n ids
  plain : ∀ f ∈ pr.todo, f.Plain

/-- **A session, as far as the lease goes**: it is in no poll, or somewhere in one. -/
inductive LeaseProc (cfg : Settings) (w₀ w : World) (p : Pid) : Prop where
  | unleased (h : (w.procs p).Unleased)
  | polling {start : Time} {limit : ℤ}
      (hproc : w.procs p = ⟨fun _ => none, [], .polling start limit⟩) (hstart : start ≤ w.clock)
  | stamping {v : World} {start : Time} {n : ℕ} {ids : List InvId}
      (hphase : (w.procs p).phase = .stamping start n ids) (htodo : (w.procs p).todo = [])
      (hleasing : Leasing cfg w₀ v w p start n ids)
  | answering {v : World} {a : PollAnswer} (hphase : (w.procs p).phase = .ended)
      (htodo : (w.procs p).todo = [leaseFlush (w.procs p).objs a]) (hpoller : a.poller = p)
      (hleasing : Leasing cfg w₀ v w p a.start a.limit a.ids) (hselected : v.clock ≤ a.stamp)
      (hstamp : a.stamp ≤ w.clock)

/-- **The system, as far as the lease goes.** -/
structure Leased (cfg : Settings) (w₀ w : World) : Prop where
  procs : ∀ p, LeaseProc cfg w₀ w p
  /-- The stamp of a poll is in its rows, unless a newer one is. -/
  stamped : ∀ a ∈ polls w.log, ∀ i ∈ a.ids,
    ∃ r t, w.rows.get i = some r ∧ r.externalPolledAt = some t ∧ a.stamp ≤ t
  apart : (polls w.log).Pairwise Apart
  answered : ∀ a ∈ polls w.log, Answered cfg w₀ w a

/-! ## What the moves leave -/

section Moves

variable {cfg : Settings} {w₀ w w' : World} {p : Pid} {objs : InvId → Option DfirInvestigation}

theorem unleased_of_nil {phase : Phase} (hpolling : ∀ start limit, phase ≠ .polling start limit)
    (hstamping : ∀ start n ids, phase ≠ .stamping start n ids) :
    (⟨objs, [], phase⟩ : Proc).Unleased :=
  ⟨hpolling, hstamping, fun _ hf => absurd hf List.not_mem_nil⟩

theorem plain_rowFlushes {i : InvId} {tokens : Option TokenWrite}
    {l : List (DfirInvestigation × DfirInvestigation)}
    (h : ∀ q ∈ l, q.2.externalPolledAt = q.1.externalPolledAt) :
    ∀ f ∈ rowFlushes i tokens l, f.Plain := by
  intro f hf
  obtain ⟨q, hq, hwrites, hreply⟩ := mem_rowFlushes hf
  refine ⟨fun wr hwr => ?_, by rw [hreply]; rfl⟩
  rw [hwrites, List.mem_singleton] at hwr
  subst hwr
  exact h q hq

theorem plain_one {i : InvId} {inv c : DfirInvestigation} {tokens : Option TokenWrite}
    {reply : Option Reply} (h : c.externalPolledAt = inv.externalPolledAt)
    (hreply : reply.bind Reply.poll? = none) :
    ∀ f ∈ [(⟨[⟨i, inv, c⟩], tokens, reply⟩ : Flush)], f.Plain := by
  intro f hf
  rw [List.mem_singleton.mp hf]
  refine ⟨fun wr hwr => ?_, hreply⟩
  rw [List.mem_singleton.mp hwr]
  exact h

/-- **The moves of a poll**, among all moves: every other move leaves a process in no poll. -/
theorem unleased_or_poll {a : Move} {e : Effect} (hc : ProcOk w.rows (w.procs p))
    (h : World.MoveCase cfg w p a e) : e.proc.Unleased ∨ (∃ limit, (w.procs p).phase = .idle ∧
        e = ⟨⟨(w.procs p).objs, [], .polling w.clock limit⟩, [], []⟩) ∨
      (∃ start limit ord, (w.procs p).phase = .polling start limit ∧ w.Ordered ord ∧
        e = ⟨⟨w.loaded (w.procs p).objs
              (w.selectLimit p (leaseWhere (start - minutes 5)) ord limit.toNat), [],
            .stamping start limit.toNat
              (w.selectLimit p (leaseWhere (start - minutes 5)) ord limit.toNat)⟩,
          w.selectLimit p (leaseWhere (start - minutes 5)) ord limit.toNat, []⟩) ∨
      ∃ start n ids, (w.procs p).phase = .stamping start n ids ∧ e = w.pollStamp p start n ids := by
  cases h with
  | reconcile env hphase hobj =>
    refine Or.inl ⟨?_, ?_, plain_rowFlushes fun q hq => ?_⟩
    · split <;> simp
    · split <;> simp
    · obtain ⟨hbase, hwrite⟩ := reconcileWrite_of_mem hq
      rw [hwrite.polled, hbase]
  | count =>
    unfold World.countSlots
    dsimp only
    split
    · exact Or.inl (unleased_of_nil (by simp) (by simp))
    · exact Or.inl (unleased_of_nil (by simp) (by simp))
  | claim hphase hord =>
    refine Or.inl ⟨by simp, by simp, fun f hf => ?_⟩
    rw [List.mem_singleton.mp hf]
    refine ⟨fun wr hwr => ?_, rfl⟩
    rw [(mem_manyWrites hwr).2.2]
    rfl
  | prepareFailed => exact Or.inl ⟨by simp, by simp, plain_one rfl rfl⟩
  | prepared => exact Or.inl ⟨by simp, by simp, plain_one rfl rfl⟩
  | outcome env hphase hobj =>
    refine Or.inl ⟨by simp, by simp, plain_rowFlushes fun q hq => ?_⟩
    obtain ⟨hbase, hwrite⟩ := outcomeWrite_of_mem hq
    rw [hwrite.polled, hbase]
  | @process i queue inv env hphase hobj =>
    have hhermes := hc.working _ hphase i List.mem_cons_self inv hobj
    have hok := localBoundary_ok env.later
      (processOne_local cfg i w.clock env (by rw [hhermes]; simp))
    exact Or.inl ⟨by simp, by simp, plain_rowFlushes fun q hq => (hok.all q hq).polled⟩
  | callback hphase hfree hrow hok =>
    refine Or.inl ⟨by simp, by simp, plain_one ?_ rfl⟩
    obtain ⟨-, -, ⟨-, rfl, -⟩ | ⟨-, rfl, -⟩⟩ := submitExternalResult_cases hok
    · rfl
    · exact polled_record _ _ _
  | status hphase hfree hrow hok =>
    refine Or.inl ⟨by simp, by simp, plain_one ?_ rfl⟩
    rw [(updateInvestigationStatus_cases hok).1]
    rfl
  | stop hphase hrow hok =>
    refine Or.inl ⟨by simp, by simp, plain_one ?_ rfl⟩
    rw [(stopInvestigation_cases hok).2]
  | @poll limit hphase =>
    unfold World.poll
    split
    · exact Or.inl (unleased_of_nil (by simp) (by simp))
    · exact Or.inr (Or.inl ⟨limit, hphase, rfl⟩)
  | @pollSelect start limit ord ids hphase hord hids =>
    subst hids
    exact Or.inr (Or.inr (Or.inl ⟨start, limit, ord, hphase, hord, rfl⟩))
  | @pollStamp start n ids hphase => exact Or.inr (Or.inr (Or.inr ⟨start, n, ids, hphase, rfl⟩))
  | chat =>
    unfold World.chat
    split
    · exact Or.inl (unleased_of_nil (by simp) (by simp))
    · exact Or.inl (unleased_of_nil (by simp) (by simp))
  | chatReply =>
    unfold World.chatReply
    refine Or.inl ⟨by simp, by simp, fun f hf => ?_⟩
    rw [List.mem_singleton.mp hf]
    exact ⟨fun wr hwr => absurd hwr List.not_mem_nil, rfl⟩
  | _ => exact Or.inl (unleased_of_nil (by simp) (by simp))

variable {a : PollAnswer}

theorem ids_of_mem_polls_said {m : Move} {e : Effect} (h : World.MoveCase cfg w p m e)
    (ha : a ∈ polls e.said) :
    ∃ start limit ord, (w.procs p).phase = .polling start limit ∧ w.Ordered ord ∧
      w.selectLimit p (leaseWhere (start - minutes 5)) ord limit.toNat = [] ∧
      a = ⟨p, limit.toNat, start, w.clock, []⟩ := by
  cases h with
  | @pollEmpty start limit ord hphase hord hids =>
    exact ⟨start, limit, ord, hphase, hord, hids, List.mem_singleton.mp ha⟩
  | chat =>
    unfold World.chat at ha
    split at ha
    · exact absurd ha List.not_mem_nil
    · exact absurd ha List.not_mem_nil
  | _ => exact absurd ha List.not_mem_nil

end Moves

/-! ## Steps -/

section Steps

variable {cfg : Settings} {w₀ v w w' : World} {p : Pid}

theorem clock_le_of_step {a : Action} (h : step cfg w a = some w') : w.clock ≤ w'.clock := by
  cases step_cases h with
  | advance d => exact Int.le_add_of_nonneg_right (Int.natCast_nonneg d)
  | _ => exact le_refl _

theorem clock_le_of_runs {G : World → Action → Prop} (h : Runs (step cfg) G w w') :
    w.clock ≤ w'.clock :=
  h.invariant (I := fun u => w.clock ≤ u.clock)
    (fun _ _ _ hu _ hstep => hu.trans (clock_le_of_step hstep)) (le_refl _)

theorem Answered.trans {a : PollAnswer} (h : Answered cfg w₀ w a)
    (hrun : Runs (step cfg) anyAction w w') : Answered cfg w₀ w' a := by
  obtain ⟨v, u, hv, hu, huw, hrest⟩ := h
  exact ⟨v, u, hv, hu, huw.trans hrun, hrest⟩

/-- A poll goes on over a step that leaves its rows, its locks and its session alone. -/
theorem Leasing.mono {start : Time} {n : ℕ} {ids : List InvId}
    (h : Leasing cfg w₀ v w p start n ids) (hrun : Runs (step cfg) anyAction w w')
    (hlocks : ∀ i, w.locks i = some p → w'.locks i = some p)
    (hrows : ∀ i r, w.locks i = some p → w.rows.get i = some r → w'.rows.get i = some r)
    (hobjs : (w'.procs p).objs = (w.procs p).objs) : Leasing cfg w₀ v w' p start n ids where
  reached := h.reached
  since := h.since.trans hrun
  started := h.started
  oldest := h.oldest
  locked i hi := hlocks i (h.locked i hi)
  row i hi := by
    obtain ⟨r, hr, hobj, hrest⟩ := h.row i hi
    rw [hobjs]
    exact ⟨r, hrows i r (h.locked i hi) hr, hobj, hrest⟩

/-- What the other processes do to a session that is in a poll, or in none. -/
theorem LeaseProc.mono (h : LeaseProc cfg w₀ w p) (hrun : Runs (step cfg) anyAction w w')
    (hlocks : ∀ i, w.locks i = some p → w'.locks i = some p)
    (hrows : ∀ i r, w.locks i = some p → w.rows.get i = some r → w'.rows.get i = some r)
    (hproc : w'.procs p = w.procs p) : LeaseProc cfg w₀ w' p := by
  have hclock : w.clock ≤ w'.clock := clock_le_of_runs hrun
  have hobjs : (w'.procs p).objs = (w.procs p).objs := by rw [hproc]
  cases h with
  | unleased h => exact .unleased (by rwa [hproc])
  | polling hpoll hstart => exact .polling (hproc.trans hpoll) (hstart.trans hclock)
  | stamping hphase htodo hleasing =>
    refine .stamping (by rwa [hproc]) (by rwa [hproc]) (hleasing.mono hrun hlocks hrows hobjs)
  | answering hphase htodo hpoller hleasing hselected hstamp =>
    exact .answering (by rwa [hproc]) (by rwa [hproc]) hpoller
      (hleasing.mono hrun hlocks hrows hobjs) hselected (hstamp.trans hclock)

theorem LeaseProc.of_polling (h : LeaseProc cfg w₀ w p) {start : Time} {limit : ℤ}
    (hphase : (w.procs p).phase = .polling start limit) :
    w.procs p = ⟨fun _ => none, [], .polling start limit⟩ ∧ start ≤ w.clock := by
  cases h with
  | unleased h => exact absurd hphase (h.polling start limit)
  | polling hpoll hstart =>
    rw [hpoll] at hphase
    obtain ⟨rfl, rfl⟩ := Phase.polling.inj hphase
    exact ⟨hpoll, hstart⟩
  | stamping h => cases hphase.symm.trans h
  | answering h => cases hphase.symm.trans h

theorem LeaseProc.of_stamping (h : LeaseProc cfg w₀ w p) {start : Time} {n : ℕ} {ids : List InvId}
    (hphase : (w.procs p).phase = .stamping start n ids) :
    ∃ v, Leasing cfg w₀ v w p start n ids := by
  cases h with
  | unleased h => exact absurd hphase (h.stamping start n ids)
  | polling hpoll =>
    rw [hpoll] at hphase
    cases hphase
  | @stamping v _ _ _ h _ hleasing =>
    obtain ⟨rfl, rfl, rfl⟩ := Phase.stamping.inj (h.symm.trans hphase)
    exact ⟨v, hleasing⟩
  | answering h => cases hphase.symm.trans h

/-- **The moves of the lease.** -/
theorem leaseProc_of_move {m : Move} {e : Effect} (hreach : Runs (step cfg) anyAction w₀ w)
    (hc : ProcOk w.rows (w.procs p)) (hI : LeaseProc cfg w₀ w p)
    (hmove : World.MoveCase cfg w p m e)
    (hrun : Runs (step cfg) anyAction w (w.moved p e)) : LeaseProc cfg w₀ (w.moved p e) p := by
  have hproc : (w.moved p e).procs p = e.proc := World.procs_moved_self w p e
  rcases unleased_or_poll hc hmove with hun | ⟨limit, hphase, rfl⟩ |
      ⟨start, limit, ord, hphase, hord, rfl⟩ | ⟨start, n, ids, hphase, rfl⟩
  · exact .unleased (by rwa [hproc])
  · -- the poll reads the clock
    have hobjs : (w.procs p).objs = fun _ => none := funext (hc.idle hphase)
    exact .polling (hproc.trans (congrArg (Proc.mk · [] (.polling w.clock limit)) hobjs))
      (le_refl _)
  · -- the poll selects: its session was empty, so its copies are the stored rows
    obtain ⟨hpoll, hstart⟩ := hI.of_polling hphase
    refine .stamping (v := w) (by rw [hproc]) (by rw [hproc])
      ⟨hreach, hrun, hstart, oldest_selectLimit hord _, fun i hi => if_pos hi, fun i hi => ?_⟩
    obtain ⟨r, hr, hkeeps⟩ := World.keeps_iff.mp (World.of_mem_selectLimit hi).2.1
    obtain ⟨⟨hstatus, horch⟩, hpolled⟩ := (holds_leaseWhere _ r).mp hkeeps
    refine ⟨r, hr, ?_, hstatus, horch, fun t ht => lt_sub_iff_add_lt.mp (hpolled t ht)⟩
    rw [hproc, hpoll]
    exact (World.loaded_of_empty (fun _ => rfl) hi).trans hr
  · -- the poll stamps its copies
    obtain ⟨v, hleasing⟩ := hI.of_stamping hphase
    exact .answering (a := ⟨p, n, start, w.clock, ids⟩) (by rw [hproc]; rfl) (by rw [hproc]; rfl)
      rfl
      (hleasing.mono hrun (fun _ hi => World.locks_moved hmove hi) (fun _ _ _ hr => hr)
        (by rw [hproc]; rfl))
      (clock_le_of_runs hleasing.since) (le_refl _)

theorem polls_append (l l' : List Event) : polls (l ++ l') = polls l ++ polls l' :=
  List.filterMap_append ..

theorem polls_committed (w : World) (p : Pid) (f : Flush) (rest : List Flush) :
    polls (w.committed p f rest).log = (f.reply.bind Reply.poll?).toList ++ polls w.log := by
  have hcons : polls (.committed p f.writes f.tokens :: w.log) = polls w.log := rfl
  change polls (f.reply.toList.map Event.replied ++ .committed p f.writes f.tokens :: w.log) = _
  rw [polls_append, hcons]
  cases f.reply with
  | none => rfl
  | some reply => cases hpoll : reply.poll? <;> simp [polls, Event.poll?, hpoll]

theorem polled_writeBack {b c r : DfirInvestigation} (h : c.externalPolledAt = b.externalPolledAt) :
    (writeBack b c r).externalPolledAt = r.externalPolledAt := by
  change pick b.externalPolledAt c.externalPolledAt r.externalPolledAt = _
  rw [h, pick_same]

theorem polled_of_plain {f : Flush} (hplain : f.Plain) (hnodup : (f.writes.map Write.id).Nodup)
    {rows : Table InvId DfirInvestigation} {i : InvId} {r : DfirInvestigation}
    (hr : rows.get i = some r) : ∃ r', (rowsAfter rows f.writes).get i = some r' ∧
      r'.externalPolledAt = r.externalPolledAt := by
  obtain ⟨r', hr'⟩ := exists_get_rowsAfter f.writes hr
  rcases rowsAfter_cases hnodup hr' with ⟨wr, hwr, rfl, r₀, hr₀, rfl⟩ | ⟨-, hsame⟩
  · rw [hr] at hr₀
    obtain rfl := Option.some.inj hr₀
    exact ⟨_, hr', polled_writeBack (hplain.1 wr hwr)⟩
  · rw [hr] at hsame
    obtain rfl := Option.some.inj hsame
    exact ⟨r, hr', rfl⟩

theorem get_leaseFlush {a : PollAnswer} {v : World} (hids : a.ids.Nodup)
    (hleasing : Leasing cfg w₀ v w p a.start a.limit a.ids) {i : InvId} (hi : i ∈ a.ids)
    {r : DfirInvestigation} (hr : w.rows.get i = some r) :
    (rowsAfter w.rows (leaseFlush (w.procs p).objs a).writes).get i =
      some (World.stampLease a.stamp r) := by
  obtain ⟨r', hr', hobj, -⟩ := hleasing.row i hi
  rw [hr] at hr'
  obtain rfl := Option.some.inj hr'
  have hmem : (⟨i, r, World.stampLease a.stamp r⟩ : Write) ∈
      (leaseFlush (w.procs p).objs a).writes :=
    List.mem_filterMap.mpr ⟨i, hi, by rw [hobj]; rfl⟩
  refine (get_rowsAfter_of_mem (nodup_manyWrites hids) hmem).trans ?_
  rw [hr, Option.map_some, writeBack_base]

theorem get_leaseFlush_of_not_mem {a : PollAnswer} {objs : InvId → Option DfirInvestigation}
    {rows : Table InvId DfirInvestigation} {i : InvId} (hi : i ∉ a.ids) :
    (rowsAfter rows (leaseFlush objs a).writes).get i = rows.get i := by
  refine get_rowsAfter_of_not_mem fun wr hwr hid => ?_
  rw [← hid] at hi
  exact hi (mem_manyWrites hwr).1

variable {rest : List Flush}

theorem leaseProc_of_commit_other {f : Flush} {q : Pid} (hq : q ≠ p)
    (hI : LeaseProc cfg w₀ w q) (hfree : ∀ wr ∈ f.writes, w.free p wr.id = true)
    (hrun : Runs (step cfg) anyAction w (w.committed p f rest)) :
    LeaseProc cfg w₀ (w.committed p f rest) q :=
  hI.mono hrun (fun _ hlock => World.release_of_ne hlock hq)
    (fun _ _ hlock hr => (get_rowsAfter_of_locked hfree hq hlock).trans hr)
    (World.procs_committed_of_ne w f rest hq)

/-- **A commit** of a process in no poll answers none, and a poll has one commit. -/
theorem leaseProc_of_commit {f : Flush} (hI : LeaseProc cfg w₀ w p)
    (htodo : (w.procs p).todo = f :: rest) : LeaseProc cfg w₀ (w.committed p f rest) p ∧
      (f.Plain ∨ ∃ v a, f = leaseFlush (w.procs p).objs a ∧ a.poller = p ∧
        Leasing cfg w₀ v w p a.start a.limit a.ids ∧ v.clock ≤ a.stamp ∧ a.stamp ≤ w.clock) := by
  cases hI with
  | unleased h =>
    refine ⟨.unleased ?_, Or.inl (h.plain f (by rw [htodo]; exact List.mem_cons_self))⟩
    rw [World.procs_committed_self]
    exact ⟨h.polling, h.stamping, fun g hg =>
      h.plain g (by rw [htodo]; exact List.mem_cons_of_mem _ hg)⟩
  | polling hpoll =>
    rw [hpoll] at htodo
    cases htodo
  | stamping _ hnil =>
    rw [hnil] at htodo
    cases htodo
  | @answering v a hphase hone hpoller hleasing hselected hstamp =>
    rw [hone] at htodo
    obtain ⟨rfl, rfl⟩ := List.cons.inj htodo
    refine ⟨.unleased ?_, Or.inr ⟨v, a, rfl, hpoller, hleasing, hselected, hstamp⟩⟩
    rw [World.procs_committed_self, hphase]
    exact unleased_of_nil (by simp) (by simp)

/-- The stamps after the commit of a poll: its own rows have its stamp, which is newer than every
older one. -/
theorem stamped_of_leaseFlush {a : PollAnswer} {v : World} (hI : Leased cfg w₀ w)
    (hleasing : Leasing cfg w₀ v w p a.start a.limit a.ids) (hselected : v.clock ≤ a.stamp) :
    ∀ b ∈ a :: polls w.log, ∀ i ∈ b.ids, ∃ r t,
      (w.committed p (leaseFlush (w.procs p).objs a) rest).rows.get i = some r ∧
        r.externalPolledAt = some t ∧ b.stamp ≤ t := by
  intro b hb i hi
  change ∃ r t, (rowsAfter w.rows (leaseFlush (w.procs p).objs a).writes).get i = some r ∧ _
  by_cases hia : i ∈ a.ids
  · obtain ⟨r, hr, -, -, -, hpolled⟩ := hleasing.row i hia
    refine ⟨_, a.stamp, get_leaseFlush hleasing.oldest.nodup hleasing hia hr, rfl, ?_⟩
    rcases List.mem_cons.mp hb with rfl | hb
    · exact le_refl _
    · obtain ⟨r', t, hr', ht, hle⟩ := hI.stamped b hb i hi
      rw [hr] at hr'
      obtain rfl := Option.some.inj hr'
      have hlt : t + minutes 5 < a.start := hpolled t ht
      have hstart : a.start ≤ a.stamp := hleasing.started.trans hselected
      have hpos : (0 : ℤ) ≤ minutes 5 := by decide
      exact hle.trans (by linarith)
  · rcases List.mem_cons.mp hb with rfl | hb
    · exact absurd hi hia
    · rw [get_leaseFlush_of_not_mem hia]
      exact hI.stamped b hb i hi

/-- A poll is apart from every older one: the stamps it has found in its rows are those of the older
polls, or newer. -/
theorem apart_of_leasing {a : PollAnswer} {v : World} (hI : Leased cfg w₀ w)
    (hleasing : Leasing cfg w₀ v w p a.start a.limit a.ids) : ∀ b ∈ polls w.log, Apart a b := by
  intro b hb i hia hib
  obtain ⟨r, hr, -, -, -, hpolled⟩ := hleasing.row i hia
  obtain ⟨r', t, hr', ht, hle⟩ := hI.stamped b hb i hib
  rw [hr] at hr'
  obtain rfl := Option.some.inj hr'
  exact (Int.add_le_add_right hle _).trans_lt (hpolled t ht)

theorem answered_of_leaseFlush {a : PollAnswer} {v : World}
    (hleasing : Leasing cfg w₀ v w p a.start a.limit a.ids) (hpoller : a.poller = p)
    (hselected : v.clock ≤ a.stamp) (hstamp : a.stamp ≤ w.clock)
    (hrun : Runs (step cfg) anyAction w (w.committed p (leaseFlush (w.procs p).objs a) rest)) :
    Answered cfg w₀ (w.committed p (leaseFlush (w.procs p).objs a) rest) a := by
  refine ⟨v, _, hleasing.reached, hleasing.since.trans hrun, Runs.refl _, hleasing.started,
    hselected, hstamp, by rw [hpoller]; exact hleasing.oldest, fun i hi => ?_⟩
  obtain ⟨r, hr, -, hstatus, horch, -⟩ := hleasing.row i hi
  exact ⟨_, get_leaseFlush hleasing.oldest.nodup hleasing hi hr, hstatus, horch, rfl⟩

theorem leased_of_commit {f : Flush} (hc : Coherent w) (hI : Leased cfg w₀ w)
    (htodo : (w.procs p).todo = f :: rest) (hfree : ∀ wr ∈ f.writes, w.free p wr.id = true)
    (hrun : Runs (step cfg) anyAction w (w.committed p f rest)) :
    Leased cfg w₀ (w.committed p f rest) := by
  obtain ⟨hself, hflush⟩ := leaseProc_of_commit (hI.procs p) htodo
  have hprocs : ∀ q, LeaseProc cfg w₀ (w.committed p f rest) q := by
    intro q
    by_cases hq : q = p
    · rw [hq]
      exact hself
    · exact leaseProc_of_commit_other hq (hI.procs q) hfree hrun
  have hold : ∀ b ∈ polls w.log, Answered cfg w₀ (w.committed p f rest) b := fun b hb =>
    (hI.answered b hb).trans hrun
  rcases hflush with hplain | ⟨v, a, rfl, hpoller, hleasing, hselected, hstamp⟩
  · have hlog : polls (w.committed p f rest).log = polls w.log := by
      rw [polls_committed, hplain.2]
      rfl
    refine ⟨hprocs, ?_, by rw [hlog]; exact hI.apart, by rw [hlog]; exact hold⟩
    rw [hlog]
    intro b hb i hi
    obtain ⟨r, t, hr, ht, hle⟩ := hI.stamped b hb i hi
    have hnodup := (hc p).nodup f (by rw [htodo]; exact List.mem_cons_self)
    obtain ⟨r', hr', hpolled⟩ := polled_of_plain hplain hnodup hr
    exact ⟨r', t, hr', hpolled.trans ht, hle⟩
  · have hlog : polls (w.committed p (leaseFlush (w.procs p).objs a) rest).log =
        a :: polls w.log := polls_committed w p _ rest
    refine ⟨hprocs, ?_, ?_, ?_⟩
    · rw [hlog]
      exact stamped_of_leaseFlush hI hleasing hselected
    · rw [hlog]
      exact List.pairwise_cons.mpr ⟨apart_of_leasing hI hleasing, hI.apart⟩
    · rw [hlog]
      intro b hb
      rcases List.mem_cons.mp hb with rfl | hb
      · exact answered_of_leaseFlush hleasing hpoller hselected hstamp hrun
      · exact hold b hb

theorem leased_of_move {m : Move} {e : Effect} (hreach : Runs (step cfg) anyAction w₀ w)
    (hc : Coherent w) (hI : Leased cfg w₀ w) (hmove : World.MoveCase cfg w p m e)
    (hrun : Runs (step cfg) anyAction w (w.moved p e)) : Leased cfg w₀ (w.moved p e) := by
  have hlog : polls (w.moved p e).log = polls e.said ++ polls w.log := polls_append _ _
  have hempty : ∀ b ∈ polls e.said, b.ids = [] := by
    intro b hb
    obtain ⟨-, -, -, -, -, -, rfl⟩ := ids_of_mem_polls_said hmove hb
    rfl
  refine ⟨fun q => ?_, ?_, ?_, ?_⟩
  · by_cases hq : q = p
    · rw [hq]
      exact leaseProc_of_move hreach (hc p) (hI.procs p) hmove hrun
    · exact (hI.procs q).mono hrun (fun _ hlock => World.locks_moved hmove hlock)
        (fun _ _ _ hr => hr) (World.procs_moved_of_ne w e hq)
  · rw [hlog]
    intro b hb i hi
    rcases List.mem_append.mp hb with hb | hb
    · rw [hempty b hb] at hi
      exact absurd hi List.not_mem_nil
    · exact hI.stamped b hb i hi
  · rw [hlog]
    refine List.pairwise_append.mpr ⟨List.pairwise_of_forall_mem_list fun b hb b' _ i hi => ?_,
      hI.apart, fun b hb b' _ i hi => ?_⟩
    · rw [hempty b hb] at hi
      exact absurd hi List.not_mem_nil
    · rw [hempty b hb] at hi
      exact absurd hi List.not_mem_nil
  · rw [hlog]
    intro b hb
    rcases List.mem_append.mp hb with hb | hb
    · obtain ⟨start, limit, ord, hphase, hord, hids, rfl⟩ := ids_of_mem_polls_said hmove hb
      have hstart : start ≤ w.clock := ((hI.procs p).of_polling hphase).2
      have hold : Oldest w p (start - minutes 5) limit.toNat _ := oldest_selectLimit hord _
      rw [hids] at hold
      exact ⟨w, _, hreach, hrun, Runs.refl _, hstart, le_refl _, le_refl _, hold,
        fun i hi => absurd hi List.not_mem_nil⟩
    · exact (hI.answered b hb).trans hrun

/-- **The lease is preserved** by every step. -/
theorem leased_step {a : Action} (hreach : Runs (step cfg) anyAction w₀ w) (hc : Coherent w)
    (hI : Leased cfg w₀ w) (h : step cfg w a = some w') : Leased cfg w₀ w' := by
  have hrun : Runs (step cfg) anyAction w w' := Runs.single a trivial h
  have hold : ∀ b ∈ polls w.log, Answered cfg w₀ w' b := fun b hb => (hI.answered b hb).trans hrun
  cases step_cases h with
  | advance d =>
    exact ⟨fun q => (hI.procs q).mono hrun (fun _ hl => hl) (fun _ _ _ hr => hr) rfl, hI.stamped,
      hI.apart, hold⟩
  | created hnew hfresh =>
    refine ⟨fun q => (hI.procs q).mono hrun (fun _ hl => hl)
      (fun _ _ _ hr => Table.get_insert_of_get hr) rfl, fun b hb i hi => ?_, hI.apart, hold⟩
    obtain ⟨r, t, hr, ht⟩ := hI.stamped b hb i hi
    exact ⟨r, t, Table.get_insert_of_get hr, ht⟩
  | refused => exact hI
  | move htodo hmove => exact leased_of_move hreach hc hI hmove hrun
  | commit htodo hfree => exact leased_of_commit hc hI htodo hfree hrun
  | close p =>
    refine ⟨fun q => ?_, hI.stamped, hI.apart, hold⟩
    by_cases hq : q = p
    · refine .unleased ?_
      rw [hq, World.procs_close_self]
      exact unleased_of_nil (by simp) (by simp)
    · exact (hI.procs q).mono hrun (fun _ hlock => World.release_of_ne hlock hq)
        (fun _ _ _ hr => hr) (World.procs_close_of_ne w hq)

theorem World.Quiet.leased (hquiet : w₀.Quiet) : Leased cfg w₀ w₀ := by
  have hlog : polls w₀.log = [] := by
    rw [hquiet.log]
    rfl
  refine ⟨fun p => .unleased ?_, ?_, ?_, ?_⟩
  · rw [hquiet.procs p]
    exact unleased_of_nil (by simp) (by simp)
  · rw [hlog]
    exact fun b hb => absurd hb List.not_mem_nil
  · rw [hlog]
    exact List.Pairwise.nil
  · rw [hlog]
    exact fun b hb => absurd hb List.not_mem_nil

/-- **The lease is exclusive.**  Over all interleavings of polls of any limits with each other and
with everything else, two polls that return one row are more than five minutes apart, and each poll
returns the oldest rows that wait for Hermes and are free. -/
theorem lease_exclusive (cfg : Settings) {w₀ w : World} (hquiet : w₀.Quiet)
    (hrun : Runs (step cfg) anyAction w₀ w) :
    (polls w.log).Pairwise Apart ∧ ∀ a ∈ polls w.log, Answered cfg w₀ w a := by
  have hleased : Leased cfg w₀ w := hrun.invariant_of_reach
    (fun v a v' hreach hI _ hstep =>
      leased_step hreach (coherent_of_runs hquiet.coherent hreach) hI hstep) hquiet.leased
  exact ⟨hleased.apart, hleased.answered⟩

end Steps

/-! ## Three polls -/

/-- The system with one investigation that waits for Hermes. -/
def waitingWorld : World :=
  World.start 0
    (Table.empty.insert "1" { dispatchedRow with externalOrchestrator := some .hermes }) 0

/-- A poll from its query to its answer. -/
def answerPoll (p : Pid) : List Action := [.move p (.pollSelect ["1"]), .move p .pollStamp, .commit p]

/-- Of two polls that overlap, the second returns nothing; a third, six minutes later, returns the
row again. -/
theorem lease_exclusive_of_three : ∃ w, Runs (step (sampleSettings 12)) anyAction waitingWorld w ∧
      (polls w.log).map (fun a => (a.stamp, a.ids)) = [(minutes 6, ["1"]), (0, ["1"]), (0, [])] ∧
      (polls w.log).Pairwise Apart ∧
      ∀ a ∈ polls w.log, Answered (sampleSettings 12) waitingWorld w a := by
  obtain ⟨w, hrun, hw⟩ := exists_runs_of_exec (G := anyAction) (step (sampleSettings 12))
    waitingWorld
    ([.move 0 (.poll 10), .move 1 (.poll 10), .move 0 (.pollSelect ["1"]),
        .move 1 (.pollSelect ["1"]), .move 0 .pollStamp, .commit 0, .advance (minutes 6).toNat,
        .move 2 (.poll 10)] ++ answerPoll 2)
    (p := fun w => decide ((polls w.log).map (fun a => (a.stamp, a.ids)) =
      [(minutes 6, ["1"]), (0, ["1"]), (0, [])])) (by decide +kernel)
  exact ⟨w, hrun, of_decide_eq_true hw,
    lease_exclusive (sampleSettings 12) (World.quiet_start _ _ _) hrun⟩

end AssetInventory
