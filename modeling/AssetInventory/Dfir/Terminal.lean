import AssetInventory.Dfir.Coherence

/-!
# Terminal statuses

An investigation that is `completed` or `failed` should stay so.  Each function respects that for the
copy it works on; what breaks it is a commit from a *stale* copy.  The row locks of a tick's first
query end with the first commit of its loop, so a later row of the same loop can be finished by a
callback or a stop request before the tick writes it.

* `UpToDate`: the condition on a commit.  Each row it writes is still locked since it was loaded, or
  has not ended in the meantime with another status than the copy's.
* `Settled`: the invariant of a session in a run whose commits are up to date.
* `terminal_absorbing`: in such a run, an ended row keeps its status.
* `terminal_overwritten`: without the condition, a failed row is dispatched again.
-/

namespace AssetInventory

open PyJson PyTime Orm DfirInvestigation RowStore Interleaving

/-- **The condition on a commit.**  Every row it writes is locked by the process since it was
loaded, or, if the row has ended, the copy that is written back had seen it end. -/
def UpToDate (w : World) : Action → Prop
  | .commit p => ∀ f ∈ (w.procs p).todo.head?, ∀ wr ∈ f.writes,
      w.locks wr.id = some p ∨
        ∀ r ∈ w.rows.get wr.id, r.status.isTerminal = true → wr.base.status = r.status
  | _ => True

instance (w : World) : (a : Action) → Decidable (UpToDate w a)
  | .commit _ => by dsimp only [UpToDate]; infer_instance
  | .advance _ | .create .. | .move .. | .close _ => isTrue trivial

/-- **A settled session.**  What its process writes ends no ended row anew. -/
structure Settled (rows : Table InvId DfirInvestigation) (locks : InvId → Option Pid) (p : Pid)
    (pr : Proc) : Prop where
  /-- A row that ended before it was locked was seen to have ended. -/
  lock : ∀ i r o, locks i = some p → rows.get i = some r → r.status.isTerminal = true →
    pr.objs i = some o → o.status = r.status
  /-- An ended copy is a copy of an ended row. -/
  copy : ∀ i o, pr.objs i = some o → o.status.isTerminal = true →
    ∃ r, rows.get i = some r ∧ r.status = o.status
  /-- No flush changes the status of an ended copy. -/
  flush : ∀ f ∈ pr.todo, ∀ wr ∈ f.writes, wr.base.status.isTerminal = true →
    wr.cur.status = wr.base.status
  /-- The rows of the loop have not ended, as far as the session knows. -/
  queue : ∀ i ∈ pr.phase.queue, ∀ o, pr.objs i = some o → o.status.isTerminal = false
  /-- Nor will they by a flush that is still to come. -/
  write : ∀ f ∈ pr.todo, ∀ wr ∈ f.writes, wr.id ∈ pr.phase.queue →
    wr.cur.status.isTerminal = false

/-- Every session is settled. -/
def AllSettled (w : World) : Prop := ∀ p, Settled w.rows w.locks p (w.procs p)

theorem settled_empty (rows : Table InvId DfirInvestigation) (locks : InvId → Option Pid) (p : Pid)
    (phase : Phase) : Settled rows locks p ⟨fun _ => none, [], phase⟩ where
  lock _ _ _ _ _ _ ho := by cases ho
  copy _ _ ho := by cases ho
  flush _ hf := absurd hf List.not_mem_nil
  queue _ _ _ ho := by cases ho
  write _ hf := absurd hf List.not_mem_nil

theorem World.Quiet.allSettled {w : World} (h : w.Quiet) : AllSettled w := fun p => by
  rw [h.procs p]
  exact settled_empty _ _ p _

/-! ## Moves -/

section Moves

variable {cfg : Settings} {w : World} {p : Pid} {i : InvId} {pr : Proc}

/-- The copy of a row that a query takes because it has not ended has not ended either: an ended copy
would be a copy of an ended row. -/
theorem active_of_loaded {locks : InvId → Option Pid} {ids : List InvId}
    (hs : Settled w.rows locks p pr)
    (hids : ∀ i ∈ ids, ∀ r, w.rows.get i = some r → r.status.isTerminal = false)
    {o : DfirInvestigation} (hi : i ∈ ids) (ho : w.loaded pr.objs ids i = some o) :
    o.status.isTerminal = false := by
  cases hterm : o.status.isTerminal with
  | false => rfl
  | true =>
    have hcopy : ∃ r, w.rows.get i = some r ∧ r.status = o.status := by
      rcases World.loaded_cases ho with ho | ⟨-, -, hr⟩
      · exact hs.copy i o ho hterm
      · exact ⟨o, hr, rfl⟩
    obtain ⟨r, hr, hro⟩ := hcopy
    rw [← hro, hids i hi r hr] at hterm
    cases hterm

variable {todo rest : List Flush}

theorem settled_loaded {locks : InvId → Option Pid} {ids : List InvId}
    (hs : Settled w.rows locks p pr)
    (hids : ∀ i ∈ ids, ∀ r, w.rows.get i = some r → r.status.isTerminal = false) {phase : Phase}
    (hflush : ∀ f ∈ todo, ∀ wr ∈ f.writes, wr.base.status.isTerminal = true →
      wr.cur.status = wr.base.status) (hqueue : ∀ i ∈ phase.queue, i ∈ ids)
    (hwrite : ∀ f ∈ todo, ∀ wr ∈ f.writes, wr.id ∈ phase.queue → wr.cur.status.isTerminal = false) :
    Settled w.rows (fun i => if i ∈ ids then some p else locks i) p
      ⟨w.loaded pr.objs ids, todo, phase⟩ where
  lock i r o hlock hr hterm ho := by
    by_cases hi : i ∈ ids
    · rw [hids i hi r hr] at hterm
      cases hterm
    · rw [if_neg hi] at hlock
      rcases World.loaded_cases ho with ho | ⟨-, hmem, -⟩
      · exact hs.lock i r o hlock hr hterm ho
      · exact absurd hmem hi
  copy i o ho hterm := by
    rcases World.loaded_cases ho with ho | ⟨-, -, hr⟩
    · exact hs.copy i o ho hterm
    · exact ⟨o, hr, rfl⟩
  flush := hflush
  queue i hi _ ho := active_of_loaded hs hids (hqueue i hi) ho
  write := hwrite

theorem settled_same (hs : Settled w.rows w.locks p pr) {phase : Phase}
    (hflush : ∀ f ∈ todo, ∀ wr ∈ f.writes, wr.base.status.isTerminal = true →
      wr.cur.status = wr.base.status) (hqueue : ∀ i ∈ phase.queue, i ∈ pr.phase.queue)
    (hwrite : ∀ f ∈ todo, ∀ wr ∈ f.writes, wr.id ∈ phase.queue → wr.cur.status.isTerminal = false) :
    Settled w.rows (fun i => if i ∈ ([] : List InvId) then some p else w.locks i) p
      ⟨pr.objs, todo, phase⟩ where
  lock i r o hlock := by
    rw [if_neg List.not_mem_nil] at hlock
    exact hs.lock i r o hlock
  copy := hs.copy
  flush := hflush
  queue i hi := hs.queue i (hqueue i hi)
  write := hwrite

variable {inv r : DfirInvestigation} {tokens : Option TokenWrite}

theorem settled_request (locked : List InvId) {c : DfirInvestigation} {reply : Option Reply}
    {objs : InvId → Option DfirInvestigation}
    (hobjs : ∀ j, objs j = none) (hstatus : inv.status.isTerminal = true → c.status = inv.status) :
    Settled w.rows (fun j => if j ∈ locked then some p else w.locks j) p
      ⟨w.loaded objs [i], [⟨[⟨i, inv, c⟩], tokens, reply⟩], .ended⟩ where
  lock j r o _ hr _ ho := by
    rcases World.loaded_cases ho with ho | ⟨-, -, hr'⟩
    · rw [hobjs j] at ho
      cases ho
    · rw [hr] at hr'
      rw [Option.some.inj hr']
  copy j o ho _ := by
    rcases World.loaded_cases ho with ho | ⟨-, -, hr'⟩
    · rw [hobjs j] at ho
      cases ho
    · exact ⟨o, hr', rfl⟩
  flush f hf wr hwr hterm := by
    rw [List.mem_singleton.mp hf, List.mem_singleton] at hwr
    subst hwr
    exact hstatus hterm
  queue j hj := absurd hj List.not_mem_nil
  write f hf wr hwr hj := absurd hj List.not_mem_nil

variable {l : List (DfirInvestigation × DfirInvestigation)}

theorem flush_of_active (hinv : inv.status.isTerminal = false) (hbase : ∀ q ∈ l, q.1 = inv) :
    ∀ f ∈ rowFlushes i tokens l, ∀ wr ∈ f.writes, wr.base.status.isTerminal = true →
      wr.cur.status = wr.base.status := by
  intro f hf wr hwr hterm
  obtain ⟨q, hq, hf, -⟩ := mem_rowFlushes hf
  rw [hf, List.mem_singleton] at hwr
  subst hwr
  rw [hbase q hq, hinv] at hterm
  cases hterm

theorem write_of_handled {queue : List InvId} {phase : Phase}
    (hnot : i ∉ queue) (hqueue : ∀ j ∈ phase.queue, j ∈ queue) :
    ∀ f ∈ rowFlushes i tokens l, ∀ wr ∈ f.writes, wr.id ∈ phase.queue →
      wr.cur.status.isTerminal = false := by
  intro f hf wr hwr hmem
  obtain ⟨q, -, hf, -⟩ := mem_rowFlushes hf
  rw [hf, List.mem_singleton] at hwr
  subst hwr
  exact absurd (hqueue _ hmem) hnot

theorem active_of_keeps {q : DfirInvestigation → Sql.Truth}
    (hq : ∀ r, Sql.holds (q r) = true → r.status.isTerminal = false)
    (hi : w.keeps q i = true) : ∀ r, w.rows.get i = some r → r.status.isTerminal = false := by
  intro r hr
  obtain ⟨r', hr', hholds⟩ := World.keeps_iff.mp hi
  rw [hr] at hr'
  rw [Option.some.inj hr']
  exact hq r' hholds

theorem settled_of_move {a : Move} {e : Effect} (hc : ProcOk w.rows (w.procs p))
    (hs : Settled w.rows w.locks p (w.procs p)) (h : World.MoveCase cfg w p a e) :
    Settled w.rows (fun i => if i ∈ e.locked then some p else w.locks i) p e.proc := by
  -- the first row of a loop has not ended, as far as the session knows, and does not come again
  have hhead : ∀ {phase : Phase} {i : InvId} {queue : List InvId} {inv : DfirInvestigation},
      (w.procs p).phase = phase → phase.queue = i :: queue → (w.procs p).objs i = some inv →
      inv.status.isTerminal = false ∧ i ∉ queue ∧
        ∀ j ∈ queue, j ∈ (w.procs p).phase.queue := by
    intro phase i queue inv hphase hq hobj
    have hnodup := hc.queue
    rw [hphase, hq] at hnodup
    refine ⟨hs.queue i ?_ inv hobj, (List.nodup_cons.mp hnodup).1, fun j hj => ?_⟩
    · rw [hphase, hq]; exact List.mem_cons_self
    · rw [hphase, hq]; exact List.mem_cons_of_mem _ hj
  have hnone : ∀ f ∈ ([] : List Flush), ∀ wr ∈ f.writes,
      wr.base.status.isTerminal = true → wr.cur.status = wr.base.status :=
    fun f hf => absurd hf List.not_mem_nil
  have hnone' : ∀ (phase : Phase), ∀ f ∈ ([] : List Flush), ∀ wr ∈ f.writes,
      wr.id ∈ phase.queue → wr.cur.status.isTerminal = false :=
    fun _ f hf => absurd hf List.not_mem_nil
  have hdone : ∀ {phase : Phase}, phase.queue = [] →
      Settled w.rows (fun i => if i ∈ ([] : List InvId) then some p else w.locks i) p
        ⟨(w.procs p).objs, [], phase⟩ := fun {phase} hphase =>
    settled_same hs hnone (fun i hi => by rw [hphase] at hi; exact absurd hi List.not_mem_nil)
      (hnone' phase)
  cases h with
  | tickStart hphase hord =>
    refine settled_loaded hs (fun i hi => active_of_keeps (fun r hr => ?_)
      (World.mem_select.mp hi).2.1) hnone (fun i hi => hi) (hnone' _)
    rw [((holds_reconcileWhere r).mp hr).2]; rfl
  | @reconcile i queue inv env hphase hobj =>
    obtain ⟨hinv, hnot, hsub⟩ := hhead hphase rfl hobj
    have hbase : ∀ q ∈ (stateCheckDeepagentJob cfg w.clock env inv).session.flushed, q.1 = inv :=
      fun q hq => (reconcileWrite_of_mem hq).1
    refine settled_same hs (flush_of_active hinv hbase) (fun j hj => ?_)
      (write_of_handled hnot fun j hj => ?_)
    · split at hj
      · exact absurd hj List.not_mem_nil
      · exact hsub j hj
    · split at hj
      · exact absurd hj List.not_mem_nil
      · exact hj
  | count hphase =>
    unfold World.countSlots
    dsimp only
    split
    · exact hdone rfl
    · exact hdone rfl
  | claim hphase hord =>
    rename_i available ord
    have hids : ∀ i ∈ w.selectLimit p claimWhere ord available, ∀ r, w.rows.get i = some r →
        r.status.isTerminal = false := fun i hi => active_of_keeps
      (fun r hr => by rw [((holds_claimWhere r).mp hr).2]; rfl) (World.of_mem_selectLimit hi).2.1
    refine settled_loaded hs hids (fun f hf wr hwr _ => ?_) (fun i hi => hi)
      (fun f hf wr hwr hmem => ?_)
    · rw [List.mem_singleton.mp hf] at hwr
      rw [(mem_manyWrites hwr).2.2]
      rfl
    · rw [List.mem_singleton.mp hf] at hwr
      obtain ⟨hi, hbase, hcur⟩ := mem_manyWrites hwr
      rw [hcur]
      exact (active_of_loaded hs hids hi hbase :)
  | @prepareFailed i queue inv env exc later hphase hobj =>
    obtain ⟨hinv, hnot, hsub⟩ := hhead hphase rfl hobj
    exact settled_same hs (flush_of_active (l := [(inv, _)]) hinv (by simp)) hsub
      (write_of_handled (l := [(inv, _)]) hnot fun j hj => hj)
  | @prepared i queue inv env later hphase hobj =>
    obtain ⟨hinv, hnot, hsub⟩ := hhead hphase rfl hobj
    refine settled_same hs (flush_of_active (l := [(inv, _)]) hinv (by simp)) (fun j hj => ?_)
      (fun f hf wr hwr _ => ?_)
    · rw [hphase]
      exact hj
    · rw [List.mem_singleton.mp hf, List.mem_singleton] at hwr
      rw [hwr]
      rfl
  | send hphase =>
    refine settled_same hs hnone (fun j hj => ?_) (hnone' _)
    rw [hphase]
    exact hj
  | @outcome i queue inv env later hphase hobj =>
    obtain ⟨hinv, hnot, hsub⟩ := hhead hphase rfl hobj
    exact settled_same hs (flush_of_active hinv fun q hq => (outcomeWrite_of_mem hq).1) hsub
      (write_of_handled hnot fun j hj => hj)
  | selectLocal hphase hord =>
    exact settled_loaded hs (fun i hi => active_of_keeps
      (fun r hr => ((holds_localWhere r).mp hr).1) (World.of_mem_selectLimit hi).2.1) hnone
      (fun i hi => hi) (hnone' _)
  | @process i queue inv env hphase hobj =>
    obtain ⟨hinv, hnot, hsub⟩ := hhead hphase rfl hobj
    have hhermes := hc.working _ hphase i List.mem_cons_self inv hobj
    have hok := localBoundary_ok env.later
      (processOne_local cfg i w.clock env (by rw [hhermes]; simp))
    refine settled_same hs (fun f hf wr hwr hterm => ?_) hsub (write_of_handled hnot fun j hj => hj)
    obtain ⟨q, hq, hf, -⟩ := mem_rowFlushes hf
    rw [hf, List.mem_singleton] at hwr
    subst hwr
    exact (hok.all q hq).terminal hterm
  | @callback i inv call eff hphase hfree hrow hok =>
    refine settled_request [i] (hc.idle hphase) fun hterm => ?_
    obtain ⟨-, -, ⟨-, rfl, -⟩ | ⟨hana, -⟩⟩ := submitExternalResult_cases hok
    · rfl
    · rw [hana] at hterm
      cases hterm
  | callbackRefused => exact hdone rfl
  | @status i inv r body hphase hfree hrow hok =>
    refine settled_request [i] (hc.idle hphase) fun _ => ?_
    rw [(updateInvestigationStatus_cases hok).1]
    rfl
  | statusRefused => exact hdone rfl
  | stop hphase hrow hok =>
    refine settled_request [] (hc.idle hphase) fun hterm => ?_
    rw [(stopInvestigation_cases hok).1] at hterm
    cases hterm
  | poll hphase =>
    unfold World.poll
    split
    · exact hdone rfl
    · exact hdone rfl
  | pollEmpty => exact hdone rfl
  | pollSelect hphase hord hids =>
    subst hids
    refine settled_loaded hs (fun i hi => active_of_keeps (fun r hr => ?_)
      (World.of_mem_selectLimit hi).2.1) hnone (fun i hi => hi) (hnone' _)
    rw [((holds_leaseWhere _ r).mp hr).1.1]; rfl
  | pollStamp hphase =>
    refine settled_same hs (fun f hf wr hwr _ => ?_)
      (fun i hi => absurd hi List.not_mem_nil) (fun f hf wr hwr hmem => absurd hmem List.not_mem_nil)
    rw [List.mem_singleton.mp hf] at hwr
    rw [(mem_manyWrites hwr).2.2]
    rfl
  | chat hphase =>
    unfold World.chat
    split
    · exact hdone rfl
    · exact hdone rfl
  | chatReply hphase =>
    exact settled_same hs (fun f hf wr hwr => by
        rw [List.mem_singleton.mp hf] at hwr; exact absurd hwr List.not_mem_nil)
      (fun i hi => absurd hi List.not_mem_nil) (fun f hf wr hwr hmem => absurd hmem List.not_mem_nil)
  | stopRefused => exact hdone rfl

end Moves

/-! ## Commits -/

section Steps

variable {cfg : Settings} {w w' : World} {p : Pid}

theorem status_of_written {r : DfirInvestigation} {wr : Write} (hbase : wr.base.status = r.status)
    (hflush : wr.base.status.isTerminal = true → wr.cur.status = wr.base.status)
    (hterm : r.status.isTerminal = true) : (writeBack wr.base wr.cur r).status = r.status := by
  rw [status_writeBack, hflush (by rw [hbase]; exact hterm), pick_same]

/-- **An up-to-date commit ends no row anew.** -/
theorem status_of_commit {rest : List Flush} {i : InvId} {r : DfirInvestigation} {f : Flush}
    (hc : ProcOk w.rows (w.procs p))
    (hs : Settled w.rows w.locks p (w.procs p)) (htodo : (w.procs p).todo = f :: rest)
    (hG : UpToDate w (.commit p))
    (hr : w.rows.get i = some r) (hterm : r.status.isTerminal = true) :
    ∃ r', (rowsAfter w.rows f.writes).get i = some r' ∧ r'.status = r.status := by
  have hmem : f ∈ (w.procs p).todo := by rw [htodo]; exact List.mem_cons_self
  obtain ⟨r', hr'⟩ := exists_get_rowsAfter f.writes hr
  refine ⟨r', hr', ?_⟩
  rcases rowsAfter_cases (hc.nodup f hmem) hr' with ⟨wr, hwr, rfl, r₀, hr₀, rfl⟩ | ⟨-, hr₀⟩
  · rw [hr] at hr₀
    obtain rfl := Option.some.inj hr₀
    refine status_of_written ?_ (hs.flush f hmem wr hwr) hterm
    rcases hG f (by rw [htodo]; rfl) wr hwr with hlock | hstale
    · -- the lock was held since the load, so the copy in the session is as the row
      have hlinked := hc.linked
      rw [htodo] at hlinked
      obtain ⟨o, ho, hbut⟩ := Option.map_eq_some_iff.mp (hlinked.1 wr hwr)
      rw [← status_eq_of_butFlows hbut]
      exact hs.lock wr.id r o hlock hr hterm ho
    · exact hstale r hr hterm
  · rw [hr] at hr₀
    rw [Option.some.inj hr₀]

theorem settled_of_commit {rest : List Flush} {f : Flush} (hc : ProcOk w.rows (w.procs p))
    (hs : Settled w.rows w.locks p (w.procs p)) (htodo : (w.procs p).todo = f :: rest)
    (hG : UpToDate w (.commit p)) : Settled (rowsAfter w.rows f.writes) (w.release p) p
      ⟨objsAfter (w.procs p).objs f.writes, rest, (w.procs p).phase⟩ := by
  have hmem : f ∈ (w.procs p).todo := by rw [htodo]; exact List.mem_cons_self
  have hrest : ∀ g ∈ rest, g ∈ (w.procs p).todo := fun g hg => by
    rw [htodo]; exact List.mem_cons_of_mem _ hg
  refine ⟨fun i r o hlock => ?_, fun i o ho hterm => ?_, fun g hg => hs.flush g (hrest g hg),
    fun i hi o ho => ?_, fun g hg => hs.write g (hrest g hg)⟩
  · -- the process holds no lock any more
    exact absurd hlock (World.release_ne i)
  · rcases objsAfter_cases ho with ⟨wr, hwr, rfl, rfl⟩ | ⟨-, ho⟩
    · obtain ⟨r, hr, -⟩ := (hc.writes f hmem wr hwr).2
      by_cases heq : wr.cur.status = wr.base.status
      · -- the status was not written: the copy had ended before
        have hlinked := hc.linked
        rw [htodo] at hlinked
        obtain ⟨o, ho, hbut⟩ := Option.map_eq_some_iff.mp (hlinked.1 wr hwr)
        have hbase := status_eq_of_butFlows hbut
        obtain ⟨r', hr', hro⟩ := hs.copy wr.id o ho (by rw [hbase, ← heq]; exact hterm)
        obtain ⟨r'', hr'', hrr⟩ := status_of_commit hc hs htodo hG hr'
          (by rw [hro, hbase, ← heq]; exact hterm)
        exact ⟨r'', hr'', by rw [hrr, hro, hbase, heq]⟩
      · refine ⟨writeBack wr.base wr.cur r, ?_, ?_⟩
        · rw [get_rowsAfter_of_mem (hc.nodup f hmem) hwr, hr]
          rfl
        · rw [status_writeBack, pick_of_ne heq]
    · obtain ⟨r, hr, hro⟩ := hs.copy i o ho hterm
      obtain ⟨r', hr', hrr⟩ := status_of_commit hc hs htodo hG hr (by rw [hro]; exact hterm)
      exact ⟨r', hr', hrr.trans hro⟩
  · rcases objsAfter_cases ho with ⟨wr, hwr, rfl, rfl⟩ | ⟨-, ho⟩
    · exact hs.write f hmem wr hwr hi
    · exact hs.queue i hi o ho

theorem settled_of_other {rest : List Flush} {q : Pid} {f : Flush} (hq : q ≠ p)
    (hc : ProcOk w.rows (w.procs p)) (hs : Settled w.rows w.locks p (w.procs p))
    (hs' : Settled w.rows w.locks q (w.procs q)) (htodo : (w.procs p).todo = f :: rest)
    (hfree : ∀ wr ∈ f.writes, w.free p wr.id = true) (hG : UpToDate w (.commit p)) :
    Settled (rowsAfter w.rows f.writes) (w.release p) q (w.procs q) where
  lock i r o hlock hr hterm ho := by
    -- the flush waited for the rows that `q` has locked
    have hlock' : w.locks i = some q := World.locks_of_release hlock
    have hnot : ∀ wr ∈ f.writes, wr.id ≠ i := by
      rintro wr hwr rfl
      rcases World.free_iff.mp (hfree wr hwr) with h | h
      · rw [hlock'] at h; cases h
      · rw [hlock'] at h; exact hq (Option.some.inj h)
    rw [get_rowsAfter_of_not_mem hnot] at hr
    exact hs'.lock i r o hlock' hr hterm ho
  copy i o ho hterm := by
    obtain ⟨r, hr, hro⟩ := hs'.copy i o ho hterm
    obtain ⟨r', hr', hrr⟩ := status_of_commit hc hs htodo hG hr (by rw [hro]; exact hterm)
    exact ⟨r', hr', hrr.trans hro⟩
  flush := hs'.flush
  queue := hs'.queue
  write := hs'.write

/-! ## Runs -/

/-- The session of another process, over a step that changes neither rows nor its locks. -/
theorem Settled.congr_locks {pr : Proc} {rows : Table InvId DfirInvestigation}
    {locks locks' : InvId → Option Pid} (h : Settled rows locks p pr)
    (hlocks : ∀ i, locks' i = some p → locks i = some p) :
    Settled rows locks' p pr :=
  { h with lock := fun i r o hlock => h.lock i r o (hlocks i hlock) }

theorem settled_step {a : Action} (hc : Coherent w) (hs : AllSettled w) (hG : UpToDate w a)
    (h : step cfg w a = some w') : AllSettled w' := by
  cases step_cases h with
  | advance d => exact hs
  | @created i env req r hnew hfresh =>
    intro q
    refine { hs q with lock := fun j s o hlock hr hterm ho => ?_, copy := fun j o ho hterm => ?_ }
    · rcases Table.get_insert_cases hr with ⟨-, rfl, -⟩ | hr
      · rw [hfresh.status] at hterm
        cases hterm
      · exact (hs q).lock j s o hlock hr hterm ho
    · obtain ⟨s, hr, hso⟩ := (hs q).copy j o ho hterm
      exact ⟨s, Table.get_insert_of_get hr, hso⟩
  | refused => exact hs
  | @move p m e htodo hmove =>
    refine forall_procs_update (I := fun q pr => Settled w.rows (w.moved p e).locks q pr)
      (settled_of_move (hc p) (hs p) hmove) fun q hq => (hs q).congr_locks fun i hlock => ?_
    change (if i ∈ e.locked then some p else w.locks i) = some q at hlock
    split at hlock
    · exact absurd (Option.some.inj hlock).symm hq
    · exact hlock
  | @commit p f rest htodo hfree =>
    exact forall_procs_update
      (I := fun q pr => Settled (rowsAfter w.rows f.writes) (w.release p) q pr)
      (settled_of_commit (hc p) (hs p) htodo hG)
      fun q hq => settled_of_other hq (hc p) (hs p) (hs q) htodo hfree hG
  | close p =>
    exact forall_procs_update (I := fun q pr => Settled w.rows (w.release p) q pr)
      (settled_empty _ _ p _)
      fun q _ => (hs q).congr_locks fun i hlock => World.locks_of_release hlock

theorem status_of_step {i : InvId} {r : DfirInvestigation} {a : Action} (hc : Coherent w)
    (hs : AllSettled w) (hG : UpToDate w a)
    (h : step cfg w a = some w') (hr : w.rows.get i = some r) (hterm : r.status.isTerminal = true) :
    ∃ r', w'.rows.get i = some r' ∧ r'.status = r.status := by
  cases step_cases h with
  | created hnew hfresh => exact ⟨r, Table.get_insert_of_get hr, rfl⟩
  | @commit p f rest htodo hfree => exact status_of_commit (hc p) (hs p) htodo hG hr hterm
  | _ => exact ⟨r, hr, rfl⟩

/-- **Terminal statuses are absorbing** in every run whose commits are up to date: from any table,
over any interleaving, a row that has ended keeps its status. -/
theorem terminal_absorbing (cfg : Settings) {w₀ w w' : World} (hquiet : w₀.Quiet)
    (hreach : Runs (step cfg) UpToDate w₀ w) (hrun : Runs (step cfg) UpToDate w w') {i : InvId}
    {r : DfirInvestigation} (hr : w.rows.get i = some r) (hterm : r.status.isTerminal = true) :
    ∃ r', w'.rows.get i = some r' ∧ r'.status = r.status := by
  have hinv : Coherent w ∧ AllSettled w :=
    hreach.invariant (I := fun w => Coherent w ∧ AllSettled w)
      (fun _ _ _ hI hG hstep => ⟨coherent_step hI.1 hstep, settled_step hI.1 hI.2 hG hstep⟩)
      ⟨hquiet.coherent, hquiet.allSettled⟩
  have hall := hrun.invariant
    (I := fun v => (Coherent v ∧ AllSettled v) ∧
      ∃ r', v.rows.get i = some r' ∧ r'.status = r.status)
    (fun v a v' hI hG hstep => by
      obtain ⟨⟨hc, hs⟩, r', hr', hrr⟩ := hI
      obtain ⟨r'', hr'', hrr'⟩ :=
        status_of_step hc hs hG hstep hr' (by rw [hrr]; exact hterm)
      exact ⟨⟨coherent_step hc hstep, settled_step hc hs hG hstep⟩, r'', hr'', hrr'.trans hrr⟩)
    ⟨hinv, r, hr, rfl⟩
  exact hall.2

end Steps

/-! ## A row that is stopped, and one that is overwritten -/

/-- Two investigations are dispatched with an uncertain outcome, the next tick selects both, and
commits the first; then the second is stopped. -/
def stoppedTrace : List Action :=
  [requestNew "1" "deepagent", .advance 1, requestNew "2" "deepagent",
    .move 0 (.tickStart ["1", "2"]), .move 0 .count, .move 0 (.claim ["1", "2"]), .commit 0] ++
  dispatchOne 0 readTimeout ++ dispatchOne 0 readTimeout ++
  [.close 0, .move 1 (.tickStart ["1", "2"]), .move 1 (.reconcile ⟨httpStatus 404, 0⟩), .commit 1,
    .move 2 (.stop "2"), .commit 2]

/-- The tick goes on with the second row, of which it still holds the copy from before. -/
def overwritingTrace : List Action := [.move 1 (.reconcile ⟨httpStatus 404, 0⟩), .commit 1]

/-- **Without the condition a terminal status is overwritten.**  The stopped row is `failed`, and the
tick that had loaded it before returns it to the queue. -/
theorem terminal_overwritten : ¬ ∀ (w w' : World) (i : InvId) (r : DfirInvestigation),
      Runs (step (sampleSettings 12)) anyAction emptyWorld w →
      Runs (step (sampleSettings 12)) anyAction w w' → w.rows.get i = some r →
      r.status.isTerminal = true → ∃ r', w'.rows.get i = some r' ∧ r'.status = r.status := by
  intro h
  obtain ⟨w, w', hw, hw', hfailed, hpending⟩ :=
    exists_runs_of_exec_exec (G := anyAction) (step (sampleSettings 12)) emptyWorld
      stoppedTrace overwritingTrace
      (p := fun w => decide (w.statusOf "2" = some .failed))
      (q := fun w => decide (w.statusOf "2" = some .pending)) (by decide +kernel)
  rw [decide_eq_true_eq, World.statusOf, Option.map_eq_some_iff] at hfailed hpending
  obtain ⟨r, hr, hrf⟩ := hfailed
  obtain ⟨r', hr', hrp⟩ := hpending
  obtain ⟨r'', hr'', heq⟩ := h w w' "2" r hw hw' hr (by rw [hrf]; rfl)
  rw [hr'] at hr''
  rw [← Option.some.inj hr'', hrp, hrf] at heq
  cases heq

/-- A row that is stopped between two ticks stays failed through the second. -/
theorem terminal_absorbing_stopped :
    ∃ w w' r', Runs (step (sampleSettings 12)) UpToDate emptyWorld w ∧
      Runs (step (sampleSettings 12)) UpToDate w w' ∧ w.statusOf "1" = some .failed ∧
      w'.rows.get "1" = some r' ∧ r'.status = .failed := by
  obtain ⟨w, w', hw, hw', hfailed, -⟩ :=
    exists_runs_of_exec_exec (G := UpToDate) (step (sampleSettings 12)) emptyWorld
      ([requestNew "1" "deepagent", .move 0 (.tickStart ["1"]), .move 0 .count,
        .move 0 (.claim ["1"]), .commit 0] ++ dispatchOne 0 readTimeout ++
        [.close 0, .move 1 (.stop "1"), .commit 1])
      [.move 2 (.tickStart ["1"]), .move 2 .count, .move 2 (.claim ["1"]), .commit 2]
      (p := fun w => decide (w.statusOf "1" = some .failed))
      (q := fun _ => true) (by decide +kernel)
  rw [decide_eq_true_eq] at hfailed
  obtain ⟨r, hr, hrf⟩ := Option.map_eq_some_iff.mp hfailed
  obtain ⟨r', hr', heq⟩ := terminal_absorbing (sampleSettings 12)
    (World.quiet_start 0 Table.empty 0) hw hw' hr (by rw [hrf]; rfl)
  exact ⟨w, w', r', hw, hw', hfailed, hr', heq.trans hrf⟩

end AssetInventory
