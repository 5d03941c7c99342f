import AssetInventory.Dfir.System

/-!
# What a step does

`World.move` is a table of moves; `MoveCase` says what each leaves, and `move_cases` that there are
no others.  `StepCase` and `step_cases` do the same for the steps of the system.  Every invariant is
proved from these cases.

* `free_of_mem_locked`: a move locks only rows that no other process has locked.
* `rowsAfter_cases`, `objsAfter_cases`: the table and the session after a flush, row by row: the row
  was written back, or it is as it was.
-/

namespace AssetInventory

open PyJson PyTime Orm DfirInvestigation RowStore

namespace World

/-- What a move of a process leaves. -/
inductive MoveCase (cfg : Settings) (w : World) (p : Pid) : Move → Effect → Prop where
  | tickStart {ord : List InvId} (hphase : (w.procs p).phase = .idle) (hord : w.Ordered ord) :
      MoveCase cfg w p (.tickStart ord)
        ⟨⟨w.loaded (w.procs p).objs (w.select p reconcileWhere ord), [],
          .reconciling (w.select p reconcileWhere ord)⟩, w.select p reconcileWhere ord, []⟩
  | reconcile {i : InvId} {queue : List InvId} {inv : DfirInvestigation} (env : ReconcileEnv)
      (hphase : (w.procs p).phase = .reconciling (i :: queue))
      (hobj : (w.procs p).objs i = some inv) :
      MoveCase cfg w p (.reconcile env)
        ⟨⟨(w.procs p).objs,
          rowFlushes i none (stateCheckDeepagentJob cfg w.clock env inv).session.flushed,
          if (stateCheckDeepagentJob cfg w.clock env inv).raised.isSome then .ended
          else .reconciling queue⟩, [], []⟩
  | count (hphase : (w.procs p).phase = .reconciling []) :
      MoveCase cfg w p .count (countSlots cfg w p)
  | claim {available : ℕ} {ord : List InvId} (hphase : (w.procs p).phase = .claiming available)
      (hord : w.Ordered ord) :
      MoveCase cfg w p (.claim ord)
        ⟨⟨w.loaded (w.procs p).objs (w.selectLimit p claimWhere ord available),
          [⟨manyWrites (w.loaded (w.procs p).objs (w.selectLimit p claimWhere ord available))
              (w.selectLimit p claimWhere ord available) reserveJobId, none, none⟩],
          .dispatching (w.selectLimit p claimWhere ord available)⟩,
          w.selectLimit p claimWhere ord available, []⟩
  | prepareFailed {i : InvId} {queue : List InvId} {inv : DfirInvestigation} {env : DispatchEnv}
      (e : PyExc) (later : Time) (hphase : (w.procs p).phase = .dispatching (i :: queue))
      (hobj : (w.procs p).objs i = some inv) :
      MoveCase cfg w p (.prepare env later)
        ⟨⟨(w.procs p).objs, [⟨[⟨i, inv, workerFail later e inv⟩], none, none⟩],
          .dispatching queue⟩, [], []⟩
  | prepared {i : InvId} {queue : List InvId} {inv : DfirInvestigation} {env : DispatchEnv}
      {later : Time} (hphase : (w.procs p).phase = .dispatching (i :: queue))
      (hobj : (w.procs p).objs i = some inv) :
      MoveCase cfg w p (.prepare env later)
        ⟨⟨(w.procs p).objs, [⟨[⟨i, inv, dispatchReserve i w.clock inv⟩], none, none⟩],
          .posting i queue⟩, [], []⟩
  | send {i : InvId} {queue : List InvId} (hphase : (w.procs p).phase = .posting i queue) :
      MoveCase cfg w p .send (w.sendNext p i queue)
  | outcome {i : InvId} {queue : List InvId} {inv : DfirInvestigation} (env : DispatchReply)
      {later : Time} (hphase : (w.procs p).phase = .awaiting i queue)
      (hobj : (w.procs p).objs i = some inv) :
      MoveCase cfg w p (.outcome env later)
        ⟨⟨(w.procs p).objs, rowFlushes i none (dispatchOutcome i env inv).session.flushed,
          .dispatching queue⟩, [], []⟩
  | selectLocal {ord : List InvId} (hphase : (w.procs p).phase = .dispatching [])
      (hord : w.Ordered ord) :
      MoveCase cfg w p (.selectLocal ord)
        ⟨⟨w.loaded (w.procs p).objs (w.selectLimit p localWhere ord localLimit), [],
          .working (w.selectLimit p localWhere ord localLimit)⟩,
          w.selectLimit p localWhere ord localLimit, []⟩
  | process {i : InvId} {queue : List InvId} {inv : DfirInvestigation} (env : LocalEnv)
      (hphase : (w.procs p).phase = .working (i :: queue))
      (hobj : (w.procs p).objs i = some inv) :
      MoveCase cfg w p (.process env)
        ⟨⟨(w.procs p).objs,
          rowFlushes i ((processOne cfg i w.clock env inv).2.map (TokenWrite.mk w.tokens))
            (localBoundary env.later (processOne cfg i w.clock env inv).1).flushed,
          .working queue⟩, [], []⟩
  | callback {i : InvId} {inv : DfirInvestigation} {call : ResultCallback} {e : CallbackEffect}
      (hphase : (w.procs p).phase = .idle) (hfree : w.free p i = true)
      (hrow : w.rows.get i = some inv)
      (hok : submitExternalResult i w.clock call (some inv) = .ok e) :
      MoveCase cfg w p (.callback i call)
        ⟨⟨w.loaded (w.procs p).objs [i],
          [⟨[⟨i, inv, e.row⟩], e.spent.map (TokenWrite.mk w.tokens),
            some (.answered i call (.ok (invToDict i e.row)))⟩], .ended⟩, [i], []⟩
  | callbackRefused {i : InvId} {call : ResultCallback} {e : CallbackError}
      (hphase : (w.procs p).phase = .idle)
      (herr : submitExternalResult i w.clock call (w.rows.get i) = .error e) :
      MoveCase cfg w p (.callback i call)
        ⟨⟨(w.procs p).objs, [], .ended⟩, [], [.replied (.answered i call (.error e))]⟩
  | status {i : InvId} {inv r : DfirInvestigation} {body : StatusBody}
      (hphase : (w.procs p).phase = .idle) (hfree : w.free p i = true)
      (hrow : w.rows.get i = some inv)
      (hok : updateInvestigationStatus w.clock body (some inv) = .ok (some r)) :
      MoveCase cfg w p (.status i body)
        ⟨⟨w.loaded (w.procs p).objs [i],
          [⟨[⟨i, inv, r⟩], none, some (.reported i body (.ok true))⟩], .ended⟩, [i], []⟩
  | statusRefused {i : InvId} {body : StatusBody} (reply : Except HttpError Bool)
      (hphase : (w.procs p).phase = .idle) (hreply : reply ≠ .ok true) :
      MoveCase cfg w p (.status i body)
        ⟨⟨(w.procs p).objs, [], .ended⟩, [], [.replied (.reported i body reply)]⟩
  | stop {i : InvId} {inv r : DfirInvestigation} (hphase : (w.procs p).phase = .idle)
      (hrow : w.rows.get i = some inv) (hok : stopInvestigation w.clock (some inv) = .ok r) :
      MoveCase cfg w p (.stop i)
        ⟨⟨w.loaded (w.procs p).objs [i], [⟨[⟨i, inv, r⟩], none, none⟩], .ended⟩, [], []⟩
  | poll {limit : ℤ} (hphase : (w.procs p).phase = .idle) :
      MoveCase cfg w p (.poll limit) (w.poll p limit)
  | pollEmpty {start : Time} {limit : ℤ} {ord : List InvId}
      (hphase : (w.procs p).phase = .polling start limit) (hord : w.Ordered ord)
      (hids : w.selectLimit p (leaseWhere (start - minutes 5)) ord limit.toNat = []) :
      MoveCase cfg w p (.pollSelect ord)
        ⟨⟨(w.procs p).objs, [], .ended⟩, [], [.replied (.polled p limit.toNat start w.clock [])]⟩
  | pollSelect {start : Time} {limit : ℤ} {ord ids : List InvId}
      (hphase : (w.procs p).phase = .polling start limit) (hord : w.Ordered ord)
      (hids : ids = w.selectLimit p (leaseWhere (start - minutes 5)) ord limit.toNat) :
      MoveCase cfg w p (.pollSelect ord)
        ⟨⟨w.loaded (w.procs p).objs ids, [], .stamping start limit.toNat ids⟩, ids, []⟩
  | pollStamp {start : Time} {limit : ℕ} {ids : List InvId}
      (hphase : (w.procs p).phase = .stamping start limit ids) :
      MoveCase cfg w p .pollStamp (w.pollStamp p start limit ids)
  | chat {i : InvId} (hphase : (w.procs p).phase = .idle) : MoveCase cfg w p (.chat i) (w.chat p i)
  | chatReply {read total : ℤ} (hphase : (w.procs p).phase = .chatting read) :
      MoveCase cfg w p (.chatReply total) (w.chatReply p read total)
  | stopRefused {i : InvId} (hphase : (w.procs p).phase = .idle) :
      MoveCase cfg w p (.stop i) ⟨⟨(w.procs p).objs, [], .ended⟩, [], []⟩

variable {cfg : Settings} {w w' : World} {p : Pid} {i : InvId} {e : Effect}

theorem callback_cases {call : ResultCallback}
    (hphase : (w.procs p).phase = .idle) (h : w.callback p i call = some e) :
    MoveCase cfg w p (.callback i call) e := by
  unfold callback at h
  split at h
  · rename_i hfree
    split at h
    · rename_i inv eff hrow hok
      rw [hrow] at hok
      rw [← Option.some.inj h]
      exact MoveCase.callback hphase hfree hrow hok
    · rename_i err herr
      rw [← Option.some.inj h]
      exact MoveCase.callbackRefused hphase herr
    · cases h
  · cases h

theorem status_cases {body : StatusBody}
    (hphase : (w.procs p).phase = .idle) (h : w.status p i body = some e) :
    MoveCase cfg w p (.status i body) e := by
  unfold status at h
  split at h
  · rename_i hfree
    split at h
    · rename_i inv r hrow hok
      rw [hrow] at hok
      rw [← Option.some.inj h]
      exact MoveCase.status hphase hfree hrow hok
    · rw [← Option.some.inj h]
      exact MoveCase.statusRefused (.ok false) hphase (by simp)
    · rename_i err herr
      rw [← Option.some.inj h]
      exact MoveCase.statusRefused (.error err) hphase (by simp)
    · cases h
  · cases h

theorem stop_cases (hphase : (w.procs p).phase = .idle) :
    MoveCase cfg w p (.stop i) (w.stop p i) := by
  unfold stop
  split
  · rename_i inv r hrow hok
    rw [hrow] at hok
    exact MoveCase.stop hphase hrow hok
  · exact MoveCase.stopRefused hphase

variable {ord ids : List InvId}

theorem pollSelect_cases {start : Time} {limit : ℤ}
    (hphase : (w.procs p).phase = .polling start limit)
    (h : w.pollSelect p start limit ord = some e) : MoveCase cfg w p (.pollSelect ord) e := by
  unfold pollSelect at h
  split at h
  · rename_i hord
    dsimp only at h
    split at h
    · rename_i hids
      rw [← Option.some.inj h]
      exact MoveCase.pollEmpty hphase hord hids
    · rw [← Option.some.inj h]
      exact MoveCase.pollSelect hphase hord rfl
  · cases h

theorem prepareNext_cases {queue : List InvId} {env : DispatchEnv} {later : Time}
    (hphase : (w.procs p).phase = .dispatching (i :: queue))
    (h : prepareNext cfg w p i queue env later = some e) :
    MoveCase cfg w p (.prepare env later) e := by
  unfold prepareNext at h
  rw [Option.map_eq_some_iff] at h
  obtain ⟨inv, hobj, rfl⟩ := h
  cases dispatchPrepare cfg env inv with
  | error exc => exact MoveCase.prepareFailed exc later hphase hobj
  | ok u => exact MoveCase.prepared hphase hobj

/-- **The moves.**  A process with nothing to commit makes one of these, and no other process
moves. -/
theorem move_cases {a : Move} (h : move cfg w p a = some e) :
    (w.procs p).todo = [] ∧ MoveCase cfg w p a e := by
  unfold move at h
  split at h
  · rename_i htodo
    refine ⟨List.isEmpty_iff.mp htodo, ?_⟩
    split at h
    · rename_i ord hphase
      unfold tickStart at h
      split at h
      · rename_i hord
        rw [← Option.some.inj h]
        exact MoveCase.tickStart hphase hord
      · cases h
    · rename_i i queue env hphase
      unfold reconcileNext at h
      rw [Option.map_eq_some_iff] at h
      obtain ⟨inv, hobj, rfl⟩ := h
      exact MoveCase.reconcile env hphase hobj
    · rename_i hphase
      rw [← Option.some.inj h]
      exact MoveCase.count hphase
    · rename_i available ord hphase
      unfold claimRows at h
      split at h
      · rename_i hord
        rw [← Option.some.inj h]
        exact MoveCase.claim hphase hord
      · cases h
    · rename_i hphase
      exact prepareNext_cases hphase h
    · rename_i hphase
      rw [← Option.some.inj h]
      exact MoveCase.send hphase
    · rename_i i queue env later hphase
      unfold outcomeNext at h
      rw [Option.map_eq_some_iff] at h
      obtain ⟨inv, hobj, rfl⟩ := h
      rw [dispatchBoundary_dispatchOutcome]
      exact MoveCase.outcome env hphase hobj
    · rename_i ord hphase
      unfold selectLocal at h
      split at h
      · rename_i hord
        rw [← Option.some.inj h]
        exact MoveCase.selectLocal hphase hord
      · cases h
    · rename_i i queue env hphase
      unfold processNext at h
      rw [Option.map_eq_some_iff] at h
      obtain ⟨inv, hobj, rfl⟩ := h
      exact MoveCase.process env hphase hobj
    · rename_i hphase
      exact callback_cases hphase h
    · rename_i hphase
      exact status_cases hphase h
    · rename_i hphase
      rw [← Option.some.inj h]
      exact stop_cases hphase
    · rename_i hphase
      rw [← Option.some.inj h]
      exact MoveCase.poll hphase
    · rename_i hphase
      exact pollSelect_cases hphase h
    · rename_i hphase
      rw [← Option.some.inj h]
      exact MoveCase.pollStamp hphase
    · rename_i hphase
      rw [← Option.some.inj h]
      exact MoveCase.chat hphase
    · rename_i hphase
      rw [← Option.some.inj h]
      exact MoveCase.chatReply hphase
    · cases h
  · cases h

/-! ## Locks and objects -/

theorem free_iff : w.free p i = true ↔ w.locks i = none ∨ w.locks i = some p := by
  rw [free, decide_eq_true_eq]

variable {q p : Pid}

theorem locks_of_release (h : w.release p i = some q) : w.locks i = some q := by
  unfold release at h
  split at h
  · cases h
  · exact h

theorem release_ne (i : InvId) : w.release p i ≠ some p := by
  unfold release
  split
  · simp
  · assumption

theorem mem_select {q : DfirInvestigation → Sql.Truth} :
    i ∈ w.select p q ord ↔ i ∈ ord ∧ w.keeps q i = true ∧ w.free p i = true := by
  rw [select, List.mem_filter, Bool.and_eq_true]

theorem of_mem_selectLimit {q : DfirInvestigation → Sql.Truth} {n : ℕ}
    (h : i ∈ w.selectLimit p q ord n) :
    i ∈ ord ∧ w.keeps q i = true ∧ w.free p i = true := by
  obtain ⟨hord, hkeeps⟩ := mem_of_mem_limit h
  rw [Bool.and_eq_true] at hkeeps
  exact ⟨hord, hkeeps⟩

theorem keeps_iff {q : DfirInvestigation → Sql.Truth} :
    w.keeps q i = true ↔ ∃ r, w.rows.get i = some r ∧ Sql.holds (q r) = true := by
  rw [keeps, Option.any_eq_true]

variable {objs : InvId → Option DfirInvestigation}

/-- An object of a session after a load was there before, or is the stored row. -/
theorem loaded_cases {o : DfirInvestigation} (h : w.loaded objs ids i = some o) :
    objs i = some o ∨ (objs i = none ∧ i ∈ ids ∧ w.rows.get i = some o) := by
  unfold loaded at h
  split at h
  · rename_i hmem
    cases hobj : objs i with
    | none =>
      rw [hobj] at h
      exact Or.inr ⟨rfl, hmem, h⟩
    | some o' =>
      rw [hobj] at h
      exact Or.inl h
  · exact Or.inl h

theorem loaded_of_empty
    (hobjs : ∀ j, objs j = none) (hmem : i ∈ ids) : w.loaded objs ids i = w.rows.get i := by
  unfold loaded
  rw [if_pos hmem, hobjs i, Option.none_or]

/-- **Locks are exclusive.**  A move locks only rows that no other process has locked. -/
theorem free_of_mem_locked {a : Move} (h : MoveCase cfg w p a e)
    (hi : i ∈ e.locked) : w.free p i = true := by
  cases h with
  | tickStart => exact (mem_select.mp hi).2.2
  | claim => exact (of_mem_selectLimit hi).2.2
  | selectLocal => exact (of_mem_selectLimit hi).2.2
  | pollSelect _ _ hids =>
    subst hids
    exact (of_mem_selectLimit hi).2.2
  | callback _ hfree =>
    rw [List.mem_singleton.mp hi]
    exact hfree
  | status _ hfree =>
    rw [List.mem_singleton.mp hi]
    exact hfree
  | chat =>
    unfold chat at hi
    split at hi
    · exact absurd hi List.not_mem_nil
    · exact absurd hi List.not_mem_nil
  | _ => exact absurd hi List.not_mem_nil

theorem locks_moved {a : Move} (h : MoveCase cfg w p a e)
    (hlock : w.locks i = some q) : (w.moved p e).locks i = some q := by
  change (if i ∈ e.locked then some p else w.locks i) = some q
  split
  · rename_i hi
    rcases free_iff.mp (free_of_mem_locked h hi) with hnone | hp
    · rw [hnone] at hlock
      cases hlock
    · exact hp.symm.trans hlock
  · exact hlock

theorem release_of_ne (hlock : w.locks i = some q) (hq : q ≠ p) : w.release p i = some q := by
  rw [release, if_neg fun hp => hq (Option.some.inj (hlock.symm.trans hp)), hlock]

/-- **A move posts, or answers requests.** -/
theorem said_cases {a : Move} (h : MoveCase cfg w p a e) :
    (∃ replies : List Reply, e.said = replies.map Event.replied) ∨
      ∃ i queue, (w.procs p).phase = .posting i queue ∧ e = w.sendNext p i queue := by
  cases h with
  | @send i queue hphase => exact Or.inr ⟨i, queue, hphase, rfl⟩
  | @callbackRefused i call err => exact Or.inl ⟨[.answered i call (.error err)], rfl⟩
  | @statusRefused i body reply => exact Or.inl ⟨[.reported i body reply], rfl⟩
  | @pollEmpty start limit => exact Or.inl ⟨[.polled p limit.toNat start w.clock []], rfl⟩
  | chat =>
    unfold chat
    split
    · exact Or.inl ⟨[], rfl⟩
    · exact Or.inl ⟨[], rfl⟩
  | _ => exact Or.inl ⟨[], rfl⟩

end World

/-! ## Writing back -/

variable {ws : List Write}

theorem objsAfter_cases {objs : InvId → Option DfirInvestigation} {i : InvId}
    {o : DfirInvestigation} (h : objsAfter objs ws i = some o) :
    (∃ wr ∈ ws, wr.id = i ∧ o = wr.cur) ∨ ((∀ wr ∈ ws, wr.id ≠ i) ∧ objs i = some o) := by
  induction ws generalizing objs with
  | nil => exact Or.inr ⟨fun _ hwr => absurd hwr List.not_mem_nil, h⟩
  | cons wr ws ih =>
    rcases ih h with ⟨wr', hmem, hid, ho⟩ | ⟨hnot, ho⟩
    · exact Or.inl ⟨wr', List.mem_cons_of_mem _ hmem, hid, ho⟩
    · change Function.update objs wr.id (some wr.cur) i = some o at ho
      by_cases hi : wr.id = i
      · subst hi
        rw [Function.update_self] at ho
        exact Or.inl ⟨wr, List.mem_cons_self, rfl, (Option.some.inj ho).symm⟩
      · rw [Function.update_of_ne (Ne.symm hi)] at ho
        refine Or.inr ⟨fun wr' hwr' => ?_, ho⟩
        rcases List.mem_cons.mp hwr' with rfl | hwr'
        · exact hi
        · exact hnot wr' hwr'

variable {rows : Table InvId DfirInvestigation}

theorem get_rowsAfter_of_not_mem {i : InvId} (h : ∀ wr ∈ ws, wr.id ≠ i) :
    (rowsAfter rows ws).get i = rows.get i := by
  induction ws generalizing rows with
  | nil => rfl
  | cons wr ws ih =>
    change (rowsAfter (rows.modify wr.id (writeBack wr.base wr.cur)) ws).get i = rows.get i
    rw [ih fun wr' hwr' => h wr' (List.mem_cons_of_mem _ hwr')]
    exact Table.get_modify_of_ne rows _ (Ne.symm (h wr List.mem_cons_self))

theorem get_rowsAfter_of_mem (hnodup : (ws.map Write.id).Nodup) {wr : Write} (hwr : wr ∈ ws) :
    (rowsAfter rows ws).get wr.id = (rows.get wr.id).map (writeBack wr.base wr.cur) := by
  induction ws generalizing rows with
  | nil => exact absurd hwr List.not_mem_nil
  | cons w₀ ws ih =>
    rw [List.map_cons, List.nodup_cons] at hnodup
    change (rowsAfter (rows.modify w₀.id (writeBack w₀.base w₀.cur)) ws).get wr.id = _
    rcases List.mem_cons.mp hwr with rfl | hmem
    · rw [get_rowsAfter_of_not_mem, Table.get_modify_self]
      intro wr' hwr' hid
      exact hnodup.1 (hid ▸ List.mem_map_of_mem hwr')
    · have hne : wr.id ≠ w₀.id := by
        intro hid
        exact hnodup.1 (hid ▸ List.mem_map_of_mem hmem)
      rw [ih hnodup.2 hmem, Table.get_modify_of_ne _ _ hne]

/-- A flush waits for the rows that other processes have locked, so it does not write them. -/
theorem get_rowsAfter_of_locked {p q : Pid} {i : InvId} {w : World}
    (hfree : ∀ wr ∈ ws, w.free p wr.id = true) (hq : q ≠ p)
    (hlock : w.locks i = some q) : (rowsAfter w.rows ws).get i = w.rows.get i := by
  refine get_rowsAfter_of_not_mem fun wr hwr hid => ?_
  rcases World.free_iff.mp (hfree wr hwr) with hnone | hp
  · rw [hid, hlock] at hnone
    cases hnone
  · rw [hid, hlock] at hp
    exact hq (Option.some.inj hp)

theorem get_rowsAfter_one (rows : Table InvId DfirInvestigation) (wr : Write) :
    (rowsAfter rows [wr]).get wr.id = (rows.get wr.id).map (writeBack wr.base wr.cur) :=
  Table.get_modify_self rows wr.id _

/-- **The table after a flush.**  A row was written back, or is as it was. -/
theorem rowsAfter_cases {i : InvId} (hnodup : (ws.map Write.id).Nodup) {r' : DfirInvestigation}
    (h : (rowsAfter rows ws).get i = some r') :
    (∃ wr ∈ ws, wr.id = i ∧ ∃ r, rows.get i = some r ∧ r' = writeBack wr.base wr.cur r) ∨
      ((∀ wr ∈ ws, wr.id ≠ i) ∧ rows.get i = some r') := by
  by_cases hex : ∃ wr ∈ ws, wr.id = i
  · obtain ⟨wr, hwr, rfl⟩ := hex
    rw [get_rowsAfter_of_mem hnodup hwr, Option.map_eq_some_iff] at h
    obtain ⟨r, hr, hr'⟩ := h
    exact Or.inl ⟨wr, hwr, rfl, r, hr, hr'.symm⟩
  · have hnot : ∀ wr ∈ ws, wr.id ≠ i := fun wr hwr hid => hex ⟨wr, hwr, hid⟩
    rw [get_rowsAfter_of_not_mem hnot] at h
    exact Or.inr ⟨hnot, h⟩

theorem keys_rowsAfter (rows : Table InvId DfirInvestigation) (ws : List Write) :
    (rowsAfter rows ws).keys = rows.keys := by
  induction ws generalizing rows with
  | nil => rfl
  | cons wr ws ih => exact (ih _).trans rfl

theorem exists_get_rowsAfter {i : InvId} (ws : List Write) {r : DfirInvestigation}
    (h : rows.get i = some r) :
    ∃ r', (rowsAfter rows ws).get i = some r' := by
  have hmem : i ∈ (rowsAfter rows ws).keys := by
    rw [keys_rowsAfter]
    exact Table.mem_keys_of_get h
  exact Option.isSome_iff_exists.mp (((rowsAfter rows ws).mem_keys i).mp hmem)

/-! ## Steps -/

/-- What holds of the process that stepped and of every other one holds of all. -/
theorem forall_procs_update {p : Pid} {I : Pid → Proc → Prop} {procs : Pid → Proc} {pr : Proc}
    (hp : I p pr) (hother : ∀ q, q ≠ p → I q (procs q)) :
    ∀ q, I q (Function.update procs p pr q) := by
  intro q
  by_cases hq : q = p
  · subst hq
    rw [Function.update_self]
    exact hp
  · rw [Function.update_of_ne hq]
    exact hother q hq

namespace World

@[simp] theorem procs_moved_self (w : World) (p : Pid) (e : Effect) :
    (w.moved p e).procs p = e.proc := Function.update_self ..

theorem procs_moved_of_ne {q p : Pid} (w : World) (e : Effect) (hq : q ≠ p) :
    (w.moved p e).procs q = w.procs q := Function.update_of_ne hq ..

@[simp] theorem procs_committed_self (w : World) (p : Pid) (f : Flush) (rest : List Flush) :
    (w.committed p f rest).procs p =
      ⟨objsAfter (w.procs p).objs f.writes, rest, (w.procs p).phase⟩ := Function.update_self ..

theorem procs_committed_of_ne {q p : Pid} (w : World) (f : Flush) (rest : List Flush)
    (hq : q ≠ p) : (w.committed p f rest).procs q = w.procs q := Function.update_of_ne hq ..

@[simp] theorem procs_close_self (w : World) (p : Pid) : (w.close p).procs p = Proc.over :=
  Function.update_self ..

theorem procs_close_of_ne {q p : Pid} (w : World) (hq : q ≠ p) :
    (w.close p).procs q = w.procs q := Function.update_of_ne hq ..

end World

/-- What a step of the system leaves. -/
inductive StepCase (cfg : Settings) (w : World) : Action → World → Prop where
  | advance (d : ℕ) : StepCase cfg w (.advance d) { w with clock := w.clock + d }
  | created {i : InvId} {env : CreateEnv} {req : CreateRequest} {r : DfirInvestigation}
      (hnew : w.rows.get i = none) (hfresh : Fresh w.clock r) :
      StepCase cfg w (.create i env req) { w with rows := w.rows.insert i r }
  | refused {i : InvId} {env : CreateEnv} {req : CreateRequest} :
      StepCase cfg w (.create i env req) w
  | move {p : Pid} {a : Move} {e : Effect} (htodo : (w.procs p).todo = [])
      (hmove : World.MoveCase cfg w p a e) : StepCase cfg w (.move p a) (w.moved p e)
  | commit {p : Pid} {f : Flush} {rest : List Flush} (htodo : (w.procs p).todo = f :: rest)
      (hfree : ∀ wr ∈ f.writes, w.free p wr.id = true) :
      StepCase cfg w (.commit p) (w.committed p f rest)
  | close (p : Pid) : StepCase cfg w (.close p) (w.close p)

/-- **The steps of the system.** -/
theorem step_cases {cfg : Settings} {w w' : World} {a : Action} (h : step cfg w a = some w') :
    StepCase cfg w a w' := by
  cases a with
  | advance d =>
    rw [← Option.some.inj h]
    exact StepCase.advance d
  | create i env req =>
    change World.create cfg w i env req = some w' at h
    unfold World.create at h
    split at h
    · rename_i r hr
      split at h
      · rename_i hnew
        rw [← Option.some.inj h]
        exact StepCase.created hnew (fresh_of_createInvestigation hr)
      · cases h
    · rw [← Option.some.inj h]
      exact StepCase.refused
  | move p m =>
    change (World.move cfg w p m).map (w.moved p) = some w' at h
    rw [Option.map_eq_some_iff] at h
    obtain ⟨e, he, rfl⟩ := h
    obtain ⟨htodo, hmove⟩ := World.move_cases he
    exact StepCase.move htodo hmove
  | commit p =>
    change w.commit p = some w' at h
    unfold World.commit at h
    split at h
    · cases h
    · rename_i f rest htodo
      split at h
      · rename_i hfree
        rw [← Option.some.inj h]
        exact StepCase.commit htodo (List.all_eq_true.mp hfree)
      · cases h
  | close p =>
    rw [← Option.some.inj h]
    exact StepCase.close p

/-- The process that takes the action. -/
def Action.actor : Action → Option Pid
  | .move p _ => some p
  | .commit p => some p
  | .close p => some p
  | _ => none

theorem procs_of_step {q : Pid} {cfg : Settings} {w w' : World} {a : Action}
    (h : step cfg w a = some w') (hq : a.actor ≠ some q) : w'.procs q = w.procs q := by
  have hne : ∀ {p : Pid}, some p ≠ some q → q ≠ p := fun hp hqp => hp (congrArg some hqp.symm)
  cases step_cases h with
  | move => exact Function.update_of_ne (hne hq) ..
  | commit => exact Function.update_of_ne (hne hq) ..
  | close => exact Function.update_of_ne (hne hq) ..
  | _ => rfl

end AssetInventory
