import AssetInventory.Dfir.Moves

/-!
# Coherence of the sessions

What holds of every session at every moment, whatever the other processes do: a session may hold an
old copy of a row, but it is a copy of a row of the table, with the columns that never change, and
what it has to commit starts from that copy.

* `Linked`: each flush still to come starts from the object in the session, or from what the flush
  before it leaves.
* `Coherent`: the invariant, with `coherent_step` and `coherent_of_runs`.
-/

namespace AssetInventory

open PyJson PyTime Orm DfirInvestigation RowStore Interleaving

/-! ## Linked flushes -/

/-- Each flush starts from the object in the session, as far as `v` can tell, or from what the flush
before it leaves. -/
def Linked {α : Type} (v : DfirInvestigation → α) :
    (InvId → Option DfirInvestigation) → List Flush → Prop
  | _, [] => True
  | objs, f :: fs =>
    (∀ wr ∈ f.writes, (objs wr.id).map v = some (v wr.base)) ∧
      Linked v (objsAfter objs f.writes) fs

variable {objs : InvId → Option DfirInvestigation} {l : List (DfirInvestigation × DfirInvestigation)} {i : InvId}

variable {tokens : Option TokenWrite}

theorem linked_rowFlushes {α : Type} {v : DfirInvestigation → α} {inv : DfirInvestigation}
    (hlinks : Links v inv l)
    (h : (objs i).map v = some (v inv)) : Linked v objs (rowFlushes i tokens l) := by
  induction l generalizing objs inv with
  | nil => exact trivial
  | cons q l ih =>
    obtain ⟨b, c⟩ := q
    have hone : ∀ wr ∈ [(⟨i, b, c⟩ : Write)], (objs wr.id).map v = some (v wr.base) := by
      intro wr hwr
      rw [List.mem_singleton.mp hwr, h, hlinks.1]
    cases l with
    | nil => exact ⟨hone, trivial⟩
    | cons q' l =>
      refine ⟨hone, ih hlinks.2 ?_⟩
      simp [objsAfter]

variable {f : InvId → DfirInvestigation → DfirInvestigation} {ids ord : List InvId}

theorem mem_manyWrites {wr : Write} (h : wr ∈ manyWrites objs ids f) :
    wr.id ∈ ids ∧ objs wr.id = some wr.base ∧ wr.cur = f wr.id wr.base := by
  rw [manyWrites, List.mem_filterMap] at h
  obtain ⟨i, hi, hwr⟩ := h
  rw [Option.map_eq_some_iff] at hwr
  obtain ⟨o, ho, rfl⟩ := hwr
  exact ⟨hi, ho, rfl⟩

theorem nodup_manyWrites (h : ids.Nodup) : ((manyWrites objs ids f).map Write.id).Nodup := by
  have hsub : ((manyWrites objs ids f).map Write.id).Sublist ids := by
    induction ids with
    | nil => exact List.Sublist.refl _
    | cons i ids ih =>
      cases ho : objs i with
      | none => simpa [manyWrites, ho] using (ih (List.nodup_cons.mp h).2).cons i
      | some o => simpa [manyWrites, ho] using (ih (List.nodup_cons.mp h).2)
  exact h.sublist hsub

theorem mem_rowFlushes {f : Flush}
    (h : f ∈ rowFlushes i tokens l) : ∃ q ∈ l, f.writes = [⟨i, q.1, q.2⟩] ∧ f.reply = none := by
  induction l with
  | nil => exact absurd h List.not_mem_nil
  | cons q l ih =>
    obtain ⟨b, c⟩ := q
    cases l with
    | nil =>
      rw [List.mem_singleton.mp h]
      exact ⟨(b, c), List.mem_cons_self, rfl, rfl⟩
    | cons q' l =>
      rcases List.mem_cons.mp h with rfl | h
      · exact ⟨(b, c), List.mem_cons_self, rfl, rfl⟩
      · obtain ⟨q'', hq'', hf⟩ := ih h
        exact ⟨q'', List.mem_cons_of_mem _ hq'', hf⟩

/-! ## The invariant -/

/-- The object is a copy of the row under the key: the table has the row, with the same kept
columns. -/
def Copies (rows : Table InvId DfirInvestigation) (i : InvId) (o : DfirInvestigation) : Prop :=
  ∃ r, rows.get i = some r ∧ Kept r o

variable {rows : Table InvId DfirInvestigation}

theorem copies_of_get {r : DfirInvestigation}
    (h : rows.get i = some r) : Copies rows i r := ⟨r, h, Kept.refl r⟩

theorem Copies.trans {a b : DfirInvestigation}
    (h : Copies rows i a) (hab : Kept a b) : Copies rows i b := by
  obtain ⟨r, hr, hra⟩ := h
  exact ⟨r, hr, hra.trans hab⟩

/-- The rows a process has still to handle in the loop it is in. -/
def Phase.queue : Phase → List InvId
  | .reconciling queue => queue
  | .dispatching queue => queue
  | .posting i queue => i :: queue
  | .awaiting i queue => i :: queue
  | .working queue => queue
  | .stamping _ _ ids => ids
  | _ => []

/-- **A coherent session.**  It holds copies of rows of the table, and commits changes of them. -/
structure ProcOk (rows : Table InvId DfirInvestigation) (pr : Proc) : Prop where
  /-- A process that has not started has loaded nothing. -/
  idle : pr.phase = .idle → ∀ i, pr.objs i = none
  /-- The objects of the session are copies. -/
  objs : ∀ i o, pr.objs i = some o → Copies rows i o
  /-- The flushes to come change copies, and not their kept columns. -/
  writes : ∀ f ∈ pr.todo, ∀ wr ∈ f.writes, Kept wr.base wr.cur ∧ Copies rows wr.id wr.base
  /-- A flush writes a row once. -/
  nodup : ∀ f ∈ pr.todo, (f.writes.map Write.id).Nodup
  /-- The flushes to come are linked. -/
  linked : Linked butFlows pr.objs pr.todo
  /-- The rows a tick processes itself belong to Hermes. -/
  working : ∀ queue, pr.phase = .working queue → ∀ i ∈ queue,
    ∀ o, pr.objs i = some o → o.externalOrchestrator = some .hermes
  /-- A loop handles a row once. -/
  queue : pr.phase.queue.Nodup

/-- Every session is coherent. -/
def Coherent (w : World) : Prop := ∀ p, ProcOk w.rows (w.procs p)

theorem procOk_empty (rows : Table InvId DfirInvestigation) {phase : Phase}
    (hqueue : phase.queue = []) (h : ∀ queue, phase ≠ .working queue) :
    ProcOk rows ⟨fun _ => none, [], phase⟩ where
  idle _ _ := rfl
  objs _ _ ho := by cases ho
  writes _ hf := absurd hf List.not_mem_nil
  nodup _ hf := absurd hf List.not_mem_nil
  linked := trivial
  working queue hq := absurd hq (h queue)
  queue := by rw [hqueue]; exact List.nodup_nil

theorem World.Quiet.coherent {w : World} (h : w.Quiet) : Coherent w := fun p => by
  rw [h.procs p]
  exact procOk_empty _ rfl fun queue => by simp

/-- A coherent session stays so while the table keeps its rows and their kept columns. -/
theorem ProcOk.mono {rows' : Table InvId DfirInvestigation} {pr : Proc} (h : ProcOk rows pr)
    (hcopies : ∀ i o, Copies rows i o → Copies rows' i o) : ProcOk rows' pr where
  idle := h.idle
  objs i o ho := hcopies i o (h.objs i o ho)
  writes f hf wr hwr := ⟨(h.writes f hf wr hwr).1, hcopies _ _ (h.writes f hf wr hwr).2⟩
  nodup := h.nodup
  linked := h.linked
  working := h.working
  queue := h.queue

/-! ## Moves -/

section Moves

variable {cfg : Settings} {w : World} {p : Pid}

theorem copies_loaded (ids : List InvId) (hobjs : ∀ i o, objs i = some o → Copies w.rows i o) :
    ∀ i o, w.loaded objs ids i = some o → Copies w.rows i o := by
  intro i o ho
  rcases World.loaded_cases ho with ho | ⟨-, -, hrow⟩
  · exact hobjs i o ho
  · exact copies_of_get hrow

/-- A process that has nothing to commit and is in none of the two special phases. -/
theorem procOk_of_objs {phase : Phase}
    (hobjs : ∀ i o, objs i = some o → Copies w.rows i o) (hidle : phase ≠ .idle)
    (hworking : ∀ queue, phase ≠ .working queue) (hqueue : phase.queue.Nodup) :
    ProcOk w.rows ⟨objs, [], phase⟩ where
  idle h := absurd h hidle
  objs := hobjs
  writes _ hf := absurd hf List.not_mem_nil
  nodup _ hf := absurd hf List.not_mem_nil
  linked := trivial
  working queue hq := absurd hq (hworking queue)
  queue := hqueue

theorem procOk_of_flush {phase : Phase} {f : Flush}
    (hobjs : ∀ i o, objs i = some o → Copies w.rows i o)
    (hwrites : ∀ wr ∈ f.writes, objs wr.id = some wr.base ∧ Kept wr.base wr.cur)
    (hnodup : (f.writes.map Write.id).Nodup) (hidle : phase ≠ .idle)
    (hworking : ∀ queue, phase ≠ .working queue) (hqueue : phase.queue.Nodup) :
    ProcOk w.rows ⟨objs, [f], phase⟩ where
  idle h := absurd h hidle
  objs := hobjs
  writes g hg wr hwr := by
    rw [List.mem_singleton.mp hg] at hwr
    exact ⟨(hwrites wr hwr).2, hobjs _ _ (hwrites wr hwr).1⟩
  nodup g hg := by
    rw [List.mem_singleton.mp hg]
    exact hnodup
  linked := ⟨fun wr hwr => congrArg (Option.map butFlows) (hwrites wr hwr).1, trivial⟩
  working queue hq := absurd hq (hworking queue)
  queue := hqueue

theorem procOk_of_session {phase : Phase} {inv : DfirInvestigation}
    (hobjs : ∀ i o, objs i = some o → Copies w.rows i o) (hinv : objs i = some inv)
    (hlinks : Links butFlows inv l) (hkept : AllFlushes Kept l) (hidle : phase ≠ .idle)
    (hworking : ∀ queue, phase = .working queue → ∀ j ∈ queue, ∀ o, objs j = some o →
      o.externalOrchestrator = some .hermes) (hqueue : phase.queue.Nodup) :
    ProcOk w.rows ⟨objs, rowFlushes i tokens l, phase⟩ where
  idle h := absurd h hidle
  objs := hobjs
  writes f hf wr hwr := by
    obtain ⟨q, hq, hf, -⟩ := mem_rowFlushes hf
    rw [hf, List.mem_singleton] at hwr
    subst hwr
    have hcopies := Links.all (T := Copies w.rows i)
      (fun a b hab ha => ha.trans (kept_of_butFlows hab.symm)) (fun b c hbc hb => hb.trans hbc)
      hlinks hkept (hobjs i inv hinv) q hq
    exact ⟨hkept q hq, hcopies.1⟩
  nodup f hf := by
    obtain ⟨q, -, hf, -⟩ := mem_rowFlushes hf
    rw [hf]
    exact List.nodup_singleton _
  linked := linked_rowFlushes hlinks (congrArg (Option.map butFlows) hinv)
  working := hworking
  queue := hqueue

theorem nodup_selectLimit {q : DfirInvestigation → Sql.Truth} {n : ℕ}
    (hord : w.Ordered ord) : (w.selectLimit p q ord n).Nodup := nodup_limit hord.nodup _ _

theorem links_reconcile (cfg : Settings) (now : Time) (env : ReconcileEnv)
    (inv : DfirInvestigation) :
    Links butFlows inv (stateCheckDeepagentJob cfg now env inv).session.flushed := by
  rcases stateCheckDeepagentJob_cases cfg now env inv with h | ⟨c, h, -⟩
  · rw [h]; trivial
  · rw [h]; exact ⟨rfl, trivial⟩

theorem nodup_select {q : DfirInvestigation → Sql.Truth}
    (hord : w.Ordered ord) : (w.select p q ord).Nodup := hord.nodup.filter _

/-- **A move keeps its session coherent.** -/
theorem procOk_of_move {a : Move} {e : Effect} (hc : ProcOk w.rows (w.procs p))
    (h : World.MoveCase cfg w p a e) : ProcOk w.rows e.proc := by
  have hloaded := fun ids => copies_loaded ids hc.objs
  have hfirst : (w.procs p).phase = .idle → ∀ {i : InvId} {r : DfirInvestigation},
      w.rows.get i = some r → w.loaded (w.procs p).objs [i] i = some r := fun hphase i r hr => by
    rw [World.loaded_of_empty (hc.idle hphase) (List.mem_singleton_self i), hr]
  -- what is left of the loop after its first row
  have htail : ∀ {phase : Phase} {i : InvId} {queue : List InvId}, (w.procs p).phase = phase →
      phase.queue = i :: queue → queue.Nodup := fun hphase hq => by
    have := hc.queue
    rw [hphase, hq] at this
    exact (List.nodup_cons.mp this).2
  cases h with
  | tickStart hphase hord =>
    exact procOk_of_objs (hloaded _) (by simp) (by simp) (nodup_select hord)
  | reconcile env hphase hobj =>
    refine procOk_of_session hc.objs hobj (links_reconcile cfg w.clock env _)
      (fun q hq => ((reconcileWrite_of_mem hq).1 ▸ (reconcileWrite_of_mem hq).2.kept)) ?_ ?_ ?_
    · split <;> simp
    · split <;> simp
    · split
      · exact List.nodup_nil
      · exact htail hphase rfl
  | count hphase =>
    unfold World.countSlots
    dsimp only
    split
    · exact procOk_of_objs hc.objs (by simp) (by simp) List.nodup_nil
    · exact procOk_of_objs hc.objs (by simp) (by simp) List.nodup_nil
  | claim hphase hord =>
    refine procOk_of_flush (hloaded _) (fun wr hwr => ?_)
      (nodup_manyWrites (nodup_selectLimit hord)) (by simp) (by simp) (nodup_selectLimit hord)
    obtain ⟨-, hbase, hcur⟩ := mem_manyWrites hwr
    refine ⟨hbase, ?_⟩
    rw [hcur]
    exact ⟨rfl, rfl, rfl, rfl⟩
  | prepareFailed exc later hphase hobj =>
    refine procOk_of_flush hc.objs (fun wr hwr => ?_) (List.nodup_singleton _) (by simp) (by simp)
      (htail hphase rfl)
    rw [List.mem_singleton.mp hwr]
    exact ⟨hobj, rfl, rfl, rfl, rfl⟩
  | prepared hphase hobj =>
    refine procOk_of_flush hc.objs (fun wr hwr => ?_) (List.nodup_singleton _) (by simp) (by simp)
      ?_
    · rw [List.mem_singleton.mp hwr]
      exact ⟨hobj, rfl, rfl, rfl, rfl⟩
    · have := hc.queue
      rwa [hphase] at this
  | send hphase =>
    refine procOk_of_objs hc.objs (by simp) (by simp) ?_
    have := hc.queue
    rwa [hphase] at this
  | outcome env hphase hobj =>
    refine procOk_of_session hc.objs hobj ?_
      (fun q hq => ((outcomeWrite_of_mem hq).1 ▸ (outcomeWrite_of_mem hq).2.kept))
      (by simp) (by simp) (htail hphase rfl)
    obtain ⟨c, hs, -⟩ := dispatchOutcome_cases _ env _
    rw [hs]
    exact ⟨rfl, trivial⟩
  | selectLocal hphase hord =>
    refine ⟨by simp, hloaded _, by simp, by simp, trivial, fun queue hq i hi o ho => ?_,
      nodup_selectLimit hord⟩
    rw [← Phase.working.inj hq] at hi
    obtain ⟨r, hr, hkeeps⟩ := World.keeps_iff.mp (World.of_mem_selectLimit hi).2.1
    obtain ⟨r', hr', hkept⟩ := hloaded _ i o ho
    rw [hr] at hr'
    rw [hkept.externalOrchestrator, ← Option.some.inj hr']
    exact ((holds_localWhere r).mp hkeeps).2
  | @process i queue inv env hphase hobj =>
    have hhermes := hc.working _ hphase i List.mem_cons_self inv hobj
    have hok := localBoundary_ok env.later
      (processOne_local cfg i w.clock env (by rw [hhermes]; simp))
    refine procOk_of_session hc.objs hobj hok.links (fun q hq => (hok.all q hq).kept) (by simp) ?_
      (htail hphase rfl)
    intro queue' hq j hj o ho
    rw [← Phase.working.inj hq] at hj
    exact hc.working _ hphase j (List.mem_cons_of_mem _ hj) o ho
  | callback hphase hfree hrow hok =>
    refine procOk_of_flush (hloaded _) (fun wr hwr => ?_) (List.nodup_singleton _) (by simp)
      (by simp) List.nodup_nil
    rw [List.mem_singleton.mp hwr]
    refine ⟨hfirst hphase hrow, ?_⟩
    obtain ⟨-, -, ⟨-, rfl, -⟩ | ⟨-, rfl, -⟩⟩ := submitExternalResult_cases hok
    · exact Kept.refl _
    · exact kept_record _ _ _
  | status hphase hfree hrow hok =>
    refine procOk_of_flush (hloaded _) (fun wr hwr => ?_) (List.nodup_singleton _) (by simp)
      (by simp) List.nodup_nil
    rw [List.mem_singleton.mp hwr]
    refine ⟨hfirst hphase hrow, ?_⟩
    rw [(updateInvestigationStatus_cases hok).1]
    exact ⟨rfl, rfl, rfl, rfl⟩
  | stop hphase hrow hok =>
    refine procOk_of_flush (hloaded _) (fun wr hwr => ?_) (List.nodup_singleton _) (by simp)
      (by simp) List.nodup_nil
    rw [List.mem_singleton.mp hwr]
    refine ⟨hfirst hphase hrow, ?_⟩
    rw [(stopInvestigation_cases hok).2]
    exact ⟨rfl, rfl, rfl, rfl⟩
  | poll hphase =>
    unfold World.poll
    split
    · exact procOk_of_objs hc.objs (by simp) (by simp) List.nodup_nil
    · exact procOk_of_objs hc.objs (by simp) (by simp) List.nodup_nil
  | pollSelect hphase hord hids =>
    refine procOk_of_objs (hloaded _) (by simp) (by simp) ?_
    rw [hids]
    exact nodup_selectLimit hord
  | pollStamp hphase =>
    have hnodup := hc.queue
    rw [hphase] at hnodup
    refine procOk_of_flush hc.objs (fun wr hwr => ?_) (nodup_manyWrites hnodup) (by simp)
      (by simp) List.nodup_nil
    obtain ⟨-, hbase, hcur⟩ := mem_manyWrites hwr
    refine ⟨hbase, ?_⟩
    rw [hcur]
    exact ⟨rfl, rfl, rfl, rfl⟩
  | chat hphase =>
    unfold World.chat
    split
    · exact procOk_of_objs hc.objs (by simp) (by simp) List.nodup_nil
    · exact procOk_of_objs hc.objs (by simp) (by simp) List.nodup_nil
  | chatReply hphase =>
    exact procOk_of_flush hc.objs (fun wr hwr => absurd hwr List.not_mem_nil) List.nodup_nil
      (by simp) (by simp) List.nodup_nil
  | _ => exact procOk_of_objs hc.objs (by simp) (by simp) List.nodup_nil

end Moves

/-! ## Commits and runs -/

section Steps

variable {cfg : Settings} {w w' : World} {p : Pid}

theorem kept_rowsAfter {ws : List Write}
    (hnodup : (ws.map Write.id).Nodup) (hkept : ∀ wr ∈ ws, Kept wr.base wr.cur)
    {r' : DfirInvestigation} (h : (rowsAfter rows ws).get i = some r') :
    ∃ r, rows.get i = some r ∧ Kept r r' := by
  rcases rowsAfter_cases hnodup h with ⟨wr, hwr, rfl, r, hr, rfl⟩ | ⟨-, hr⟩
  · exact ⟨r, hr, (hkept wr hwr).writeBack r⟩
  · exact ⟨r', hr, Kept.refl r'⟩

theorem copies_rowsAfter {ws : List Write}
    (hnodup : (ws.map Write.id).Nodup) (hkept : ∀ wr ∈ ws, Kept wr.base wr.cur)
    {o : DfirInvestigation} (h : Copies rows i o) : Copies (rowsAfter rows ws) i o := by
  obtain ⟨r, hr, hro⟩ := h
  obtain ⟨r', hr'⟩ := exists_get_rowsAfter ws hr
  obtain ⟨r₀, hr₀, hkept'⟩ := kept_rowsAfter hnodup hkept hr'
  rw [hr] at hr₀
  obtain rfl := Option.some.inj hr₀
  exact ⟨r', hr', hkept'.symm.trans hro⟩

/-- **A commit keeps its session coherent.** -/
theorem procOk_of_commit {pr : Proc} {f : Flush}
    {rest : List Flush} (hc : ProcOk rows pr) (htodo : pr.todo = f :: rest) :
    ProcOk (rowsAfter rows f.writes) ⟨objsAfter pr.objs f.writes, rest, pr.phase⟩ := by
  have hmem : f ∈ pr.todo := by rw [htodo]; exact List.mem_cons_self
  have hrest : ∀ g ∈ rest, g ∈ pr.todo := fun g hg => by
    rw [htodo]; exact List.mem_cons_of_mem _ hg
  have hcopies : ∀ i o, Copies rows i o → Copies (rowsAfter rows f.writes) i o := fun i o h =>
    copies_rowsAfter (hc.nodup f hmem) (fun wr hwr => (hc.writes f hmem wr hwr).1) h
  have hlinked := hc.linked
  rw [htodo] at hlinked
  -- a written object was in the session before, up to its flows
  have hbefore : ∀ wr ∈ f.writes, ∃ o, pr.objs wr.id = some o ∧ o.butFlows = wr.base.butFlows :=
    fun wr hwr => by simpa using hlinked.1 wr hwr
  refine ⟨fun hidle i => ?_, fun i o ho => ?_, fun g hg wr hwr => ?_, fun g hg => ?_, hlinked.2,
    fun queue hq i hi o ho => ?_, hc.queue⟩
  · cases ho : objsAfter pr.objs f.writes i with
    | none => exact ho
    | some o =>
      rcases objsAfter_cases ho with ⟨wr, hwr, -, -⟩ | ⟨-, ho'⟩
      · obtain ⟨o', ho', -⟩ := hbefore wr hwr
        rw [hc.idle hidle] at ho'
        cases ho'
      · rw [hc.idle hidle] at ho'
        cases ho'
  · rcases objsAfter_cases ho with ⟨wr, hwr, rfl, rfl⟩ | ⟨-, ho'⟩
    · obtain ⟨hkept, hbase⟩ := hc.writes f hmem wr hwr
      exact (hcopies _ _ hbase).trans hkept
    · exact hcopies i o (hc.objs i o ho')
  · obtain ⟨hkept, hbase⟩ := hc.writes g (hrest g hg) wr hwr
    exact ⟨hkept, hcopies _ _ hbase⟩
  · exact hc.nodup g (hrest g hg)
  · rcases objsAfter_cases ho with ⟨wr, hwr, rfl, rfl⟩ | ⟨-, ho'⟩
    · obtain ⟨o', ho', hbut⟩ := hbefore wr hwr
      rw [(hc.writes f hmem wr hwr).1.externalOrchestrator,
        (kept_of_butFlows hbut).externalOrchestrator]
      exact hc.working queue hq _ hi o' ho'
    · exact hc.working queue hq i hi o ho'

/-- **Coherence is preserved** by every step. -/
theorem coherent_step {a : Action} (hc : Coherent w) (h : step cfg w a = some w') :
    Coherent w' := by
  cases step_cases h with
  | advance d => exact hc
  | created hnew hfresh =>
    intro q
    refine (hc q).mono fun i o hio => ?_
    obtain ⟨r, hr, hro⟩ := hio
    exact ⟨r, Table.get_insert_of_get hr, hro⟩
  | refused => exact hc
  | @move p m e htodo hmove =>
    exact forall_procs_update (I := fun _ pr => ProcOk w.rows pr) (procOk_of_move (hc p) hmove)
      fun q _ => hc q
  | @commit p f rest htodo hfree =>
    refine forall_procs_update (I := fun _ pr => ProcOk (rowsAfter w.rows f.writes) pr)
      (procOk_of_commit (hc p) htodo) fun q _ => ?_
    have hmem : f ∈ (w.procs p).todo := by rw [htodo]; exact List.mem_cons_self
    exact (hc q).mono fun i o =>
      copies_rowsAfter ((hc p).nodup f hmem) fun wr hwr => ((hc p).writes f hmem wr hwr).1
  | close p =>
    exact forall_procs_update (I := fun _ pr => ProcOk w.rows pr) (procOk_empty _ rfl (by simp))
      fun q _ => hc q

/-- **Every session of a run is coherent.** -/
theorem coherent_of_runs {G : World → Action → Prop} (hw : Coherent w)
    (h : Runs (step cfg) G w w') : Coherent w' :=
  h.invariant (fun _ _ _ hs _ hstep => coherent_step hs hstep) hw

end Steps

end AssetInventory
