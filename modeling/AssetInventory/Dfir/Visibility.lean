import AssetInventory.Dfir.Terminal

/-!
# Which query sees a row

The tick divides the active investigations among three queries: the DeepAgent rows to reconcile, the
DeepAgent rows to claim, and the rest.  The division is exact for the rows that have an orchestrator.
A row without one, which is how an investigation of the local LLM is stored, is kept by none of
them: `NULL <> 'deepagent'` is unknown.

* `exactlyOne`: one of the three queries keeps the row.
* `Placed`: no DeepAgent row is running or collecting, the two states neither DeepAgent query asks
  for.  `placed_of_runs` is the invariant.
* `exactlyOne_iff`: the exact condition.
* `local_row_invisible`: a row no query sees.
-/

namespace AssetInventory

open PyJson PyTime Orm DfirInvestigation RowStore Interleaving

/-- Exactly one of the tick's three row queries keeps the row. -/
def exactlyOne (r : DfirInvestigation) : Prop :=
  ([reconcileWhere r, claimWhere r, localWhere r].countP fun t => Sql.holds t) = 1

instance (r : DfirInvestigation) : Decidable (exactlyOne r) := by
  unfold exactlyOne
  infer_instance

/-- The two states of the local collection. -/
def Status.isCollection : Status → Bool
  | .running | .collecting => true
  | _ => false

/-- A DeepAgent row is in no state of the local collection. -/
def Placed (r : DfirInvestigation) : Prop :=
  r.externalOrchestrator = some .deepagent → r.status.isCollection = false

/-- **The division of the active rows.**  On a placed row the three queries are exact if and only if
the orchestrator is known. -/
theorem exactlyOne_iff_of_placed {r : DfirInvestigation} (hplaced : Placed r)
    (hactive : r.status.isTerminal = false) : exactlyOne r ↔ r.externalOrchestrator ≠ none := by
  have hrec : Sql.holds (reconcileWhere r) =
      decide (r.externalOrchestrator = some .deepagent ∧ r.status = .analyzing) := by
    rw [Bool.eq_iff_iff, holds_reconcileWhere, decide_eq_true_iff]
  have hclaim : Sql.holds (claimWhere r) =
      decide (r.externalOrchestrator = some .deepagent ∧ r.status = .pending) := by
    rw [Bool.eq_iff_iff, holds_claimWhere, decide_eq_true_iff]
  have hlocal : Sql.holds (localWhere r) =
      decide (r.status.isTerminal = false ∧ r.externalOrchestrator = some .hermes) := by
    rw [Bool.eq_iff_iff, holds_localWhere, decide_eq_true_iff]
  unfold exactlyOne
  rw [List.countP_cons, List.countP_cons, List.countP_cons, List.countP_nil, hrec, hclaim, hlocal]
  cases ho : r.externalOrchestrator with
  | none => simp
  | some o =>
    cases o with
    | hermes => simp [hactive]
    | deepagent =>
      -- the states left are the two the DeepAgent queries ask for
      have hstate := hplaced ho
      cases hs : r.status <;> simp_all [Status.isTerminal, Status.isCollection]

/-! ## No DeepAgent row is collected -/

/-- The writes of a session leave DeepAgent rows placed. -/
def PlacedWrites (pr : Proc) : Prop :=
  ∀ f ∈ pr.todo, ∀ wr ∈ f.writes, wr.base.externalOrchestrator = some .deepagent →
    wr.cur.status = wr.base.status ∨ wr.cur.status.isCollection = false

/-- All rows are placed, and stay so. -/
structure AllPlaced (w : World) : Prop where
  rows : ∀ i r, w.rows.get i = some r → Placed r
  writes : ∀ p, PlacedWrites (w.procs p)

theorem World.Quiet.allPlaced {w : World} (h : w.Quiet) (hrows : ∀ i r, w.rows.get i = some r →
    Placed r) : AllPlaced w := ⟨hrows, fun p f hf => by
  rw [h.procs p] at hf
  exact absurd hf List.not_mem_nil⟩

section Steps

variable {cfg : Settings} {w w' : World} {p : Pid} {objs : InvId → Option DfirInvestigation}

theorem placedWrites_of_one {phase : Phase} {i : InvId}
    {b c : DfirInvestigation} {tokens : Option TokenWrite} {reply : Option Reply}
    (h : c.status = b.status ∨ c.status.isCollection = false) :
    PlacedWrites ⟨objs, [⟨[⟨i, b, c⟩], tokens, reply⟩], phase⟩ := by
  intro f hf wr hwr _
  rw [List.mem_singleton.mp hf, List.mem_singleton] at hwr
  subst hwr
  exact h

theorem placedWrites_of_session {phase : Phase} {i : InvId} {tokens : Option TokenWrite}
    {l : List (DfirInvestigation × DfirInvestigation)}
    (h : ∀ q ∈ l, q.2.status = q.1.status ∨ q.2.status.isCollection = false) :
    PlacedWrites ⟨objs, rowFlushes i tokens l, phase⟩ := by
  intro f hf wr hwr _
  obtain ⟨q, hq, hf, -⟩ := mem_rowFlushes hf
  rw [hf, List.mem_singleton] at hwr
  subst hwr
  exact h q hq

theorem placedWrites_of_move {a : Move} {e : Effect} (hc : ProcOk w.rows (w.procs p))
    (h : World.MoveCase cfg w p a e) : PlacedWrites e.proc := by
  have hok := procOk_of_move hc h
  have hnone : ∀ (objs : InvId → Option DfirInvestigation) (phase : Phase),
      PlacedWrites ⟨objs, [], phase⟩ := fun _ _ f hf => absurd hf List.not_mem_nil
  cases h with
  | reconcile env hphase hobj =>
    refine placedWrites_of_session fun q hq => ?_
    obtain ⟨hbase, hwrite⟩ := reconcileWrite_of_mem hq
    rcases hwrite.status with hs | hs | hs
    · exact Or.inl (by rw [hs, hbase])
    · exact Or.inr (by rw [hs]; rfl)
    · exact Or.inr (by rw [hs]; rfl)
  | claim hphase hord =>
    intro f hf wr hwr _
    rw [List.mem_singleton.mp hf] at hwr
    rw [(mem_manyWrites hwr).2.2]
    exact Or.inl rfl
  | prepareFailed => exact placedWrites_of_one (Or.inr rfl)
  | prepared => exact placedWrites_of_one (Or.inr rfl)
  | outcome env hphase hobj =>
    refine placedWrites_of_session fun q hq => ?_
    obtain ⟨hbase, hwrite⟩ := outcomeWrite_of_mem hq
    rcases hwrite.status with hs | hs
    · exact Or.inl (by rw [hs, hbase])
    · exact Or.inr (by rw [hs]; rfl)
  | @process i queue inv env hphase hobj =>
    -- the row belongs to Hermes
    intro f hf wr hwr hdeep
    have hhermes := hc.working _ hphase i List.mem_cons_self inv hobj
    obtain ⟨r, hr, hkept⟩ := (hok.writes f hf wr hwr).2
    obtain ⟨r', hr', hkept'⟩ := hc.objs i inv hobj
    obtain ⟨q, -, hf, -⟩ := mem_rowFlushes hf
    rw [hf, List.mem_singleton] at hwr
    subst hwr
    rw [hr] at hr'
    rw [hkept.externalOrchestrator, Option.some.inj hr', ← hkept'.externalOrchestrator,
      hhermes] at hdeep
    cases hdeep
  | @callback i inv call eff hphase hfree hrow hok' =>
    refine placedWrites_of_one (Or.inr ?_)
    have hterm := CallbackEffect.row_isTerminal hok'
    cases hs : eff.row.status <;> simp_all [Status.isTerminal, Status.isCollection]
  | status hphase hfree hrow hok' =>
    refine placedWrites_of_one (Or.inl ?_)
    rw [(updateInvestigationStatus_cases hok').1]
    rfl
  | stop hphase hrow hok' =>
    refine placedWrites_of_one (Or.inr ?_)
    rw [(stopInvestigation_cases hok').2]
    rfl
  | pollStamp hphase =>
    intro f hf wr hwr _
    rw [List.mem_singleton.mp hf] at hwr
    rw [(mem_manyWrites hwr).2.2]
    exact Or.inl rfl
  | chatReply hphase =>
    intro f hf wr hwr
    rw [List.mem_singleton.mp hf] at hwr
    exact absurd hwr List.not_mem_nil
  | count =>
    unfold World.countSlots
    dsimp only
    split
    · exact hnone _ _
    · exact hnone _ _
  | poll =>
    unfold World.poll
    exact hnone _ _
  | chat =>
    unfold World.chat
    split
    · exact hnone _ _
    · exact hnone _ _
  | _ => exact hnone _ _

theorem allPlaced_step {a : Action} (hc : Coherent w) (hs : AllPlaced w)
    (h : step cfg w a = some w') : AllPlaced w' := by
  cases step_cases h with
  | advance d => exact ⟨hs.rows, hs.writes⟩
  | created hnew hfresh =>
    refine ⟨fun j s hs' => ?_, hs.writes⟩
    rcases Table.get_insert_cases hs' with ⟨-, rfl, -⟩ | hs'
    · intro _
      rw [hfresh.status]
      rfl
    · exact hs.rows j s hs'
  | refused => exact hs
  | @move p m e htodo hmove =>
    exact ⟨hs.rows, forall_procs_update (I := fun _ pr => PlacedWrites pr)
      (placedWrites_of_move (hc p) hmove) fun q _ => hs.writes q⟩
  | @commit p f rest htodo hfree =>
    have hmem : f ∈ (w.procs p).todo := by rw [htodo]; exact List.mem_cons_self
    refine ⟨fun i r' hr' => ?_, forall_procs_update (I := fun _ pr => PlacedWrites pr)
      (fun g hg => hs.writes p g (by rw [htodo]; exact List.mem_cons_of_mem _ hg))
      fun q _ => hs.writes q⟩
    · rcases rowsAfter_cases ((hc p).nodup f hmem) hr' with ⟨wr, hwr, rfl, r, hr, rfl⟩ | ⟨-, hr⟩
      · obtain ⟨hkept, r₀, hr₀, hbase⟩ := (hc p).writes f hmem wr hwr
        rw [hr] at hr₀
        obtain rfl := Option.some.inj hr₀
        intro hdeep
        rw [(hkept.writeBack r).externalOrchestrator] at hdeep
        rw [status_writeBack]
        rcases pick_cases wr.base.status wr.cur.status r.status with ⟨-, hp⟩ | ⟨hne, hp⟩
        · rw [hp]
          exact hs.rows wr.id r hr hdeep
        · rw [hp]
          exact (hs.writes p f hmem wr hwr
            (hbase.externalOrchestrator.trans hdeep)).resolve_left hne
      · exact hs.rows i r' hr
  | close p =>
    exact ⟨hs.rows, forall_procs_update (I := fun _ pr => PlacedWrites pr)
      (fun f hf => absurd hf List.not_mem_nil) fun q _ => hs.writes q⟩

/-- **The rows of a run are placed.** -/
theorem allPlaced_of_runs {G : World → Action → Prop} (hc : Coherent w) (hs : AllPlaced w)
    (h : Runs (step cfg) G w w') : AllPlaced w' :=
  (h.invariant (I := fun w => Coherent w ∧ AllPlaced w)
    (fun _ _ _ hI _ hstep => ⟨coherent_step hI.1 hstep, allPlaced_step hI.1 hI.2 hstep⟩)
    ⟨hc, hs⟩).2

end Steps

/-! ## Reachable tables -/

theorem emptyWorld_quiet : emptyWorld.Quiet := World.quiet_start 0 Table.empty 0

/-- **Every active row of a reachable table** is seen by exactly one query if and only if it has an
orchestrator. -/
theorem exactlyOne_iff (cfg : Settings) {w : World}
    (hrun : Runs (step cfg) anyAction emptyWorld w) {i : InvId} {r : DfirInvestigation}
    (hr : w.rows.get i = some r) (hactive : r.status.isTerminal = false) :
    exactlyOne r ↔ r.externalOrchestrator ≠ none :=
  exactlyOne_iff_of_placed
    ((allPlaced_of_runs emptyWorld_quiet.coherent
      (emptyWorld_quiet.allPlaced fun _ _ h => by cases h) hrun).rows i r hr) hactive

theorem exactlyOne_dispatched :
    ∃ w r, Runs (step (sampleSettings 12)) anyAction emptyWorld w ∧ w.rows.get "1" = some r ∧
      r.status = .analyzing ∧ exactlyOne r := by
  obtain ⟨w, hw, hrow⟩ :=
    exists_runs_of_exec (G := anyAction) (step (sampleSettings 12)) emptyWorld
      ([requestNew "1" "deepagent", .move 0 (.tickStart ["1"]), .move 0 .count,
        .move 0 (.claim ["1"]), .commit 0] ++ dispatchOne 0 readTimeout)
      (p := fun w => (w.rows.get "1").any fun r : DfirInvestigation =>
        decide (r.status = .analyzing ∧ r.externalOrchestrator = some .deepagent))
      (by decide +kernel)
  rw [Option.any_eq_true] at hrow
  obtain ⟨r, hr, hstate⟩ := hrow
  rw [decide_eq_true_eq] at hstate
  refine ⟨w, r, hw, hr, hstate.1, ?_⟩
  exact (exactlyOne_iff (sampleSettings 12) hw hr (by rw [hstate.1]; rfl)).mpr
    (by rw [hstate.2]; simp)

/-- **An investigation of the local LLM is invisible.**  It is stored without orchestrator, pending,
and no query of a tick keeps it. -/
theorem local_row_invisible : ¬ ∀ (w : World) (i : InvId) (r : DfirInvestigation),
      Runs (step (sampleSettings 12)) anyAction emptyWorld w → w.rows.get i = some r →
      r.status.isTerminal = false → exactlyOne r := by
  intro h
  obtain ⟨w, hw, hrow⟩ :=
    exists_runs_of_exec (G := anyAction) (step (sampleSettings 12)) emptyWorld [requestNew "1" ""]
      (p := fun w => (w.rows.get "1").any fun r : DfirInvestigation =>
        decide (r.status = .pending ∧ ¬ exactlyOne r))
      (by decide +kernel)
  rw [Option.any_eq_true] at hrow
  obtain ⟨r, hr, hstate⟩ := hrow
  rw [decide_eq_true_eq] at hstate
  exact hstate.2 (h w "1" r hw hr (by rw [hstate.1]; rfl))

end AssetInventory
