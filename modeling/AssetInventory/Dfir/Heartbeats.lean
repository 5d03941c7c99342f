import Mathlib.Data.Int.ConditionallyCompleteOrder
import Mathlib.Data.Prod.Lex
import Mathlib.Order.ConditionallyCompleteLattice.Basic
import Mathlib.Order.WithBot
import AssetInventory.Dfir.ExactlyOnce

/-!
# Progress never goes backwards

An accepted status callback is a *heartbeat*.  The next one is compared with what `hermes_response`
then holds.  That is the last heartbeat, as long as no one else writes the column; and it is read with
`-1` for an absent value and for a zero, so that a step back at zero is not seen.

* `StatusBody.rank`, `Follows`: the order that heartbeats should respect.
* `Hides`: the step backs that the sentinels hide.  `accepts_iff` says that a heartbeat accepts
  exactly what follows it, and those.
* `heartbeats`: the heartbeats of the current dispatch.
* `Orderly`: the condition on a commit.
* `progress_monotone`: in a run of such commits, every heartbeat follows the ones before it.
* `progress_regresses`: the two ways in which it does not.
-/

namespace AssetInventory

open PyJson PyTime Orm DfirInvestigation RowStore Interleaving

/-! ## The order of heartbeats -/

/-- A step, or no step, which is below every step. -/
def stepRank : Option ℤ → WithBot ℤ
  | none => ⊥
  | some n => n

/-- The order of the phase, the progress and the step, compared in this order. -/
def StatusBody.rank (b : StatusBody) : ℤ ×ₗ ℤ ×ₗ WithBot ℤ :=
  toLex (currentOrder b, toLex (b.progressPercent, stepRank b.currentStep))

/-- **Progress.**  Neither the progress nor the rank has become smaller. -/
def Follows (newer older : StatusBody) : Prop :=
  older.progressPercent ≤ newer.progressPercent ∧ older.rank ≤ newer.rank

instance (newer older : StatusBody) : Decidable (Follows newer older) := by
  unfold Follows
  infer_instance

variable {b b' body : StatusBody}

theorem Follows.trans {c d : StatusBody} (hcd : Follows d c) (hbc : Follows c b) : Follows d b :=
  ⟨hbc.1.trans hcd.1, hbc.2.trans hcd.2⟩

/-- What the comparison does not see: nothing comes after a phase that is not in the table, a
progress of zero is behind every step, and the step zero is no step. -/
def Hides (older newer : StatusBody) : Prop :=
  statusPhaseOrder older.phase = none ∨
    currentOrder older = currentOrder newer ∧
      older.progressPercent = newer.progressPercent ∧
      (older.progressPercent = 0 ∨ older.currentStep = some 0 ∧ newer.currentStep = none)

instance (older newer : StatusBody) : Decidable (Hides older newer) := by
  unfold Hides
  infer_instance

/-! ## What a heartbeat accepts -/

section Accepts

/-- What a later status callback is compared with after this one. -/
def StatusBody.readBack (b : StatusBody) : Previous where
  phase := .str b.phase
  progress := .num (stepOrMinusOne (some b.progressPercent) : ℤ)
  step := .num (stepOrMinusOne b.currentStep : ℤ)

/-- **What is read back from a heartbeat.** -/
theorem previousOf_statusResponse (t : Time) (b : StatusBody) :
    previousOf (some (statusResponse t b)) = b.readBack := by
  have hread : ∀ n : ℤ,
      (Json.num (n : ℚ)).orElse (.num (-1)) = .num ((stepOrMinusOne (some n) : ℤ) : ℚ) := by
    intro n
    by_cases hn : n = 0
    · simp [Json.orElse, stepOrMinusOne, hn]
    · simp [Json.orElse, stepOrMinusOne, hn]
  change Previous.mk _ ((Json.num _).orElse _)
    (Json.orElse ((b.currentStep.map fun n => Json.num n).getD .null) _) = _
  rw [hread, StatusBody.readBack]
  congr 1
  cases b.currentStep with
  | none => rfl
  | some n => exact hread n

theorem tupleLt_int (m p s m' p' s' : ℤ) :
    tupleLt m (p : ℚ) (s : ℚ) m' (.num (p' : ℚ)) (.num (s' : ℚ)) =
      some (decide (m < m' ∨ m = m' ∧ (p < p' ∨ p = p' ∧ s < s'))) := by
  unfold tupleLt
  by_cases hm : m = m'
  · by_cases hp : p = p'
    · by_cases hs : s = s'
      · simp [hm, hp, hs]
      · simp [hm, hp, Ne.symm hs]
    · simp [hm, hp, Ne.symm hp]
  · simp [hm]

/-- A heartbeat accepts what does not lie before its triple as it is read back. -/
theorem stepBack_readBack (b b' : StatusBody) : stepBack b.readBack b' = some false ↔
      stepOrMinusOne (some b.progressPercent) ≤ b'.progressPercent ∧
        ¬(currentOrder b' < (statusPhaseOrder b.phase).getD (-1) ∨
          currentOrder b' = (statusPhaseOrder b.phase).getD (-1) ∧
            (b'.progressPercent < stepOrMinusOne (some b.progressPercent) ∨
              b'.progressPercent = stepOrMinusOne (some b.progressPercent) ∧
                stepOrMinusOne b'.currentStep < stepOrMinusOne b.currentStep)) := by
  unfold stepBack StatusBody.readBack
  simp only [previousOrder, ltNum_num, tupleLt_int, Option.bind_eq_bind, Option.bind_some,
    Int.cast_lt]
  by_cases hless : b'.progressPercent < stepOrMinusOne (some b.progressPercent)
  · simp [hless]
  · simp [hless, not_lt.mp hless]

theorem currentOrder_nonneg (b : StatusBody) : 0 ≤ currentOrder b := by
  unfold currentOrder statusPhaseOrder
  split <;> simp

theorem currentOrder_of_known {o : ℤ} (h : statusPhaseOrder b.phase = some o) :
    currentOrder b = o := by
  rw [currentOrder, h]
  rfl

theorem rank_le_iff : b.rank ≤ b'.rank ↔ currentOrder b < currentOrder b' ∨
      currentOrder b = currentOrder b' ∧ (b.progressPercent < b'.progressPercent ∨
        b.progressPercent = b'.progressPercent ∧
          stepRank b.currentStep ≤ stepRank b'.currentStep) := by
  rw [StatusBody.rank, StatusBody.rank, Prod.Lex.toLex_le_toLex]
  dsimp only
  rw [Prod.Lex.toLex_le_toLex]

/-- The sentinel keeps the order of the steps, but does not tell the step zero from none. -/
theorem stepOrMinusOne_lt_iff {s s' : Option ℤ} (hs : ∀ n, s = some n → 0 ≤ n)
    (hs' : ∀ n, s' = some n → 0 ≤ n) : stepOrMinusOne s' < stepOrMinusOne s ↔
      ¬stepRank s ≤ stepRank s' ∧ ¬(s = some 0 ∧ s' = none) := by
  cases s with
  | none =>
    cases s' with
    | none => simp [stepRank]
    | some n' =>
      have hn' := hs' n' rfl
      simp only [stepOrMinusOne, stepRank, bot_le, not_true_eq_false, false_and, iff_false, not_lt]
      split
      · exact le_refl _
      · omega
  | some n =>
    have hn := hs n rfl
    cases s' with
    | none =>
      simp only [stepOrMinusOne, stepRank, WithBot.not_coe_le_bot, not_false_eq_true, true_and,
        Option.some.injEq, and_true]
      split
      · omega
      · omega
    | some n' =>
      have hn' := hs' n' rfl
      simp only [stepOrMinusOne, stepRank, WithBot.coe_le_coe, not_le, reduceCtorEq, and_false,
        not_false_eq_true, and_true]
      split
      · split
        · omega
        · omega
      · split
        · omega
        · omega

/-- **What a heartbeat accepts**: what follows it, and the step backs it does not see. -/
theorem accepts_iff (hb : b.Valid) (hb' : b'.Valid) : stepBack b.readBack b' = some false ↔
      b.progressPercent ≤ b'.progressPercent ∧ (b.rank ≤ b'.rank ∨ Hides b b') := by
  have hq := hb.progress.1
  have hq' := hb'.progress.1
  have hread : stepOrMinusOne (some b.progressPercent) =
      if b.progressPercent = 0 then -1 else b.progressPercent := rfl
  have hnonneg := currentOrder_nonneg b'
  rw [stepBack_readBack, stepOrMinusOne_lt_iff hb.step hb'.step, rank_le_iff, hread, Hides]
  cases hk : statusPhaseOrder b.phase with
  | none =>
    -- the rank read back is below every rank
    have hlow : ∀ P : Prop, ¬(currentOrder b' < -1 ∨ currentOrder b' = -1 ∧ P) := by
      rintro P (hlt | ⟨heq, -⟩)
      · omega
      · omega
    simp only [Option.getD_none, hlow, true_or, or_true, and_true, not_false_eq_true]
    split
    · omega
    · exact Iff.rfl
  | some o =>
    rw [Option.getD_some, ← currentOrder_of_known hk]
    simp only [reduceCtorEq, false_or]
    by_cases hz : b.progressPercent = 0
    · simp only [hz, if_true]
      grind
    · simp only [hz, if_false]
      grind

end Accepts

/-! ## The heartbeats of a dispatch -/

/-- The write starts the row again: it sets a new start, or returns the row to the queue. -/
def Write.Restarts (wr : Write) : Prop :=
  wr.cur.startedAt ≠ wr.base.startedAt ∨ wr.cur = requeueInterrupted wr.base ∨
    wr.cur = requeueMissing wr.base

instance (wr : Write) : Decidable wr.Restarts := by
  unfold Write.Restarts
  infer_instance

/-- The writes start the row again. -/
def restarts (i : InvId) (writes : List Write) : Bool :=
  writes.any fun wr => decide (wr.id = i ∧ wr.Restarts)

/-- The status callback that a reply accepts. -/
def Reply.heartbeat? (i : InvId) : Reply → Option StatusBody
  | .reported j body (.ok true) => if j = i then some body else none
  | _ => none

/-- The accepted status callbacks of the current dispatch of a row, newest first. -/
def heartbeats (i : InvId) : List Event → List StatusBody
  | [] => []
  | .committed _ writes _ :: log => if restarts i writes then [] else heartbeats i log
  | .replied reply :: log => (reply.heartbeat? i).toList ++ heartbeats i log
  | .sent _ _ :: log => heartbeats i log

theorem heartbeats_committed (i : InvId) (w : World) (p : Pid) (f : Flush) (rest : List Flush) :
    heartbeats i (w.committed p f rest).log = (f.reply.bind (Reply.heartbeat? i)).toList ++
      if restarts i f.writes then [] else heartbeats i w.log := by
  change heartbeats i (f.reply.toList.map Event.replied ++ _) = _
  cases f.reply with
  | none => rfl
  | some reply => rfl

theorem heartbeats_moved (i : InvId) {cfg : Settings} {w : World} {p : Pid} {a : Move} {e : Effect}
    (h : World.MoveCase cfg w p a e) : heartbeats i (w.moved p e).log = heartbeats i w.log := by
  change heartbeats i (e.said ++ w.log) = _
  cases h with
  | statusRefused reply _ hreply =>
    cases reply with
    | error e => rfl
    | ok accepted =>
      cases accepted with
      | false => rfl
      | true => exact absurd rfl hreply
  | chat =>
    unfold World.chat
    split
    · rfl
    · rfl
  | _ => rfl

/-! ## The condition -/

instance (b : StatusBody) : Decidable b.Valid :=
  decidable_of_iff
    ((1 ≤ b.phase.length ∧ b.phase.length ≤ 64) ∧
      (0 ≤ b.progressPercent ∧ b.progressPercent ≤ 100) ∧ (∀ n ∈ b.currentStep, 0 ≤ n) ∧
      (∀ n ∈ b.totalSteps, 0 ≤ n) ∧ ∀ m ∈ b.message, m.length ≤ 1000)
    ⟨fun h => ⟨h.1, h.2.1, h.2.2.1, h.2.2.2.1, h.2.2.2.2⟩,
      fun h => ⟨h.phase, h.progress, h.step, h.total, h.message⟩⟩

/-- What a commit may do to a row whose last heartbeat is `b`, if it does not start the row again. -/
structure OrderlyWrite (w : World) (f : Flush) (b : StatusBody) (wr : Write) : Prop where
  /-- A tick does not write the response: only a callback does. -/
  response : f.reply = none → wr.cur.hermesResponse = wr.base.hermesResponse
  /-- A row that has ended, and no longer shows the heartbeat, is not made active. -/
  ended : ∀ r ∈ w.rows.get wr.id, r.status.isTerminal = true →
    previousOf r.hermesResponse ≠ b.readBack → wr.cur.status ≠ wr.base.status →
    wr.cur.status.isTerminal = true
  /-- A heartbeat is no step back that the last one hides. -/
  seen : ∀ body ∈ f.reply.bind (Reply.heartbeat? wr.id), Hides b body → b.rank ≤ body.rank

instance (w : World) (f : Flush) (b : StatusBody) (wr : Write) :
    Decidable (OrderlyWrite w f b wr) :=
  decidable_of_iff
    ((f.reply.isNone = true → wr.cur.hermesResponse = wr.base.hermesResponse) ∧
      (∀ r ∈ w.rows.get wr.id, r.status.isTerminal = true →
        previousOf r.hermesResponse ≠ b.readBack → wr.cur.status ≠ wr.base.status →
        wr.cur.status.isTerminal = true) ∧
      ∀ body ∈ f.reply.bind (Reply.heartbeat? wr.id), Hides b body → b.rank ≤ body.rank)
    ⟨fun h => ⟨fun hn => h.1 (by rw [hn]; rfl), h.2.1, h.2.2⟩,
      fun h => ⟨fun hn => h.response (Option.isNone_iff_eq_none.mp hn), h.ended, h.seen⟩⟩

/-- **The condition on a step.**  Status callbacks have bodies that the schema of the route admits,
and commits are orderly. -/
def Orderly (w : World) : Action → Prop
  | .move _ (.status _ body) => body.Valid
  | .commit p => ∀ f ∈ (w.procs p).todo.head?, ∀ wr ∈ f.writes,
      ∀ b ∈ (heartbeats wr.id w.log).head?, wr.Restarts ∨ OrderlyWrite w f b wr
  | _ => True

instance (w : World) : (a : Action) → Decidable (Orderly w a)
  | .advance _ | .create .. | .close _ => isTrue trivial
  | .commit _ => by dsimp only [Orderly]; infer_instance
  | .move _ m => by induction m using Move.casesOn <;> dsimp only [Orderly] <;> infer_instance

/-! ## The invariant -/

/-- What a process has to commit that answers a request. -/
inductive Flush.Answers (w : World) (p : Pid) : Flush → Prop where
  /-- A result callback ends the row, or replays. -/
  | result {i : InvId} {call : ResultCallback} {reply : Except CallbackError Snapshot}
      {inv c : DfirInvestigation} {tokens : Option TokenWrite}
      (h : c = inv ∨ c.status ≠ inv.status ∧ c.status.isTerminal = true) :
      Answers w p ⟨[⟨i, inv, c⟩], tokens, some (.answered i call reply)⟩
  /-- A poll writes neither the response nor the status. -/
  | poll {writes : List Write} {q : Pid} {n : ℕ} {start stamp : Time} {ids : List InvId}
      (h : ∀ wr ∈ writes, wr.cur.hermesResponse = wr.base.hermesResponse ∧
        wr.cur.status = wr.base.status) :
      Answers w p ⟨writes, none, some (.polled q n start stamp ids)⟩
  /-- A heartbeat has locked its row, and was accepted by it. -/
  | heartbeat {i : InvId} {inv : DfirInvestigation} {body : StatusBody} {t : Time}
      (hlock : w.locks i = some p) (hrow : w.rows.get i = some inv)
      (hactive : inv.status.isTerminal = false) (hvalid : body.Valid)
      (haccept : stepBack (previousOf inv.hermesResponse) body = some false) :
      Answers w p ⟨[⟨i, inv, recordStatus t body inv⟩], none, some (.reported i body (.ok true))⟩

/-- A process answers nothing with what it has to commit, or one request. -/
inductive Reporting (w : World) (p : Pid) : Prop where
  | silent (h : ∀ f ∈ (w.procs p).todo, f.reply = none)
  | answering {f : Flush} (htodo : (w.procs p).todo = [f]) (h : f.Answers w p)

/-- The row shows the heartbeat to later ones, or has ended. -/
def Holds (b : StatusBody) (r : DfirInvestigation) : Prop :=
  previousOf r.hermesResponse = b.readBack ∨ r.status.isTerminal = true

/-- **The system, as far as progress goes.** -/
structure Progressing (w : World) : Prop where
  procs : ∀ p, Reporting w p
  valid : ∀ i, ∀ b ∈ heartbeats i w.log, b.Valid
  holds : ∀ i, ∀ b ∈ (heartbeats i w.log).head?, ∃ r, w.rows.get i = some r ∧ Holds b r
  follows : ∀ i, (heartbeats i w.log).Pairwise Follows

section Steps

variable {cfg : Settings} {w w' : World} {p : Pid}

theorem silent_rowFlushes {i : InvId} {tokens : Option TokenWrite}
    {l : List (DfirInvestigation × DfirInvestigation)} :
    ∀ f ∈ rowFlushes i tokens l, f.reply = none := by
  intro f hf
  obtain ⟨-, -, -, hreply⟩ := mem_rowFlushes hf
  exact hreply

/-- **What a move leaves to answer.** -/
theorem reporting_of_move {m : Move} {e : Effect} (hG : Orderly w (.move p m))
    (h : World.MoveCase cfg w p m e) : Reporting (w.moved p e) p := by
  have hproc : (w.moved p e).procs p = e.proc := World.procs_moved_self w p e
  have hsilent : (∀ f ∈ e.proc.todo, f.reply = none) → Reporting (w.moved p e) p := fun hs =>
    .silent (by rwa [hproc])
  have hone : ∀ {f : Flush}, f.reply = none → ∀ g ∈ [f], g.reply = none := fun hf g hg => by
    rw [List.mem_singleton.mp hg]
    exact hf
  have hnil : ∀ f ∈ ([] : List Flush), f.reply = none := fun f hf => absurd hf List.not_mem_nil
  cases h with
  | reconcile => exact hsilent silent_rowFlushes
  | claim => exact hsilent (hone rfl)
  | prepareFailed => exact hsilent (hone rfl)
  | prepared => exact hsilent (hone rfl)
  | outcome => exact hsilent silent_rowFlushes
  | process => exact hsilent silent_rowFlushes
  | stop => exact hsilent (hone rfl)
  | chatReply => exact hsilent (hone rfl)
  | @callback i inv call eff hphase hfree hrow hok =>
    refine .answering (by rw [hproc]) (.result ?_)
    obtain ⟨-, -, ⟨-, rfl, -⟩ | ⟨hana, rfl, -⟩⟩ := submitExternalResult_cases hok
    · exact Or.inl rfl
    · have hterm := status_record_isTerminal w.clock call inv
      refine Or.inr ⟨fun hsame => ?_, hterm⟩
      rw [show (record w.clock call inv).status = inv.status from hsame, hana] at hterm
      cases hterm
  | @status i inv r body hphase hfree hrow hok =>
    obtain ⟨rfl, -, hactive, -, haccept⟩ := updateInvestigationStatus_cases hok
    exact .answering (by rw [hproc])
      (.heartbeat (if_pos (List.mem_singleton_self i)) hrow hactive hG haccept)
  | @pollStamp start n ids hphase =>
    refine .answering (by rw [hproc]; rfl) (.poll fun wr hwr => ?_)
    rw [(mem_manyWrites hwr).2.2]
    exact ⟨rfl, rfl⟩
  | chat =>
    refine hsilent ?_
    unfold World.chat
    split
    · exact hnil
    · exact hnil
  | _ => exact hsilent hnil

theorem Reporting.mono (h : Reporting w p) (hlocks : ∀ i, w.locks i = some p → w'.locks i = some p)
    (hrows : ∀ i r, w.locks i = some p → w.rows.get i = some r → w'.rows.get i = some r)
    (hproc : w'.procs p = w.procs p) : Reporting w' p := by
  cases h with
  | silent h => exact .silent (by rwa [hproc])
  | answering htodo h =>
    refine .answering (by rwa [hproc]) ?_
    cases h with
    | result h => exact .result h
    | poll h => exact .poll h
    | heartbeat hlock hrow hactive hvalid haccept =>
      exact .heartbeat (hlocks _ hlock) (hrows _ _ hlock hrow) hactive hvalid haccept

/-- The write leaves a row that holds a heartbeat such. -/
structure Spares (b : StatusBody) (r : DfirInvestigation) (wr : Write) : Prop where
  response : wr.cur.hermesResponse = wr.base.hermesResponse ∨
    wr.cur.status ≠ wr.base.status ∧ wr.cur.status.isTerminal = true
  ended : r.status.isTerminal = true → previousOf r.hermesResponse ≠ b.readBack →
    wr.cur.status ≠ wr.base.status → wr.cur.status.isTerminal = true

theorem Holds.writeBack {r : DfirInvestigation} {wr : Write} (h : Holds b r)
    (hspares : Spares b r wr) : Holds b (DfirInvestigation.writeBack wr.base wr.cur r) := by
  have hends : wr.cur.status ≠ wr.base.status → wr.cur.status.isTerminal = true →
      Holds b (DfirInvestigation.writeBack wr.base wr.cur r) := fun hne hterm => by
    refine Or.inr ?_
    rw [status_writeBack, pick_of_ne hne]
    exact hterm
  by_cases hshows : previousOf r.hermesResponse = b.readBack
  · rcases hspares.response with hsame | ⟨hne, hterm⟩
    · refine Or.inl ?_
      change previousOf (pick wr.base.hermesResponse wr.cur.hermesResponse r.hermesResponse) = _
      rw [hsame, pick_same, hshows]
    · exact hends hne hterm
  · have hterm := h.resolve_left hshows
    rcases pick_cases wr.base.status wr.cur.status r.status with ⟨-, hpick⟩ | ⟨hne, -⟩
    · refine Or.inr ?_
      rw [status_writeBack, hpick]
      exact hterm
    · exact hends hne (hspares.ended hterm hshows hne)

theorem holds_rowsAfter {rows : Table InvId DfirInvestigation} {ws : List Write}
    (hnodup : (ws.map Write.id).Nodup) {i : InvId}
    (hspares : ∀ wr ∈ ws, wr.id = i → ∀ r, rows.get i = some r → Spares b r wr)
    (h : ∃ r, rows.get i = some r ∧ Holds b r) :
    ∃ r, (rowsAfter rows ws).get i = some r ∧ Holds b r := by
  obtain ⟨r, hr, hholds⟩ := h
  obtain ⟨r', hr'⟩ := exists_get_rowsAfter ws hr
  refine ⟨r', hr', ?_⟩
  rcases rowsAfter_cases hnodup hr' with ⟨wr, hwr, hid, r₀, hr₀, rfl⟩ | ⟨-, hsame⟩
  · obtain rfl : r = r₀ := Option.some.inj (hr.symm.trans hr₀)
    exact hholds.writeBack (hspares wr hwr hid r hr)
  · obtain rfl : r = r' := Option.some.inj (hr.symm.trans hsame)
    exact hholds

theorem follows_of_accepts {older : List StatusBody} {r : DfirInvestigation}
    (hvalid : ∀ c ∈ b :: older, c.Valid) (hfollows : (b :: older).Pairwise Follows)
    (hholds : Holds b r) (hactive : r.status.isTerminal = false) (hbody : body.Valid)
    (haccept : stepBack (previousOf r.hermesResponse) body = some false)
    (hseen : Hides b body → b.rank ≤ body.rank) : ∀ c ∈ b :: older, Follows body c := by
  have hlast : Follows body b := by
    rcases hholds with hshows | hterm
    · rw [hshows] at haccept
      obtain ⟨hprogress, hrank⟩ := (accepts_iff (hvalid b List.mem_cons_self) hbody).mp haccept
      exact ⟨hprogress, hrank.elim id hseen⟩
    · rw [hactive] at hterm
      cases hterm
  intro c hc
  rcases List.mem_cons.mp hc with rfl | hc
  · exact hlast
  · exact hlast.trans ((List.pairwise_cons.mp hfollows).1 c hc)

theorem progressing_of_commit_other {f : Flush} {rest : List Flush} (hI : Progressing w)
    (hprocs : ∀ q, Reporting (w.committed p f rest) q) (hnodup : (f.writes.map Write.id).Nodup)
    (hreply : ∀ i, f.reply.bind (Reply.heartbeat? i) = none)
    (hspares : ∀ wr ∈ f.writes, ∀ b ∈ (heartbeats wr.id w.log).head?, ¬wr.Restarts →
      ∀ r, w.rows.get wr.id = some r → Spares b r wr) : Progressing (w.committed p f rest) := by
  have hlog : ∀ i, heartbeats i (w.committed p f rest).log =
      if restarts i f.writes then [] else heartbeats i w.log := fun i => by
    rw [heartbeats_committed, hreply]
    rfl
  refine ⟨hprocs, fun i => ?_, fun i => ?_, fun i => ?_⟩
  · rw [hlog]
    split
    · exact fun b hb => absurd hb List.not_mem_nil
    · exact hI.valid i
  · rw [hlog]
    split
    · exact fun b hb => absurd hb (by simp)
    · rename_i hno
      intro b hb
      refine holds_rowsAfter hnodup (fun wr hwr hid r hr => ?_) (hI.holds i b hb)
      subst hid
      refine hspares wr hwr b hb (fun hrestarts => hno ?_) r hr
      exact List.any_eq_true.mpr ⟨wr, hwr, decide_eq_true ⟨rfl, hrestarts⟩⟩
  · rw [hlog]
    split
    · exact List.Pairwise.nil
    · exact hI.follows i

theorem not_restarts_recordStatus (i : InvId) (t : Time) (body : StatusBody)
    (inv : DfirInvestigation) : ¬(⟨i, inv, recordStatus t body inv⟩ : Write).Restarts := by
  have hresponse : ∀ r : DfirInvestigation, recordStatus t body inv = r →
      r.hermesResponse = some (statusResponse t body) := by
    rintro r rfl
    rfl
  rintro (hstart | hrequeue | hrequeue)
  · exact hstart rfl
  · simpa [requeueInterrupted, statusResponse] using hresponse _ hrequeue
  · simpa [requeueMissing, statusResponse] using hresponse _ hrequeue

theorem restarts_recordStatus (j i : InvId) (t : Time) (body : StatusBody)
    (inv : DfirInvestigation) : restarts j [⟨i, inv, recordStatus t body inv⟩] = false := by
  rw [restarts, List.any_cons, List.any_nil, Bool.or_false, decide_eq_false_iff_not]
  exact fun h => not_restarts_recordStatus i t body inv h.2

theorem progressing_of_heartbeat {i : InvId} {inv : DfirInvestigation}
    {t : Time} {rest : List Flush} (hI : Progressing w)
    (hprocs : ∀ q, Reporting (w.committed p ⟨[⟨i, inv, recordStatus t body inv⟩], none,
      some (.reported i body (.ok true))⟩ rest) q)
    (hrow : w.rows.get i = some inv) (hactive : inv.status.isTerminal = false) (hvalid : body.Valid)
    (haccept : stepBack (previousOf inv.hermesResponse) body = some false)
    (hseen : ∀ b ∈ (heartbeats i w.log).head?, Hides b body → b.rank ≤ body.rank) :
    Progressing (w.committed p ⟨[⟨i, inv, recordStatus t body inv⟩], none,
      some (.reported i body (.ok true))⟩ rest) := by
  have hlog : ∀ j, heartbeats j (w.committed p ⟨[⟨i, inv, recordStatus t body inv⟩], none,
      some (.reported i body (.ok true))⟩ rest).log =
        if i = j then body :: heartbeats j w.log else heartbeats j w.log := by
    intro j
    rw [heartbeats_committed, restarts_recordStatus]
    change (if i = j then some body else none).toList ++ heartbeats j w.log = _
    split
    · rfl
    · rfl
  have hself : (rowsAfter w.rows [⟨i, inv, recordStatus t body inv⟩]).get i =
      some (recordStatus t body inv) := by
    rw [get_rowsAfter_one w.rows ⟨i, inv, recordStatus t body inv⟩, hrow]
    exact congrArg some (writeBack_base inv _)
  have hfollows : ∀ c ∈ heartbeats i w.log, Follows body c := by
    cases hold : heartbeats i w.log with
    | nil => exact fun c hc => absurd hc List.not_mem_nil
    | cons b older =>
      have hmem : b ∈ (heartbeats i w.log).head? := by rw [hold]; rfl
      have hvalids := hI.valid i
      have hpairs := hI.follows i
      rw [hold] at hvalids hpairs
      obtain ⟨r, hr, hholds⟩ := hI.holds i b hmem
      obtain rfl : inv = r := Option.some.inj (hrow.symm.trans hr)
      exact follows_of_accepts hvalids hpairs hholds hactive hvalid haccept (hseen b hmem)
  refine ⟨hprocs, fun j => ?_, fun j => ?_, fun j => ?_⟩
  · rw [hlog]
    split
    · intro b hb
      rcases List.mem_cons.mp hb with rfl | hb
      · exact hvalid
      · exact hI.valid j b hb
    · exact hI.valid j
  · rw [hlog]
    split
    · rename_i hij
      subst hij
      intro b hb
      rw [List.head?_cons, Option.mem_some_iff] at hb
      exact ⟨_, hself, Or.inl (by rw [← hb]; exact previousOf_statusResponse t body)⟩
    · rename_i hij
      intro b hb
      change ∃ r, (rowsAfter w.rows [⟨i, inv, recordStatus t body inv⟩]).get j = some r ∧ _
      rw [get_rowsAfter_of_not_mem fun wr hwr => by rw [List.mem_singleton.mp hwr]; exact hij]
      exact hI.holds j b hb
  · rw [hlog]
    split
    · rename_i hij
      subst hij
      exact List.pairwise_cons.mpr ⟨hfollows, hI.follows i⟩
    · exact hI.follows j

/-- **Commits.** -/
theorem progressing_of_commit {f : Flush} {rest : List Flush} (hc : Coherent w)
    (hI : Progressing w) (hG : Orderly w (.commit p)) (htodo : (w.procs p).todo = f :: rest)
    (hfree : ∀ wr ∈ f.writes, w.free p wr.id = true) : Progressing (w.committed p f rest) := by
  have hf : f ∈ (w.procs p).todo := by rw [htodo]; exact List.mem_cons_self
  have hother : ∀ q, q ≠ p → Reporting (w.committed p f rest) q := fun q hq =>
    (hI.procs q).mono (fun _ hlock => World.release_of_ne hlock hq)
      (fun _ _ hlock hr => (get_rowsAfter_of_locked hfree hq hlock).trans hr)
      (World.procs_committed_of_ne w f rest hq)
  have hprocs : (∀ g ∈ rest, g.reply = none) → ∀ q, Reporting (w.committed p f rest) q := by
    intro hrest q
    by_cases hq : q = p
    · refine .silent ?_
      rw [hq, World.procs_committed_self]
      exact hrest
    · exact hother q hq
  have horderly : ∀ wr ∈ f.writes, ∀ b ∈ (heartbeats wr.id w.log).head?, ¬wr.Restarts →
      OrderlyWrite w f b wr := fun wr hwr b hb hno =>
    (hG f (by rw [htodo]; rfl) wr hwr b hb).resolve_left hno
  have hnodup := (hc p).nodup f hf
  cases hI.procs p with
  | silent h =>
    have hnone := h f hf
    refine progressing_of_commit_other hI
      (hprocs fun g hg => h g (by rw [htodo]; exact List.mem_cons_of_mem _ hg)) hnodup
      (fun i => by rw [hnone]; rfl) fun wr hwr b hb hno r hr => ?_
    obtain ⟨hresponse, hended, -⟩ := horderly wr hwr b hb hno
    exact ⟨Or.inl (hresponse hnone), hended r hr⟩
  | answering hone h =>
    obtain ⟨rfl, rfl⟩ := List.cons.inj (htodo.symm.trans hone)
    have hdone := hprocs fun g hg => absurd hg List.not_mem_nil
    cases h with
    | result h =>
      refine progressing_of_commit_other hI hdone hnodup (fun i => rfl)
        fun wr hwr b hb _ r hr => ?_
      rw [List.mem_singleton.mp hwr]
      rcases h with rfl | ⟨hne, hterm⟩
      · exact ⟨Or.inl rfl, fun _ _ hne => absurd rfl hne⟩
      · exact ⟨Or.inr ⟨hne, hterm⟩, fun _ _ _ => hterm⟩
    | poll h =>
      refine progressing_of_commit_other hI hdone hnodup (fun i => rfl)
        fun wr hwr b hb _ r hr => ?_
      obtain ⟨hresponse, hstatus⟩ := h wr hwr
      exact ⟨Or.inl hresponse, fun _ _ hne => absurd hstatus hne⟩
    | @heartbeat i inv body t hlock hrow hactive hvalid haccept =>
      refine progressing_of_heartbeat hI hdone hrow hactive hvalid haccept fun b hb => ?_
      have hmem : (⟨i, inv, recordStatus t body inv⟩ : Write) ∈
          [(⟨i, inv, recordStatus t body inv⟩ : Write)] := List.mem_singleton_self _
      exact (horderly _ hmem b hb (not_restarts_recordStatus i t body inv)).seen body
        (by simp [Reply.heartbeat?])

/-- **Progress is preserved** by every orderly step. -/
theorem progressing_step {a : Action} (hc : Coherent w) (hI : Progressing w) (hG : Orderly w a)
    (h : step cfg w a = some w') : Progressing w' := by
  cases step_cases h with
  | advance d => exact ⟨fun q => (hI.procs q).mono (fun _ hl => hl) (fun _ _ _ hr => hr) rfl,
      hI.valid, hI.holds, hI.follows⟩
  | created hnew hfresh =>
    refine ⟨fun q => (hI.procs q).mono (fun _ hl => hl)
      (fun _ _ _ hr => Table.get_insert_of_get hr) rfl, hI.valid, fun i b hb => ?_, hI.follows⟩
    obtain ⟨r, hr, hholds⟩ := hI.holds i b hb
    exact ⟨r, Table.get_insert_of_get hr, hholds⟩
  | refused => exact hI
  | @move p m e htodo hmove =>
    have hlog : ∀ i, heartbeats i (w.moved p e).log = heartbeats i w.log := fun i =>
      heartbeats_moved i hmove
    refine ⟨fun q => ?_, fun i => by rw [hlog]; exact hI.valid i, fun i => by
      rw [hlog]; exact hI.holds i, fun i => by rw [hlog]; exact hI.follows i⟩
    by_cases hq : q = p
    · rw [hq]
      exact reporting_of_move hG hmove
    · exact (hI.procs q).mono (fun _ hlock => World.locks_moved hmove hlock)
        (fun _ _ _ hr => hr) (World.procs_moved_of_ne w e hq)
  | commit htodo hfree => exact progressing_of_commit hc hI hG htodo hfree
  | close p =>
    refine ⟨fun q => ?_, hI.valid, hI.holds, hI.follows⟩
    by_cases hq : q = p
    · refine .silent ?_
      rw [hq, World.procs_close_self]
      exact fun f hf => absurd hf List.not_mem_nil
    · exact (hI.procs q).mono (fun _ hlock => World.release_of_ne hlock hq)
        (fun _ _ _ hr => hr) (World.procs_close_of_ne w hq)

theorem World.Quiet.progressing (hquiet : w.Quiet) : Progressing w := by
  have hlog : ∀ i, heartbeats i w.log = [] := fun i => by
    rw [hquiet.log]
    rfl
  refine ⟨fun p => .silent ?_, fun i => ?_, fun i => ?_, fun i => ?_⟩
  · rw [hquiet.procs p]
    exact fun f hf => absurd hf List.not_mem_nil
  · rw [hlog]
    exact fun b hb => absurd hb List.not_mem_nil
  · rw [hlog]
    exact fun b hb => absurd hb (by simp)
  · rw [hlog]
    exact List.Pairwise.nil

/-- **Progress never goes backwards** in an orderly run: in every state, each accepted status callback
of a dispatch follows every one accepted before it. -/
theorem progress_monotone (cfg : Settings) {w₀ w : World} (hquiet : w₀.Quiet)
    (hrun : Runs (step cfg) Orderly w₀ w) (i : InvId) : (heartbeats i w.log).Pairwise Follows := by
  have hprogress : Progressing w := hrun.invariant_of_reach
    (fun v a v' hreach hI hG hstep =>
      progressing_step (coherent_of_runs hquiet.coherent hreach) hI hG hstep) hquiet.progressing
  exact hprogress.follows i

end Steps

/-! ## How it goes backwards -/

/-- The steps whose status callbacks have bodies that the schema admits. -/
def Admitted (_ : World) : Action → Prop
  | .move _ (.status _ body) => body.Valid
  | _ => True

instance (w : World) (a : Action) : Decidable (Admitted w a) := by
  unfold Admitted
  split <;> infer_instance

/-- A status callback of the running job. -/
def runningAt (progressPercent : ℤ) (currentStep : Option ℤ) : StatusBody :=
  ⟨"deepagent-1", "running", progressPercent, currentStep, none, none⟩

/-- It arrives and is committed. -/
def report (p : Pid) (body : StatusBody) : List Action := [.move p (.status "1" body), .commit p]

/-- An investigation is dispatched, and the post is answered after the job has reported `first`. -/
def dispatchTrace (first : List Action) : List Action :=
  [requestNew "1" "deepagent", .move 0 (.tickStart ["1"]), .move 0 .count,
    .move 0 (.claim ["1"]), .commit 0,
    .move 0 (.prepare ⟨.ok "windows", true, some "key", some (.ok "yaml"), .ok ()⟩ 0), .commit 0,
    .move 0 .send] ++ first ++
    [.move 0 (.outcome ⟨.response 200 "" (.ok (.obj [("job_id", .str "deepagent-1")])), 0⟩ 0),
      .commit 0]

/-- **Progress goes backwards.**  At zero percent any step is accepted after any other; and the
dispatcher, when it gets its answer late, overwrites the heartbeat it should be compared with. -/
theorem progress_regresses : (¬ ∀ w, Runs (step (sampleSettings 12)) Admitted dispatchedWorld w →
      ∀ i, (heartbeats i w.log).Pairwise Follows) ∧
    ¬ ∀ w, Runs (step (sampleSettings 12)) Admitted emptyWorld w →
      ∀ i, (heartbeats i w.log).Pairwise Follows := by
  constructor
  · intro h
    obtain ⟨w, hrun, hw⟩ := exists_runs_of_exec (G := Admitted) (step (sampleSettings 12))
      dispatchedWorld (report 1 (runningAt 0 (some 5)) ++ report 2 (runningAt 0 (some 3)))
      (p := fun w => decide ¬(heartbeats "1" w.log).Pairwise Follows) (by decide +kernel)
    exact of_decide_eq_true hw (h w hrun "1")
  · intro h
    obtain ⟨w, hrun, hw⟩ := exists_runs_of_exec (G := Admitted) (step (sampleSettings 12))
      emptyWorld (dispatchTrace (report 1 (runningAt 50 none)) ++ report 2 (runningAt 10 none))
      (p := fun w => decide ¬(heartbeats "1" w.log).Pairwise Follows) (by decide +kernel)
    exact of_decide_eq_true hw (h w hrun "1")

theorem progress_monotone_in_turn : ∃ w, Runs (step (sampleSettings 12)) Orderly emptyWorld w ∧
      heartbeats "1" w.log = [runningAt 50 (some 2), runningAt 10 none] ∧
      (heartbeats "1" w.log).Pairwise Follows := by
  obtain ⟨w, hrun, hw⟩ := exists_runs_of_exec (G := Orderly) (step (sampleSettings 12)) emptyWorld
    (dispatchTrace [] ++ report 1 (runningAt 10 none) ++ report 2 (runningAt 50 (some 2)))
    (p := fun w => decide (heartbeats "1" w.log = [runningAt 50 (some 2), runningAt 10 none]))
    (by decide +kernel)
  exact ⟨w, hrun, of_decide_eq_true hw,
    progress_monotone (sampleSettings 12) (World.quiet_start _ _ _) hrun "1"⟩

end AssetInventory
