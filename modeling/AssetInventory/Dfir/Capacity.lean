import AssetInventory.Dfir.Visibility

/-!
# Capacity and at-most-once dispatch

A tick counts the busy slots, claims pending rows, commits, and only then turns each claimed row to
`analyzing` and posts it.  The commit of the claim ends the row locks while the rows are still
pending, so a second tick can count the same free slots and claim the same rows.

* `postsSince`: who has posted a row since it was last returned to the queue.
* `Undisturbed`: the condition on a run.  A tick counts when no other tick has slots to take, claims
  with no stale copy of a pending row, and returns no row that another tick is about to post.
* `Budgeted`, `Exclusive`: the invariant.  What is busy and what one session may still turn busy fit
  in the capacity, only one session may turn anything busy, and no row waiting in it has been posted.
* `capacity_of_runs`: under the condition both properties hold in every state.
* `claimed_twice`: without it, two ticks post the same row and exceed the capacity.
-/

namespace AssetInventory

open PyJson PyTime Orm DfirInvestigation RowStore Interleaving

/-! ## The property -/

/-- The busy DeepAgent slots of a table. -/
def busyRows (rows : Table InvId DfirInvestigation) : ℕ :=
  rows.count fun r => Sql.holds (reconcileWhere r)

/-- The event returns the row to the queue. -/
def returnsToPending (i : InvId) : Event → Bool
  | .committed _ ws _ => ws.any fun wr =>
      decide (wr.id = i ∧ wr.cur.status = .pending ∧ wr.base.status ≠ .pending)
  | _ => false

/-- The process that posts the row by the event. -/
def posterOf (i : InvId) : Event → Option Pid
  | .sent p j => if j = i then some p else none
  | _ => none

/-- The processes that have posted the row in a part of the log. -/
def posts (i : InvId) (log : List Event) : List Pid := log.filterMap (posterOf i)

/-- The processes that have posted the row since it was last returned to the queue. -/
def postsSince (i : InvId) (log : List Event) : List Pid :=
  posts i (log.takeWhile fun e => !returnsToPending i e)

theorem postsSince_cons (i : InvId) (e : Event) (log : List Event) : postsSince i (e :: log) =
      if returnsToPending i e then [] else (posterOf i e).toList ++ postsSince i log := by
  unfold postsSince posts
  cases he : returnsToPending i e with
  | true => simp [he]
  | false =>
    cases hp : posterOf i e with
    | none => simp [he, hp]
    | some p => simp [he, hp]

theorem postsSince_replies (i : InvId) (replies : List Reply) (log : List Event) :
    postsSince i (replies.map Event.replied ++ log) = postsSince i log := by
  induction replies with
  | nil => rfl
  | cons r replies ih =>
    rw [List.map_cons, List.cons_append, postsSince_cons, if_neg (by simp [returnsToPending])]
    exact ih

/-- The row was posted only when it had not been posted since its last return. -/
def PostedOnce (i : InvId) : List Event → Prop
  | [] => True
  | e :: log => ((posterOf i e).isSome = true → postsSince i log = []) ∧ PostedOnce i log

variable {i : InvId} {log : List Event}

theorem PostedOnce.replies (h : PostedOnce i log)
    (replies : List Reply) : PostedOnce i (replies.map Event.replied ++ log) := by
  induction replies with
  | nil => exact h
  | cons r replies ih => exact ⟨by simp [posterOf], ih⟩

/-- **At most one post between two returns.**  A stretch of the log in which the row is not returned
to the queue has at most one post of it. -/
theorem PostedOnce.length_posts_le {l₁ l₂ l₃ : List Event}
    (h : PostedOnce i (l₁ ++ l₂ ++ l₃)) (hl₂ : ∀ e ∈ l₂, returnsToPending i e = false) :
    (posts i l₂).length ≤ 1 := by
  induction l₁ with
  | cons e l₁ ih => exact ih h.2
  | nil =>
    rw [List.nil_append] at h
    induction l₂ with
    | nil => exact Nat.zero_le 1
    | cons e l₂ ih =>
      have htail : ∀ e ∈ l₂, returnsToPending i e = false :=
        fun e' he' => hl₂ e' (List.mem_cons_of_mem _ he')
      rw [List.cons_append] at h
      have hrest := ih htail h.2
      cases hp : posterOf i e with
      | none =>
        rw [posts, List.filterMap_cons, hp]
        exact hrest
      | some p =>
        -- nothing was posted before in this stretch
        have hsince := h.1 (by rw [hp]; rfl)
        have htake : ((l₂ ++ l₃).takeWhile fun e => !returnsToPending i e) =
            l₂ ++ l₃.takeWhile fun e => !returnsToPending i e := by
          rw [List.takeWhile_append_of_pos fun e' he' => by rw [htail e' he']; rfl]
        rw [postsSince, posts, htake, List.filterMap_append, List.append_eq_nil_iff] at hsince
        rw [posts, List.filterMap_cons, hp, hsince.1]
        exact Nat.le_refl 1

/-! ## The condition -/

/-- The slots that a process may still take: those it has counted, or its claimed rows that are not
busy yet. -/
def Proc.credit (pr : Proc) : ℕ :=
  match pr.phase with
  | .claiming available => available
  | .dispatching queue => queue.length
  | .posting _ queue => queue.length + if pr.todo.isEmpty then 0 else 1
  | .awaiting _ queue => queue.length
  | _ => 0

/-- The claimed rows whose dispatch has not begun. -/
def Phase.waiting : Phase → List InvId
  | .dispatching queue => queue
  | .posting _ queue => queue
  | .awaiting _ queue => queue
  | _ => []

/-- The claimed rows that have not been posted. -/
def Phase.unsent : Phase → List InvId
  | .dispatching queue => queue
  | .posting i queue => i :: queue
  | .awaiting _ queue => queue
  | _ => []

/-- The action claims no row of which its session has a stale copy. -/
def ClaimsFresh (w : World) : Action → Prop
  | .move p (.claim ord) => ∀ i ∈ ord, w.keeps claimWhere i = true →
      ∀ o ∈ (w.procs p).objs i, o.status = .pending
  | _ => True

/-- The process is not in the way of the action: slots are counted when it has none to take, and a
row is returned to the queue when it is not about to post it. -/
def OutOfTheWay (w : World) (q : Pid) : Action → Prop
  | .move p .count => q ≠ p → (w.procs q).credit = 0
  | .commit p => q ≠ p → ∀ f ∈ (w.procs p).todo.head?, ∀ wr ∈ f.writes,
      wr.cur.status = .pending → wr.base.status ≠ .pending → wr.id ∉ (w.procs q).phase.unsent
  | _ => True

/-- **The condition on a run.** -/
def Undisturbed (w : World) (a : Action) : Prop := ClaimsFresh w a ∧ ∀ q, OutOfTheWay w q a

/-! ## The invariant -/

/-- **A session within its budget.** -/
structure Budgeted (capacity : ℕ) (rows : Table InvId DfirInvestigation) (log : List Event)
    (pr : Proc) : Prop where
  /-- What is busy and what the session may still turn busy fit in the capacity. -/
  credit : busyRows rows + pr.credit ≤ capacity
  /-- Only the commit before a post turns a DeepAgent row busy. -/
  raises : ∀ f ∈ pr.todo, ∀ wr ∈ f.writes, wr.base.externalOrchestrator = some .deepagent →
    wr.cur.status = .analyzing → wr.base.status = .analyzing ∨ ∃ i queue, pr.phase = .posting i queue
  /-- A session that returns a row to the queue has no row to post. -/
  requeues : ∀ f ∈ pr.todo, ∀ wr ∈ f.writes, wr.cur.status = .pending →
    wr.base.status = .pending ∨ pr.phase.unsent = []
  /-- A row about to be posted has left the queue, or is about to. -/
  posting : ∀ i queue, pr.phase = .posting i queue →
    (pr.todo = [] ∧ ∃ r, rows.get i = some r ∧ r.status ≠ .pending) ∨
      ∃ b c, pr.todo = [⟨[⟨i, b, c⟩], none, none⟩] ∧ b.status = .pending ∧ c.status = .analyzing
  /-- The copies of the waiting rows are pending. -/
  waiting : ∀ i ∈ pr.phase.waiting, ∀ o, pr.objs i = some o → o.status = .pending
  /-- And stay so by what is still to be committed. -/
  writes : ∀ f ∈ pr.todo, ∀ wr ∈ f.writes, wr.id ∈ pr.phase.waiting → wr.cur.status = .pending
  /-- The rows that are still to be posted have not been posted since their return. -/
  unsent : ∀ i ∈ pr.phase.unsent, postsSince i log = []

/-- The invariant of the system. -/
structure Exclusive (capacity : ℕ) (w : World) : Prop where
  budget : ∀ p, Budgeted capacity w.rows w.log (w.procs p)
  /-- One session at most has slots to take. -/
  alone : ∀ p q, (w.procs p).credit ≠ 0 → (w.procs q).credit ≠ 0 → p = q
  /-- A row is about to be posted by one session at most. -/
  disjoint : ∀ p q i, i ∈ (w.procs p).phase.unsent → i ∈ (w.procs q).phase.unsent → p = q
  /-- A row that was posted since its return is not in the queue. -/
  posted : ∀ i, postsSince i w.log ≠ [] → ∃ r, w.rows.get i = some r ∧ r.status ≠ .pending
  once : ∀ i, PostedOnce i w.log

/-- The phases in which a session has rows or slots of DeepAgent. -/
def Phase.holdsClaims : Phase → Bool
  | .claiming _ | .dispatching _ | .posting _ _ | .awaiting _ _ => true
  | _ => false

theorem credit_of_outside {pr : Proc} (h : pr.phase.holdsClaims = false) : pr.credit = 0 := by
  unfold Proc.credit
  cases hphase : pr.phase <;> simp_all [Phase.holdsClaims]

theorem waiting_of_outside {phase : Phase} (h : phase.holdsClaims = false) :
    phase.waiting = [] := by
  cases phase <;> simp_all [Phase.holdsClaims, Phase.waiting]

theorem unsent_of_outside {phase : Phase} (h : phase.holdsClaims = false) : phase.unsent = [] := by
  cases phase <;> simp_all [Phase.holdsClaims, Phase.unsent]

variable {rows : Table InvId DfirInvestigation} {capacity available : ℕ}

theorem budgeted_of_outside {pr : Proc} (hphase : pr.phase.holdsClaims = false)
    (hbusy : busyRows rows ≤ capacity)
    (hraises : ∀ f ∈ pr.todo, ∀ wr ∈ f.writes, wr.base.externalOrchestrator = some .deepagent →
      wr.cur.status = .analyzing → wr.base.status = .analyzing) :
    Budgeted capacity rows log pr where
  credit := by rw [credit_of_outside hphase]; exact hbusy
  raises f hf wr hwr hd ha := Or.inl (hraises f hf wr hwr hd ha)
  requeues _ _ _ _ _ := Or.inr (unsent_of_outside hphase)
  posting i queue hq := by rw [hq] at hphase; cases hphase
  waiting i hi := by rw [waiting_of_outside hphase] at hi; exact absurd hi List.not_mem_nil
  writes f _ wr _ hi := by rw [waiting_of_outside hphase] at hi; exact absurd hi List.not_mem_nil
  unsent i hi := by rw [unsent_of_outside hphase] at hi; exact absurd hi List.not_mem_nil

/-! ## Moves -/

section Steps

variable {cfg : Settings} {w w' : World} {p : Pid} {e : Effect} {a : Move}

theorem postsSince_of_said (h : World.MoveCase cfg w p a e) (i : InvId) :
    postsSince i (e.said ++ w.log) = postsSince i w.log ∨
      ∃ queue, (w.procs p).phase = .posting i queue ∧ e = w.sendNext p i queue := by
  rcases World.said_cases h with ⟨replies, hsaid⟩ | ⟨j, queue, hphase, rfl⟩
  · rw [hsaid]
    exact Or.inl (postsSince_replies i replies w.log)
  · by_cases hj : j = i
    · subst hj
      exact Or.inr ⟨queue, hphase, rfl⟩
    · refine Or.inl ?_
      change postsSince i (.sent p j :: w.log) = _
      rw [postsSince_cons, if_neg (by simp [returnsToPending]), posterOf, if_neg hj]
      rfl

/-- A session within its budget stays so while the log says nothing new about its rows. -/
theorem Budgeted.congr_log {log' : List Event} {pr : Proc} (h : Budgeted capacity rows log pr)
    (hlog : ∀ i ∈ pr.phase.unsent, postsSince i log' = postsSince i log) :
    Budgeted capacity rows log' pr :=
  { h with unsent := fun i hi => (hlog i hi).trans (h.unsent i hi) }

variable {objs : InvId → Option DfirInvestigation}

/-- A session that holds no claims and writes one row, not turning it busy. -/
theorem outside_one {phase : Phase}
    {b c : DfirInvestigation} {tokens : Option TokenWrite} {reply : Option Reply}
    (hphase : phase.holdsClaims = false) (hbusy : busyRows rows ≤ capacity)
    (h : c.status = b.status ∨ c.status ≠ .analyzing) :
    Budgeted capacity rows log ⟨objs, [⟨[⟨i, b, c⟩], tokens, reply⟩], phase⟩ := by
  refine budgeted_of_outside hphase hbusy fun f hf wr hwr _ hcur => ?_
  rw [List.mem_singleton.mp hf, List.mem_singleton] at hwr
  subst hwr
  rcases h with hs | hs
  · exact hs.symm.trans hcur
  · exact absurd hcur hs

theorem outside_nil {phase : Phase}
    (hphase : phase.holdsClaims = false) (hbusy : busyRows rows ≤ capacity) :
    Budgeted capacity rows log ⟨objs, [], phase⟩ :=
  budgeted_of_outside hphase hbusy fun _ hf => absurd hf List.not_mem_nil

/-! The moves of a tick, one by one. -/

variable {queue ord : List InvId} {inv : DfirInvestigation}

theorem budgeted_reconcile (env : ReconcileEnv)
    (hbusy : busyRows w.rows ≤ cfg.deepagentMaxConcurrentJobs) :
    Budgeted cfg.deepagentMaxConcurrentJobs w.rows log
      ⟨objs, rowFlushes i none (stateCheckDeepagentJob cfg w.clock env inv).session.flushed,
        if (stateCheckDeepagentJob cfg w.clock env inv).raised.isSome then .ended
        else .reconciling queue⟩ := by
  refine budgeted_of_outside ?_ hbusy fun f hf wr hwr _ hcur => ?_
  · dsimp only
    split
    · rfl
    · rfl
  · obtain ⟨q, hq, hf, -⟩ := mem_rowFlushes hf
    rw [hf, List.mem_singleton] at hwr
    subst hwr
    obtain ⟨hbase, hwrite⟩ := reconcileWrite_of_mem hq
    rcases hwrite.status with hs | hs | hs
    · rw [hbase, ← hs]
      exact hcur
    · rw [hs] at hcur
      cases hcur
    · rw [hs] at hcur
      cases hcur

theorem budgeted_countSlots (hbusy : busyRows w.rows ≤ cfg.deepagentMaxConcurrentJobs) :
    Budgeted cfg.deepagentMaxConcurrentJobs w.rows ((World.countSlots cfg w p).said ++ w.log)
      (World.countSlots cfg w p).proc := by
  unfold World.countSlots
  dsimp only
  split
  · exact ⟨hbusy, by simp, by simp, by simp, by simp [Phase.waiting], by simp,
      by simp [Phase.unsent]⟩
  · refine ⟨?_, by simp, by simp, by simp, by simp [Phase.waiting], by simp,
      by simp [Phase.unsent]⟩
    have hle : w.busy ≤ cfg.deepagentMaxConcurrentJobs := hbusy
    change w.busy + (cfg.deepagentMaxConcurrentJobs - w.busy) ≤ cfg.deepagentMaxConcurrentJobs
    omega

theorem budgeted_claim (hx : Exclusive cfg.deepagentMaxConcurrentJobs w)
    (hfresh : ClaimsFresh w (.move p (.claim ord)))
    (hphase : (w.procs p).phase = .claiming available) :
    Budgeted cfg.deepagentMaxConcurrentJobs w.rows w.log
      ⟨w.loaded (w.procs p).objs (w.selectLimit p claimWhere ord available),
        [⟨manyWrites (w.loaded (w.procs p).objs (w.selectLimit p claimWhere ord available))
          (w.selectLimit p claimWhere ord available) reserveJobId, none, none⟩],
        .dispatching (w.selectLimit p claimWhere ord available)⟩ := by
  have hb := hx.budget p
  have hpending : ∀ i ∈ w.selectLimit p claimWhere ord available,
      ∃ r, w.rows.get i = some r ∧ r.status = .pending := by
    intro i hi
    obtain ⟨r, hr, hkeeps⟩ := World.keeps_iff.mp (World.of_mem_selectLimit hi).2.1
    exact ⟨r, hr, ((holds_claimWhere r).mp hkeeps).2⟩
  -- the copies are pending: loaded by this query, or not stale
  have hseen : ∀ i ∈ w.selectLimit p claimWhere ord available, ∀ o,
      w.loaded (w.procs p).objs (w.selectLimit p claimWhere ord available) i = some o →
      o.status = .pending := by
    intro i hi o ho
    obtain ⟨hmem, hkeeps, -⟩ := World.of_mem_selectLimit hi
    rcases World.loaded_cases ho with ho | ⟨-, -, hr⟩
    · exact hfresh i hmem hkeeps o ho
    · obtain ⟨r, hr', hp⟩ := hpending i hi
      rw [hr] at hr'
      rw [Option.some.inj hr']
      exact hp
  refine ⟨?_, fun f hf wr hwr _ hcur => Or.inl ?_, fun f hf wr hwr hcur => Or.inl ?_, by simp,
    hseen, fun f hf wr hwr hi => ?_, fun i hi => ?_⟩
  · have hcredit : busyRows w.rows + available ≤ cfg.deepagentMaxConcurrentJobs := by
      simpa [Proc.credit, hphase] using hb.credit
    have hlen := length_limit ord (fun i => w.keeps claimWhere i && w.free p i) available
    change busyRows w.rows + (w.selectLimit p claimWhere ord available).length ≤ _
    rw [World.selectLimit, hlen]
    omega
  · rw [List.mem_singleton.mp hf] at hwr
    rw [(mem_manyWrites hwr).2.2] at hcur
    exact hcur
  · rw [List.mem_singleton.mp hf] at hwr
    rw [(mem_manyWrites hwr).2.2] at hcur
    exact hcur
  · rw [List.mem_singleton.mp hf] at hwr
    obtain ⟨hmem, hbase, hcur⟩ := mem_manyWrites hwr
    rw [hcur]
    exact (hseen _ hmem _ hbase :)
  · -- a row that was posted since its return would not be in the queue
    obtain ⟨r, hr, hp⟩ := hpending i hi
    by_contra hne
    obtain ⟨r', hr', hp'⟩ := hx.posted i hne
    rw [hr] at hr'
    rw [← Option.some.inj hr'] at hp'
    exact hp' hp

theorem budgeted_prepareFailed (hb : Budgeted capacity w.rows w.log (w.procs p)) (e : PyExc)
    (later : Time)
    (hphase : (w.procs p).phase = .dispatching (i :: queue)) (hnot : i ∉ queue) :
    Budgeted capacity w.rows w.log ⟨(w.procs p).objs,
      [⟨[⟨i, inv, workerFail later e inv⟩], none, none⟩], .dispatching queue⟩ := by
  have hcredit : busyRows w.rows + (queue.length + 1) ≤ capacity := by
    simpa [Proc.credit, hphase] using hb.credit
  refine ⟨?_, fun f hf wr hwr _ hcur => ?_, fun f hf wr hwr hcur => ?_, by simp,
    fun j hj => hb.waiting j ?_, fun f hf wr hwr hj => ?_, fun j hj => hb.unsent j ?_⟩
  · change busyRows w.rows + queue.length ≤ _
    omega
  · rw [List.mem_singleton.mp hf, List.mem_singleton] at hwr
    rw [hwr] at hcur
    cases hcur
  · rw [List.mem_singleton.mp hf, List.mem_singleton] at hwr
    rw [hwr] at hcur
    cases hcur
  · rw [hphase]
    exact List.mem_cons_of_mem _ hj
  · rw [List.mem_singleton.mp hf, List.mem_singleton] at hwr
    rw [hwr] at hj
    exact absurd hj hnot
  · rw [hphase]
    exact List.mem_cons_of_mem _ hj

theorem budgeted_prepared (hb : Budgeted capacity w.rows w.log (w.procs p))
    (hphase : (w.procs p).phase = .dispatching (i :: queue)) (hnot : i ∉ queue)
    (hobj : (w.procs p).objs i = some inv) : Budgeted capacity w.rows w.log ⟨(w.procs p).objs,
      [⟨[⟨i, inv, dispatchReserve i w.clock inv⟩], none, none⟩], .posting i queue⟩ := by
  have hcredit := hb.credit
  rw [Proc.credit, hphase] at hcredit
  have hinv : inv.status = .pending :=
    hb.waiting i (by rw [hphase]; exact List.mem_cons_self) inv hobj
  refine ⟨hcredit, fun f hf wr hwr _ _ => Or.inr ⟨i, queue, rfl⟩, fun f hf wr hwr hcur => ?_,
    fun j q hq => ?_, fun j hj => hb.waiting j ?_, fun f hf wr hwr hj => ?_,
    fun j hj => hb.unsent j ?_⟩
  · rw [List.mem_singleton.mp hf, List.mem_singleton] at hwr
    rw [hwr] at hcur
    cases hcur
  · obtain ⟨rfl, rfl⟩ := Phase.posting.inj hq
    exact Or.inr ⟨inv, _, rfl, hinv, rfl⟩
  · rw [hphase]
    exact List.mem_cons_of_mem _ hj
  · rw [List.mem_singleton.mp hf, List.mem_singleton] at hwr
    rw [hwr] at hj
    exact absurd hj hnot
  · rw [hphase]
    exact hj

theorem budgeted_sendNext (hb : Budgeted capacity w.rows w.log (w.procs p))
    (htodo : (w.procs p).todo = [])
    (hphase : (w.procs p).phase = .posting i queue) (hnot : i ∉ queue) :
    Budgeted capacity w.rows ((w.sendNext p i queue).said ++ w.log) (w.sendNext p i queue).proc := by
  have hcredit := hb.credit
  rw [Proc.credit, hphase, htodo] at hcredit
  refine ⟨hcredit, by simp [World.sendNext], by simp [World.sendNext], by simp [World.sendNext],
    fun j hj => hb.waiting j ?_, by simp [World.sendNext], fun j hj => ?_⟩
  · rw [hphase]
    exact hj
  · have hne : i ≠ j := fun hij => hnot (hij ▸ hj)
    change postsSince j (.sent p i :: w.log) = []
    rw [postsSince_cons, if_neg (by simp [returnsToPending]), posterOf, if_neg hne]
    refine hb.unsent j ?_
    rw [hphase]
    exact List.mem_cons_of_mem _ hj

theorem budgeted_outcome (hb : Budgeted capacity w.rows w.log (w.procs p)) (env : DispatchReply)
    (hphase : (w.procs p).phase = .awaiting i queue) (hnot : i ∉ queue) :
    Budgeted capacity w.rows w.log ⟨(w.procs p).objs,
      rowFlushes i none (dispatchOutcome i env inv).session.flushed, .dispatching queue⟩ := by
  have hcredit := hb.credit
  rw [Proc.credit, hphase] at hcredit
  have hstatus : ∀ f ∈ rowFlushes i none (dispatchOutcome i env inv).session.flushed,
      ∀ wr ∈ f.writes, wr.id = i ∧
        (wr.cur.status = wr.base.status ∨ wr.cur.status = .failed) := by
    intro f hf wr hwr
    obtain ⟨q, hq, hf, -⟩ := mem_rowFlushes hf
    rw [hf, List.mem_singleton] at hwr
    subst hwr
    obtain ⟨hbase, hwrite⟩ := outcomeWrite_of_mem hq
    refine ⟨rfl, ?_⟩
    rw [hbase]
    exact hwrite.status
  refine ⟨hcredit, fun f hf wr hwr _ hcur => Or.inl ?_, fun f hf wr hwr hcur => Or.inl ?_,
    by simp, fun j hj => hb.waiting j ?_, fun f hf wr hwr hj => ?_, fun j hj => hb.unsent j ?_⟩
  · rcases (hstatus f hf wr hwr).2 with hs | hs
    · exact hs.symm.trans hcur
    · rw [hs] at hcur
      cases hcur
  · rcases (hstatus f hf wr hwr).2 with hs | hs
    · exact hs.symm.trans hcur
    · rw [hs] at hcur
      cases hcur
  · rw [hphase]
    exact hj
  · rw [(hstatus f hf wr hwr).1] at hj
    exact absurd hj hnot
  · rw [hphase]
    exact hj

theorem budgeted_process (hc : ProcOk w.rows (w.procs p))
    (hbusy : busyRows w.rows ≤ cfg.deepagentMaxConcurrentJobs) (env : LocalEnv)
    (hphase : (w.procs p).phase = .working (i :: queue))
    (hobj : (w.procs p).objs i = some inv) :
    Budgeted cfg.deepagentMaxConcurrentJobs w.rows log ⟨(w.procs p).objs,
      rowFlushes i ((processOne cfg i w.clock env inv).2.map (TokenWrite.mk w.tokens))
        (localBoundary env.later (processOne cfg i w.clock env inv).1).flushed,
      .working queue⟩ := by
  have hhermes := hc.working _ hphase i List.mem_cons_self inv hobj
  have hcase : World.MoveCase cfg w p (.process env) _ := .process env hphase hobj
  have hprocOk := procOk_of_move hc hcase
  obtain ⟨r, hr, hkept⟩ := hc.objs i inv hobj
  refine budgeted_of_outside rfl hbusy fun f hf wr hwr hdeep _ => ?_
  obtain ⟨r', hr', hkept'⟩ := (hprocOk.writes f hf wr hwr).2
  obtain ⟨q, -, hf, -⟩ := mem_rowFlushes hf
  rw [hf, List.mem_singleton] at hwr
  subst hwr
  rw [hr] at hr'
  rw [hkept'.externalOrchestrator, ← Option.some.inj hr', ← hkept.externalOrchestrator,
    hhermes] at hdeep
  cases hdeep

/-- **A move keeps its session within the budget.** -/
theorem budgeted_of_move (hc : ProcOk w.rows (w.procs p))
    (hx : Exclusive cfg.deepagentMaxConcurrentJobs w) (htodo : (w.procs p).todo = [])
    (hG : Undisturbed w (.move p a)) (h : World.MoveCase cfg w p a e) :
    Budgeted cfg.deepagentMaxConcurrentJobs w.rows (e.said ++ w.log) e.proc := by
  have hb := hx.budget p
  have hbusy : busyRows w.rows ≤ cfg.deepagentMaxConcurrentJobs :=
    (Nat.le_add_right _ _).trans hb.credit
  -- the first row of a loop does not come again
  have htail : ∀ {phase : Phase} {i : InvId} {queue : List InvId}, (w.procs p).phase = phase →
      phase.queue = i :: queue → i ∉ queue := fun hphase hq => by
    have hnodup := hc.queue
    rw [hphase, hq] at hnodup
    exact (List.nodup_cons.mp hnodup).1
  cases h with
  | tickStart => exact outside_nil rfl hbusy
  | reconcile env => exact budgeted_reconcile env hbusy
  | count => exact budgeted_countSlots hbusy
  | claim hphase => exact budgeted_claim hx hG.1 hphase
  | prepareFailed e later hphase =>
    exact budgeted_prepareFailed hb e later hphase (htail hphase rfl)
  | prepared hphase hobj => exact budgeted_prepared hb hphase (htail hphase rfl) hobj
  | send hphase => exact budgeted_sendNext hb htodo hphase (htail hphase rfl)
  | outcome env hphase => exact budgeted_outcome hb env hphase (htail hphase rfl)
  | selectLocal => exact outside_nil rfl hbusy
  | process env hphase hobj => exact budgeted_process hc hbusy env hphase hobj
  | callback hphase hfree hrow hok =>
    have hterm := CallbackEffect.row_isTerminal hok
    refine outside_one rfl hbusy (Or.inr fun hs => ?_)
    rw [hs] at hterm
    cases hterm
  | status hphase hfree hrow hok =>
    refine outside_one rfl hbusy (Or.inl ?_)
    rw [(updateInvestigationStatus_cases hok).1]
    rfl
  | stop hphase hrow hok =>
    refine outside_one rfl hbusy (Or.inr ?_)
    rw [(stopInvestigation_cases hok).2]
    simp
  | pollStamp hphase =>
    refine budgeted_of_outside rfl hbusy fun f hf wr hwr _ hcur => ?_
    rw [List.mem_singleton.mp hf] at hwr
    rw [(mem_manyWrites hwr).2.2] at hcur
    exact hcur
  | chatReply hphase =>
    refine budgeted_of_outside rfl hbusy fun f hf wr hwr => ?_
    rw [List.mem_singleton.mp hf] at hwr
    exact absurd hwr List.not_mem_nil
  | poll =>
    unfold World.poll
    split
    · exact outside_nil rfl hbusy
    · exact outside_nil rfl hbusy
  | chat =>
    unfold World.chat
    split
    · exact outside_nil rfl hbusy
    · exact outside_nil rfl hbusy
  | _ => exact outside_nil rfl hbusy

theorem credit_of_move (h : World.MoveCase cfg w p a e) :
    a = .count ∨ e.proc.credit ≤ (w.procs p).credit := by
  have hout : ∀ {pr : Proc}, pr.phase.holdsClaims = false → pr.credit ≤ (w.procs p).credit :=
    fun hphase => by rw [credit_of_outside hphase]; exact Nat.zero_le _
  cases h with
  | count => exact Or.inl rfl
  | @claim available ord hphase =>
    refine Or.inr ?_
    have hlen := length_limit ord (fun i => w.keeps claimWhere i && w.free p i) available
    simp only [Proc.credit, hphase, World.selectLimit, hlen]
    exact Nat.min_le_left _ _
  | prepareFailed exc later hphase =>
    refine Or.inr ?_
    simp [Proc.credit, hphase]
  | prepared hphase =>
    refine Or.inr ?_
    simp [Proc.credit, hphase]
  | send hphase =>
    refine Or.inr ?_
    simp [Proc.credit, hphase, World.sendNext]
  | outcome env hphase =>
    refine Or.inr ?_
    simp [Proc.credit, hphase]
  | reconcile =>
    refine Or.inr (hout ?_)
    dsimp only
    split
    · rfl
    · rfl
  | poll =>
    refine Or.inr (hout ?_)
    unfold World.poll
    split
    · rfl
    · rfl
  | chat =>
    refine Or.inr (hout ?_)
    unfold World.chat
    split
    · rfl
    · rfl
  | _ => exact Or.inr (hout rfl)

theorem unsent_of_move (h : World.MoveCase cfg w p a e) (hi : i ∈ e.proc.phase.unsent) :
    i ∈ (w.procs p).phase.unsent ∨ ∃ available ord, (w.procs p).phase = .claiming available ∧
      i ∈ w.selectLimit p claimWhere ord available := by
  have hout : ∀ {phase : Phase}, phase.holdsClaims = false → i ∉ phase.unsent :=
    fun hphase hi => by rw [unsent_of_outside hphase] at hi; exact absurd hi List.not_mem_nil
  cases h with
  | @claim available ord hphase => exact Or.inr ⟨available, ord, hphase, hi⟩
  | prepareFailed exc later hphase =>
    rw [hphase]
    exact Or.inl (List.mem_cons_of_mem _ hi)
  | prepared hphase =>
    rw [hphase]
    exact Or.inl hi
  | send hphase =>
    rw [hphase]
    exact Or.inl (List.mem_cons_of_mem _ hi)
  | outcome env hphase =>
    rw [hphase]
    exact Or.inl hi
  | count =>
    unfold World.countSlots at hi
    dsimp only at hi
    split at hi
    · exact absurd hi List.not_mem_nil
    · exact absurd hi List.not_mem_nil
  | reconcile =>
    dsimp only at hi
    split at hi
    · exact absurd hi List.not_mem_nil
    · exact absurd hi List.not_mem_nil
  | poll =>
    unfold World.poll at hi
    dsimp only at hi
    split at hi
    · exact absurd hi List.not_mem_nil
    · exact absurd hi List.not_mem_nil
  | chat =>
    unfold World.chat at hi
    split at hi
    · exact absurd hi List.not_mem_nil
    · exact absurd hi List.not_mem_nil
  | _ => exact absurd hi (hout rfl)

theorem not_unsent_of_claimed (hx : Exclusive cfg.deepagentMaxConcurrentJobs w)
    (hphase : (w.procs p).phase = .claiming available)
    (hi : i ∈ w.selectLimit p claimWhere ord available) {q : Pid} (hq : q ≠ p) :
    i ∉ (w.procs q).phase.unsent := by
  intro hmem
  obtain ⟨r, hr, hkeeps⟩ := World.keeps_iff.mp (World.of_mem_selectLimit hi).2.1
  have hpending : r.status = .pending := ((holds_claimWhere r).mp hkeeps).2
  -- the tick that claims has the slots, so the other has none
  have hpos : available ≠ 0 := by
    rintro rfl
    rw [World.selectLimit, limit, List.take_zero] at hi
    exact absurd hi List.not_mem_nil
  have hzero : (w.procs q).credit = 0 := by
    by_contra hne
    refine hq (hx.alone q p hne ?_)
    rw [Proc.credit, hphase]
    exact hpos
  cases hphase' : (w.procs q).phase with
  | dispatching queue =>
    rw [hphase'] at hmem
    simp only [Proc.credit, hphase'] at hzero
    rw [Phase.unsent, List.length_eq_zero_iff.mp hzero] at hmem
    exact absurd hmem List.not_mem_nil
  | awaiting j queue =>
    rw [hphase'] at hmem
    simp only [Proc.credit, hphase'] at hzero
    rw [Phase.unsent, List.length_eq_zero_iff.mp hzero] at hmem
    exact absurd hmem List.not_mem_nil
  | posting j queue =>
    rw [hphase'] at hmem
    simp only [Proc.credit, hphase'] at hzero
    -- its row has left the queue
    rcases (hx.budget q).posting j queue hphase' with ⟨-, r', hr', hne⟩ | ⟨b, c, htodo, -⟩
    · have hqueue : queue = [] := List.length_eq_zero_iff.mp (by omega)
      rw [Phase.unsent, hqueue, List.mem_singleton] at hmem
      subst hmem
      rw [hr] at hr'
      exact hne (Option.some.inj hr' ▸ hpending)
    · rw [htodo] at hzero
      simp at hzero
  | _ =>
    rw [hphase'] at hmem
    exact absurd hmem List.not_mem_nil

/-- **A move keeps the invariant.** -/
theorem exclusive_of_move (hc : Coherent w)
    (hx : Exclusive cfg.deepagentMaxConcurrentJobs w) (htodo : (w.procs p).todo = [])
    (hG : Undisturbed w (.move p a)) (h : World.MoveCase cfg w p a e) :
    Exclusive cfg.deepagentMaxConcurrentJobs (w.moved p e) := by
  have hself : (w.moved p e).procs p = e.proc := Function.update_self ..
  have hother : ∀ q, q ≠ p → (w.moved p e).procs q = w.procs q :=
    fun q hq => Function.update_of_ne hq ..
  -- the row that is posted is about to be posted by no other process
  have hlog : ∀ q, q ≠ p → ∀ i ∈ (w.procs q).phase.unsent,
      postsSince i (e.said ++ w.log) = postsSince i w.log := by
    intro q hq i hi
    rcases postsSince_of_said h i with hsame | ⟨queue, hphase, -⟩
    · exact hsame
    · refine absurd (hx.disjoint q p i hi ?_) hq
      rw [hphase]
      exact List.mem_cons_self
  have hcredit : ∀ q, q ≠ p → e.proc.credit ≠ 0 → (w.procs q).credit ≠ 0 → False := by
    intro q hq hp hne
    rcases credit_of_move h with rfl | hle
    · exact hne (hG.2 q hq)
    · exact hq (hx.alone q p hne (by omega))
  have hunsent : ∀ q, q ≠ p → ∀ i, i ∈ e.proc.phase.unsent → i ∈ (w.procs q).phase.unsent →
      False := by
    intro q hq i hi hmem
    rcases unsent_of_move h hi with hi | ⟨available, ord, hphase, hi⟩
    · exact hq (hx.disjoint q p i hmem hi)
    · exact not_unsent_of_claimed hx hphase hi hq hmem
  refine ⟨?_, fun q₁ q₂ h₁ h₂ => ?_, fun q₁ q₂ i h₁ h₂ => ?_, fun i hne => ?_, fun i => ?_⟩
  · exact forall_procs_update
      (I := fun _ pr => Budgeted cfg.deepagentMaxConcurrentJobs w.rows (e.said ++ w.log) pr)
      (budgeted_of_move (hc p) hx htodo hG h) fun q hq => (hx.budget q).congr_log (hlog q hq)
  · by_cases hq₁ : q₁ = p <;> by_cases hq₂ : q₂ = p
    · exact hq₁.trans hq₂.symm
    · subst hq₁
      rw [hself] at h₁
      rw [hother q₂ hq₂] at h₂
      exact (hcredit q₂ hq₂ h₁ h₂).elim
    · subst hq₂
      rw [hself] at h₂
      rw [hother q₁ hq₁] at h₁
      exact (hcredit q₁ hq₁ h₂ h₁).elim
    · rw [hother q₁ hq₁] at h₁
      rw [hother q₂ hq₂] at h₂
      exact hx.alone q₁ q₂ h₁ h₂
  · by_cases hq₁ : q₁ = p <;> by_cases hq₂ : q₂ = p
    · exact hq₁.trans hq₂.symm
    · subst hq₁
      rw [hself] at h₁
      rw [hother q₂ hq₂] at h₂
      exact (hunsent q₂ hq₂ i h₁ h₂).elim
    · subst hq₂
      rw [hself] at h₂
      rw [hother q₁ hq₁] at h₁
      exact (hunsent q₁ hq₁ i h₂ h₁).elim
    · rw [hother q₁ hq₁] at h₁
      rw [hother q₂ hq₂] at h₂
      exact hx.disjoint q₁ q₂ i h₁ h₂
  · rcases postsSince_of_said h i with hsame | ⟨queue, hphase, rfl⟩
    · exact hx.posted i (hsame ▸ hne)
    · rcases (hx.budget p).posting i queue hphase with ⟨-, hrow⟩ | ⟨b, c, hf, -⟩
      · exact hrow
      · rw [htodo] at hf
        cases hf
  · rcases World.said_cases h with ⟨replies, hsaid⟩ | ⟨j, queue, hphase, rfl⟩
    · change PostedOnce i (e.said ++ w.log)
      rw [hsaid]
      exact (hx.once i).replies replies
    · refine ⟨fun hpost => ?_, hx.once i⟩
      -- a row is posted only when it was not posted since its return
      have hj : j = i := by
        by_contra hne
        rw [posterOf, if_neg hne] at hpost
        cases hpost
      subst hj
      refine (hx.budget p).unsent j ?_
      rw [hphase]
      exact List.mem_cons_self

/-! ## Commits -/

theorem busyRows_rowsAfter_le {ws : List Write} (hnodup : (ws.map Write.id).Nodup)
    (hwrites : ∀ wr ∈ ws, Kept wr.base wr.cur ∧ Copies rows wr.id wr.base)
    (hraises : ∀ wr ∈ ws, wr.base.externalOrchestrator = some .deepagent →
      wr.cur.status = .analyzing → wr.base.status = .analyzing) :
    busyRows (rowsAfter rows ws) ≤ busyRows rows := by
  refine Table.count_le_count (keys_rowsAfter rows ws) fun i r' hr' hbusy => ?_
  rcases rowsAfter_cases hnodup hr' with ⟨wr, hwr, rfl, r, hr, rfl⟩ | ⟨-, hr⟩
  · obtain ⟨hkept, r₀, hr₀, hcopy⟩ := hwrites wr hwr
    rw [hr] at hr₀
    obtain rfl := Option.some.inj hr₀
    obtain ⟨hdeep, hana⟩ := (holds_reconcileWhere _).mp hbusy
    have hdeep' : r.externalOrchestrator = some .deepagent := by
      rw [← (hkept.writeBack r).externalOrchestrator]
      exact hdeep
    refine ⟨r, hr, (holds_reconcileWhere r).mpr ⟨hdeep', ?_⟩⟩
    rw [status_writeBack] at hana
    rcases pick_cases wr.base.status wr.cur.status r.status with ⟨-, hpick⟩ | ⟨hne, hpick⟩
    · rw [← hpick]
      exact hana
    · rw [hpick] at hana
      refine absurd ?_ hne
      rw [hraises wr hwr (hcopy.externalOrchestrator.trans hdeep') hana]
      exact hana
  · exact ⟨r', hr, hbusy⟩

theorem busyRows_rowsAfter_one (rows : Table InvId DfirInvestigation) (wr : Write) :
    busyRows (rowsAfter rows [wr]) ≤ busyRows rows + 1 :=
  Table.count_modify_le_succ rows wr.id _ _

/-- A row that has left the queue comes back only by a write that returns it. -/
theorem not_pending_rowsAfter {ws : List Write}
    (hnodup : (ws.map Write.id).Nodup) {r : DfirInvestigation}
    (hr : rows.get i = some r) (hne : r.status ≠ .pending)
    (hnot : ∀ wr ∈ ws, wr.id = i → wr.cur.status = .pending → wr.base.status = .pending) :
    ∃ r', (rowsAfter rows ws).get i = some r' ∧ r'.status ≠ .pending := by
  obtain ⟨r', hr'⟩ := exists_get_rowsAfter ws hr
  refine ⟨r', hr', fun hp => ?_⟩
  rcases rowsAfter_cases hnodup hr' with ⟨wr, hwr, rfl, r₀, hr₀, rfl⟩ | ⟨-, hr₀⟩
  · rw [hr] at hr₀
    obtain rfl := Option.some.inj hr₀
    rw [status_writeBack] at hp
    rcases pick_cases wr.base.status wr.cur.status r.status with ⟨-, hpick⟩ | ⟨hpne, hpick⟩
    · exact hne (hpick.symm.trans hp)
    · rw [hpick] at hp
      exact hpne (hp.trans (hnot wr hwr rfl hp).symm)
  · rw [hr] at hr₀
    exact hne (Option.some.inj hr₀ ▸ hp)

theorem returnsToPending_committed {ws : List Write} {tokens : Option TokenWrite} :
    returnsToPending i (.committed p ws tokens) = true ↔
      ∃ wr ∈ ws, wr.id = i ∧ wr.cur.status = .pending ∧ wr.base.status ≠ .pending := by
  simp [returnsToPending]

theorem postsSince_committed (i : InvId) (f : Flush) (rest : List Flush) :
    postsSince i (w.committed p f rest).log =
      if returnsToPending i (.committed p f.writes f.tokens) then [] else postsSince i w.log := by
  change postsSince i (f.reply.toList.map Event.replied ++
    .committed p f.writes f.tokens :: w.log) = _
  rw [postsSince_replies, postsSince_cons]
  rfl

/-- A row that has not been posted since its return has not been after a commit either. -/
theorem postsSince_committed_nil {f : Flush} {rest : List Flush}
    (h : postsSince i w.log = []) : postsSince i (w.committed p f rest).log = [] := by
  rw [postsSince_committed, h]
  exact ite_self _

/-- **A commit keeps its session within the budget**, and leaves room for the others. -/
theorem budgeted_of_commit {f : Flush} {rest : List Flush}
    (hc : ProcOk w.rows (w.procs p)) (hb : Budgeted capacity w.rows w.log (w.procs p))
    (htodo : (w.procs p).todo = f :: rest) :
    Budgeted capacity (rowsAfter w.rows f.writes) (w.committed p f rest).log
        ⟨objsAfter (w.procs p).objs f.writes, rest, (w.procs p).phase⟩ ∧
      (⟨objsAfter (w.procs p).objs f.writes, rest, (w.procs p).phase⟩ : Proc).credit ≤
        (w.procs p).credit ∧ (busyRows (rowsAfter w.rows f.writes) ≤ busyRows w.rows ∨
        ((w.procs p).credit ≠ 0 ∧ busyRows (rowsAfter w.rows f.writes) ≤ capacity)) := by
  have hmem : f ∈ (w.procs p).todo := by rw [htodo]; exact List.mem_cons_self
  have hrest : ∀ g ∈ rest, g ∈ (w.procs p).todo := fun g hg => by
    rw [htodo]; exact List.mem_cons_of_mem _ hg
  have hwaiting : ∀ i ∈ (w.procs p).phase.waiting, ∀ o,
      objsAfter (w.procs p).objs f.writes i = some o → o.status = .pending := by
    intro i hi o ho
    rcases objsAfter_cases ho with ⟨wr, hwr, rfl, rfl⟩ | ⟨-, ho⟩
    · exact hb.writes f hmem wr hwr hi
    · exact hb.waiting i hi o ho
  have hunsent : ∀ i ∈ (w.procs p).phase.unsent, postsSince i (w.committed p f rest).log = [] :=
    fun i hi => postsSince_committed_nil (hb.unsent i hi)
  by_cases hposting : ∃ i queue, (w.procs p).phase = .posting i queue
  · -- the commit before a post: it takes one of the session's own slots
    obtain ⟨i, queue, hphase⟩ := hposting
    rcases hb.posting i queue hphase with ⟨hnil, -⟩ | ⟨b, c, hone, hbp, hca⟩
    · rw [htodo] at hnil
      cases hnil
    · obtain ⟨rfl, rfl⟩ := List.cons.inj (htodo.symm.trans hone)
      have hcredit := hb.credit
      simp only [Proc.credit, hphase, htodo, List.isEmpty_cons, Bool.false_eq_true,
        if_false] at hcredit
      have hle := busyRows_rowsAfter_one w.rows ⟨i, b, c⟩
      obtain ⟨r, hr, -⟩ := (hc.writes _ hmem ⟨i, b, c⟩ (List.mem_singleton_self _)).2
      refine ⟨⟨?_, by simp, by simp, fun j q hq => Or.inl ⟨rfl, ?_⟩, hwaiting, by simp, hunsent⟩,
        ?_, Or.inr ⟨?_, ?_⟩⟩
      · simp only [Proc.credit, hphase, List.isEmpty_nil, if_true]
        omega
      · obtain ⟨rfl, rfl⟩ := Phase.posting.inj (hphase.symm.trans hq)
        refine ⟨writeBack b c r, ?_, ?_⟩
        · rw [get_rowsAfter_one w.rows ⟨i, b, c⟩, hr]
          rfl
        · rw [status_writeBack, pick_of_ne (by rw [hbp, hca]; simp), hca]
          simp
      · simp only [Proc.credit, hphase, List.isEmpty_nil, if_true]
        omega
      · simp [Proc.credit, hphase, htodo]
      · exact hle.trans (by omega)
  · have hcredit : (⟨objsAfter (w.procs p).objs f.writes, rest, (w.procs p).phase⟩ :
        Proc).credit = (w.procs p).credit := by
      cases hphase : (w.procs p).phase with
      | posting i queue => exact absurd ⟨i, queue, hphase⟩ hposting
      | _ => simp only [Proc.credit, hphase]
    have hle : busyRows (rowsAfter w.rows f.writes) ≤ busyRows w.rows :=
      busyRows_rowsAfter_le (hc.nodup f hmem) (hc.writes f hmem) fun wr hwr hd ha =>
        (hb.raises f hmem wr hwr hd ha).resolve_right hposting
    refine ⟨⟨?_, fun g hg => hb.raises g (hrest g hg), fun g hg => hb.requeues g (hrest g hg),
      fun i queue hq => absurd ⟨i, queue, hq⟩ hposting, hwaiting,
      fun g hg => hb.writes g (hrest g hg), hunsent⟩, hcredit.le, Or.inl hle⟩
    rw [hcredit]
    exact (Nat.add_le_add_right hle _).trans hb.credit

/-- **A commit keeps the invariant.** -/
theorem exclusive_of_commit {f : Flush} {rest : List Flush} (hc : Coherent w)
    (hx : Exclusive capacity w) (htodo : (w.procs p).todo = f :: rest)
    (hG : Undisturbed w (.commit p)) : Exclusive capacity (w.committed p f rest) := by
  have hmem : f ∈ (w.procs p).todo := by rw [htodo]; exact List.mem_cons_self
  obtain ⟨hbudget, hcredit, hbusy⟩ := budgeted_of_commit (hc p) (hx.budget p) htodo
  have hself : (w.committed p f rest).procs p =
      ⟨objsAfter (w.procs p).objs f.writes, rest, (w.procs p).phase⟩ := Function.update_self ..
  have hother : ∀ q, q ≠ p → (w.committed p f rest).procs q = w.procs q :=
    fun q hq => Function.update_of_ne hq ..
  have hphases : ∀ q, ((w.committed p f rest).procs q).phase = (w.procs q).phase := by
    intro q
    by_cases hq : q = p
    · subst hq
      rw [hself]
    · rw [hother q hq]
  have hcredits : ∀ q, ((w.committed p f rest).procs q).credit ≤ (w.procs q).credit := by
    intro q
    by_cases hq : q = p
    · subst hq
      rw [hself]
      exact hcredit
    · rw [hother q hq]
  -- a row that another session is about to post is not returned to the queue
  have hkeep : ∀ q, q ≠ p → ∀ i ∈ (w.procs q).phase.unsent, ∀ wr ∈ f.writes, wr.id = i →
      wr.cur.status = .pending → wr.base.status = .pending := by
    rintro q hq i hi wr hwr rfl hcur
    by_contra hbase
    exact hG.2 q hq f (by rw [htodo]; rfl) wr hwr hcur hbase hi
  have hothers : ∀ q, q ≠ p →
      Budgeted capacity (rowsAfter w.rows f.writes) (w.committed p f rest).log (w.procs q) := by
    intro q hq
    have hb := hx.budget q
    refine { hb with credit := ?_, posting := fun i queue hphase => ?_, unsent := fun i hi =>
      postsSince_committed_nil (hb.unsent i hi) }
    · have hle := hb.credit
      rcases hbusy with hsame | ⟨hpos, hcap⟩
      · omega
      · -- only one session has slots to take
        have hzero : (w.procs q).credit = 0 := by
          by_contra hne
          exact hq (hx.alone q p hne hpos)
        omega
    · rcases hb.posting i queue hphase with ⟨hnil, r, hr, hne⟩ | hone
      · refine Or.inl ⟨hnil, not_pending_rowsAfter ((hc p).nodup f hmem) hr hne ?_⟩
        refine hkeep q hq i ?_
        rw [hphase]
        exact List.mem_cons_self
      · exact Or.inr hone
  refine ⟨?_, fun q₁ q₂ h₁ h₂ => ?_, fun q₁ q₂ i h₁ h₂ => ?_, fun i hne => ?_, fun i => ?_⟩
  · exact forall_procs_update (I := fun _ pr => Budgeted capacity (rowsAfter w.rows f.writes)
      (w.committed p f rest).log pr) hbudget hothers
  · have hle₁ := hcredits q₁
    have hle₂ := hcredits q₂
    exact hx.alone q₁ q₂ (by omega) (by omega)
  · rw [hphases] at h₁ h₂
    exact hx.disjoint q₁ q₂ i h₁ h₂
  · rw [postsSince_committed] at hne
    split at hne
    · exact absurd rfl hne
    · rename_i hnot
      obtain ⟨r, hr, hstatus⟩ := hx.posted i hne
      refine not_pending_rowsAfter ((hc p).nodup f hmem) hr hstatus fun wr hwr hid hcur => ?_
      by_contra hbase
      exact hnot (returnsToPending_committed.mpr ⟨wr, hwr, hid, hcur, hbase⟩)
  · have hcommit : PostedOnce i (.committed p f.writes f.tokens :: w.log) :=
      ⟨by simp [posterOf], hx.once i⟩
    exact hcommit.replies f.reply.toList

/-! ## Runs -/

theorem exclusive_step {a : Action} (hc : Coherent w)
    (hx : Exclusive cfg.deepagentMaxConcurrentJobs w) (hG : Undisturbed w a)
    (h : step cfg w a = some w') : Exclusive cfg.deepagentMaxConcurrentJobs w' := by
  cases step_cases h with
  | advance d => exact ⟨hx.budget, hx.alone, hx.disjoint, hx.posted, hx.once⟩
  | @created i env req r hnew hfresh =>
    have hbusy : busyRows (w.rows.insert i r) = busyRows w.rows := by
      refine Table.count_insert_of_not w.rows i ?_
      rw [Bool.eq_false_iff]
      intro hholds
      have hana := ((holds_reconcileWhere r).mp hholds).2
      rw [hfresh.status] at hana
      cases hana
    refine ⟨fun q => ?_, hx.alone, hx.disjoint, fun j hne => ?_, hx.once⟩
    · refine { hx.budget q with credit := ?_, posting := fun j queue hphase => ?_ }
      · rw [hbusy]
        exact (hx.budget q).credit
      · rcases (hx.budget q).posting j queue hphase with ⟨hnil, s, hs, hne⟩ | hone
        · exact Or.inl ⟨hnil, s, Table.get_insert_of_get hs, hne⟩
        · exact Or.inr hone
    · obtain ⟨s, hs, hne⟩ := hx.posted j hne
      exact ⟨s, Table.get_insert_of_get hs, hne⟩
  | refused => exact hx
  | @move p m e htodo hmove => exact exclusive_of_move hc hx htodo hG hmove
  | @commit p f rest htodo hfree => exact exclusive_of_commit hc hx htodo hG
  | close p =>
    have hbusy : busyRows w.rows ≤ cfg.deepagentMaxConcurrentJobs :=
      (Nat.le_add_right _ _).trans (hx.budget p).credit
    have hself : (w.close p).procs p = Proc.over := Function.update_self ..
    have hother : ∀ q, q ≠ p → (w.close p).procs q = w.procs q :=
      fun q hq => Function.update_of_ne hq ..
    have hcredits : ∀ q, ((w.close p).procs q).credit ≤ (w.procs q).credit := by
      intro q
      by_cases hq : q = p
      · subst hq
        rw [hself]
        exact Nat.zero_le _
      · rw [hother q hq]
    have hunsent : ∀ q i, i ∈ ((w.close p).procs q).phase.unsent →
        i ∈ (w.procs q).phase.unsent := by
      intro q i hi
      by_cases hq : q = p
      · subst hq
        rw [hself] at hi
        exact absurd hi List.not_mem_nil
      · rwa [hother q hq] at hi
    refine ⟨?_, fun q₁ q₂ h₁ h₂ => ?_, fun q₁ q₂ i h₁ h₂ => ?_, hx.posted, hx.once⟩
    · exact forall_procs_update
        (I := fun _ pr => Budgeted cfg.deepagentMaxConcurrentJobs w.rows w.log pr)
        (outside_nil rfl hbusy) fun q _ => hx.budget q
    · have hle₁ := hcredits q₁
      have hle₂ := hcredits q₂
      exact hx.alone q₁ q₂ (by omega) (by omega)
    · exact hx.disjoint q₁ q₂ i (hunsent q₁ i h₁) (hunsent q₂ i h₂)

theorem exclusive_of_quiet (h : w.Quiet) (hbusy : busyRows w.rows ≤ capacity) :
    Exclusive capacity w where
  budget p := by rw [h.procs p]; exact outside_nil rfl hbusy
  alone p q hp := by rw [h.procs p] at hp; exact absurd rfl hp
  disjoint p q i hi := by rw [h.procs p] at hi; exact absurd hi List.not_mem_nil
  posted i hne := by rw [h.log] at hne; exact absurd rfl hne
  once i := by rw [h.log]; trivial

/-- **Capacity and at-most-once dispatch.**  In every undisturbed run, from any table within the
capacity, the busy slots never exceed it, and in every stretch of the log in which a row is not
returned to the queue, it is posted once at most. -/
theorem capacity_of_runs (cfg : Settings) {w₀ w : World} (hquiet : w₀.Quiet)
    (hbusy : busyRows w₀.rows ≤ cfg.deepagentMaxConcurrentJobs)
    (hrun : Runs (step cfg) Undisturbed w₀ w) : busyRows w.rows ≤ cfg.deepagentMaxConcurrentJobs ∧
      ∀ (i : InvId) (l₁ l₂ l₃ : List Event), w.log = l₁ ++ l₂ ++ l₃ →
        (∀ e ∈ l₂, returnsToPending i e = false) → (posts i l₂).length ≤ 1 := by
  have hinv : Coherent w ∧ Exclusive cfg.deepagentMaxConcurrentJobs w :=
    hrun.invariant (I := fun w => Coherent w ∧ Exclusive cfg.deepagentMaxConcurrentJobs w)
      (fun _ _ _ hI hG hstep => ⟨coherent_step hI.1 hstep, exclusive_step hI.1 hI.2 hG hstep⟩)
      ⟨hquiet.coherent, exclusive_of_quiet hquiet hbusy⟩
  refine ⟨(Nat.le_add_right _ _).trans (hinv.2.budget 0).credit, fun i l₁ l₂ l₃ hlog hl₂ => ?_⟩
  have honce := hinv.2.once i
  rw [hlog] at honce
  exact honce.length_posts_le hl₂

end Steps

/-! ## Two ticks -/

/-- Two investigations wait; each of two ticks counts the one free slot. -/
def bothCounted : List Action :=
  [requestNew "1" "deepagent", .advance 1, requestNew "2" "deepagent",
    .move 0 (.tickStart ["1", "2"]), .move 0 .count, .move 1 (.tickStart ["1", "2"]),
    .move 1 .count]

/-- The first tick claims the older row; the second skips it, since it is locked, and claims the
other.  Both are dispatched. -/
def bothClaimed : List Action :=
  bothCounted ++ [.move 0 (.claim ["1", "2"]), .move 1 (.claim ["1", "2"]), .commit 0, .commit 1] ++
    dispatchOne 0 readTimeout ++ dispatchOne 1 readTimeout

/-- The first tick claims the older row and commits; the second then claims it again, for it is
still pending.  Both post it. -/
def claimedAgain : List Action :=
  bothCounted ++ [.move 0 (.claim ["1", "2"]), .commit 0, .move 1 (.claim ["1", "2"]), .commit 1] ++
    dispatchOne 0 readTimeout ++ dispatchOne 1 readTimeout

/-- **Without the condition both properties fail**, with a capacity of one. -/
theorem claimed_twice :
    (¬ ∀ w, Runs (step (sampleSettings 1)) anyAction emptyWorld w → busyRows w.rows ≤ 1) ∧
      ¬ ∀ w, Runs (step (sampleSettings 1)) anyAction emptyWorld w →
        ∀ (i : InvId) (l₁ l₂ l₃ : List Event), w.log = l₁ ++ l₂ ++ l₃ →
          (∀ e ∈ l₂, returnsToPending i e = false) → (posts i l₂).length ≤ 1 := by
  constructor
  · intro h
    obtain ⟨w, hrun, hbusy⟩ := exists_runs_of_exec (G := anyAction) (step (sampleSettings 1))
      emptyWorld bothClaimed (p := fun w => decide (busyRows w.rows = 2)) (by decide +kernel)
    have hle := h w hrun
    rw [of_decide_eq_true hbusy] at hle
    omega
  · intro h
    obtain ⟨w, hrun, hposts⟩ := exists_runs_of_exec (G := anyAction) (step (sampleSettings 1))
      emptyWorld claimedAgain
      (p := fun w => decide ((posts "1" w.log).length = 2) &&
        w.log.all fun e => !returnsToPending "1" e) (by decide +kernel)
    rw [Bool.and_eq_true, decide_eq_true_eq, List.all_eq_true] at hposts
    have hle := h w hrun "1" [] w.log [] (by simp) fun e he => by simpa using hposts.2 e he
    rw [hposts.1] at hle
    omega

instance (w : World) (a : Action) : Decidable (ClaimsFresh w a) := by
  unfold ClaimsFresh
  split <;> infer_instance

instance (w : World) (q : Pid) : (a : Action) → Decidable (OutOfTheWay w q a)
  | .advance _ | .create .. | .close _ => isTrue trivial
  | .commit _ => by dsimp only [OutOfTheWay]; exact instDecidableForall
  | .move _ m => by induction m using Move.casesOn <;> dsimp only [OutOfTheWay] <;> infer_instance

/-- Only the first processes step, and none of them is in the way. -/
def AmongFirst (n : ℕ) (w : World) (a : Action) : Prop :=
  ClaimsFresh w a ∧ (∀ q < n, OutOfTheWay w q a) ∧ ∀ p ∈ a.actor, p < n

instance (n : ℕ) (w : World) (a : Action) : Decidable (AmongFirst n w a) := by
  unfold AmongFirst
  infer_instance

theorem undisturbed_of_amongFirst {cfg : Settings} {n : ℕ} {w₀ w : World} (hquiet : w₀.Quiet)
    (h : Runs (step cfg) (AmongFirst n) w₀ w) : Runs (step cfg) Undisturbed w₀ w := by
  refine h.mono_of_invariant (I := fun w => ∀ q, n ≤ q → w.procs q = Proc.fresh)
    (fun w a w' hI hG hstep q hq => ?_) (fun w a hI hG => ⟨hG.1, fun q => ?_⟩)
    fun q _ => hquiet.procs q
  · rw [procs_of_step hstep fun hactor => ?_]
    · exact hI q hq
    · exact absurd hq (Nat.not_le.mpr (hG.2.2 q hactor))
  · by_cases hq : q < n
    · exact hG.2.1 q hq
    · have hfresh := hI q (Nat.le_of_not_lt hq)
      unfold OutOfTheWay
      split
      · intro _
        rw [hfresh]
        rfl
      · intro _ f _ wr _ _ _
        rw [hfresh]
        exact List.not_mem_nil
      · trivial

/-- Two ticks overlap: the second reconciles, counts and claims while the first waits for the answer
to its post.  Two slots of two are busy then. -/
theorem capacity_of_overlap :
    ∃ w, Runs (step (sampleSettings 2)) Undisturbed emptyWorld w ∧ busyRows w.rows = 2 ∧
      (posts "1" w.log).length = 1 ∧ busyRows w.rows ≤ 2 ∧
      ∀ (i : InvId) (l₁ l₂ l₃ : List Event), w.log = l₁ ++ l₂ ++ l₃ →
        (∀ e ∈ l₂, returnsToPending i e = false) → (posts i l₂).length ≤ 1 := by
  obtain ⟨w, hrun, hbusy⟩ := exists_runs_of_exec (G := AmongFirst 2) (step (sampleSettings 2))
    emptyWorld
    ([requestNew "1" "deepagent", .move 0 (.tickStart ["1"]), .move 0 .count,
      .move 0 (.claim ["1"]), .commit 0,
      .move 0 (.prepare ⟨.ok "windows", true, some "key", some (.ok "yaml"), .ok ()⟩ 0), .commit 0,
      .move 0 .send, .advance 1, requestNew "2" "deepagent", .move 1 (.tickStart ["1", "2"]),
      .move 1 (.reconcile ⟨readTimeout, 0⟩), .move 1 .count,
      .move 1 (.claim ["1", "2"]), .commit 1] ++ dispatchOne 1 readTimeout ++
      [.move 0 (.outcome ⟨readTimeout, 0⟩ 0), .commit 0])
    (p := fun w => decide (busyRows w.rows = 2 ∧ (posts "1" w.log).length = 1))
    (by decide +kernel)
  have hquiet : emptyWorld.Quiet := World.quiet_start 0 Table.empty 0
  have hrun' := undisturbed_of_amongFirst hquiet hrun
  obtain ⟨hbusy, hposts⟩ := of_decide_eq_true hbusy
  exact ⟨w, hrun', hbusy, hposts, capacity_of_runs (sampleSettings 2) hquiet (by decide) hrun'⟩

end AssetInventory
