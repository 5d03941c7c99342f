import AssetInventory.Dfir.Slots

/-!
# Result callbacks take effect once

A callback locks its row before it looks at it, so callbacks to one investigation are served one
after the other, however they interleave.

* `Served`: callbacks served one after the other, each on the row the one before it left: the row,
  the token counter and the answers, newest first.
* `served_of_runs`: interleaved callbacks to one investigation are served one after the other.
* `submitExternalResult_ended`: what a callback to an ended investigation is answered.
* `callbacks_once`: the first accepted callback decides the row, and everything after it is a replay
  or a conflict.
* `callbacks_not_all_rejected`: what does not hold.  An error callback stores no severity, and after
  the end only the key is compared.
-/

namespace AssetInventory

open PyJson PyTime Orm DfirInvestigation RowStore Interleaving

/-! ## One after the other -/

/-- A callback with its answer. -/
abbrev Exchange := ResultCallback × Except CallbackError Snapshot

/-- **Served one after the other**, from the row `r` and the counter `n`. -/
inductive Served (i : InvId) (r : DfirInvestigation) (n : ℤ) :
    DfirInvestigation → ℤ → List Exchange → Prop where
  | start : Served i r n r n []
  | ok {r' : DfirInvestigation} {n' : ℤ} {l : List Exchange} {t : Time} {call : ResultCallback}
      {e : CallbackEffect} (h : Served i r n r' n' l)
      (hok : submitExternalResult i t call (some r') = .ok e) :
      Served i r n e.row (n' + e.spent.getD 0) ((call, .ok (invToDict i e.row)) :: l)
  | error {r' : DfirInvestigation} {n' : ℤ} {l : List Exchange} {t : Time} {call : ResultCallback}
      {e : CallbackError} (h : Served i r n r' n' l)
      (herr : submitExternalResult i t call (some r') = .error e) :
      Served i r n r' n' ((call, .error e) :: l)

/-- The callbacks to an investigation that were answered, newest first. -/
def exchangeOf (i : InvId) : Event → Option Exchange
  | .replied (.answered j call reply) => if j = i then some (call, reply) else none
  | _ => none

/-- The callbacks to an investigation that were answered, newest first. -/
def exchanges (i : InvId) (log : List Event) : List Exchange := log.filterMap (exchangeOf i)

theorem exchanges_answered (i : InvId) (call : ResultCallback)
    (reply : Except CallbackError Snapshot) (log : List Event) :
    exchanges i (.replied (.answered i call reply) :: log) = (call, reply) :: exchanges i log := by
  simp [exchanges, exchangeOf]

/-! ## Interleaved callbacks are served one after the other -/

section Runs

variable {cfg : Settings} {w w' : World}

/-- The steps of callbacks to one investigation: they arrive, commit, or crash, and time passes. -/
def OnlyCallbacks (i : InvId) (_ : World) : Action → Prop
  | .advance _ => True
  | .move _ (.callback j _) => j = i
  | .commit _ => True
  | .close _ => True
  | _ => False

/-- What a callback process has still to commit: nothing, or the effect of its callback on the row as
it is, which it has locked. -/
def Serving (i : InvId) (w : World) (p : Pid) : Prop :=
  (w.procs p).todo = [] ∨
    ∃ r t call e, w.rows.get i = some r ∧ submitExternalResult i t call (some r) = .ok e ∧
      (w.procs p).todo = [⟨[⟨i, r, e.row⟩], e.spent.map (TokenWrite.mk w.tokens),
        some (.answered i call (.ok (invToDict i e.row)))⟩] ∧ w.locks i = some p

/-- The counter after the write of an amount, when nobody wrote it since it was read. -/
theorem tokensAfter_read (n : ℤ) (spent : Option ℤ) :
    tokensAfter n (spent.map (TokenWrite.mk n)) = n + spent.getD 0 := by
  cases spent with
  | none => exact (add_zero n).symm
  | some k => exact pick_base n (n + k)

/-- **Serving is one at a time.**  A process that has something to commit excludes the others. -/
theorem todo_eq_nil_of_free {i : InvId} {p q : Pid} (hserving : Serving i w q)
    (hfree : w.free p i = true) (hq : q ≠ p) : (w.procs q).todo = [] := by
  rcases hserving with h | ⟨r, t, call, e, -, -, -, hlock⟩
  · exact h
  · rcases World.free_iff.mp hfree with hnone | hp
    · rw [hlock] at hnone
      cases hnone
    · rw [hlock] at hp
      exact absurd (Option.some.inj hp) hq

variable {r r' inv : DfirInvestigation}

theorem served_step {i : InvId} {n : ℤ} {a : Action}
    (hserving : ∀ p, Serving i w p) (hrow : w.rows.get i = some r')
    (hserved : Served i r n r' w.tokens (exchanges i w.log)) (hG : OnlyCallbacks i w a)
    (h : step cfg w a = some w') : (∀ p, Serving i w' p) ∧
      ∃ r'', w'.rows.get i = some r'' ∧ Served i r n r'' w'.tokens (exchanges i w'.log) := by
  cases step_cases h with
  | advance d => exact ⟨hserving, r', hrow, hserved⟩
  | created => exact hG.elim
  | refused => exact hG.elim
  | @move p m e htodo hcase =>
    cases hcase with
    | @callback j inv call eff hphase hfree hinv hok =>
      obtain rfl : j = i := hG
      refine ⟨fun q => ?_, r', hrow, hserved⟩
      by_cases hq : q = p
      · subst hq
        refine Or.inr ⟨inv, w.clock, call, eff, hinv, hok, ?_, ?_⟩
        · rw [World.procs_moved_self]
          rfl
        · exact if_pos (List.mem_singleton_self j)
      · refine Or.inl ?_
        rw [World.procs_moved_of_ne w _ hq]
        exact todo_eq_nil_of_free (hserving q) hfree hq
    | @callbackRefused j call err hphase herr =>
      obtain rfl : j = i := hG
      rw [hrow] at herr
      refine ⟨fun q => ?_, r', hrow, ?_⟩
      · by_cases hq : q = p
        · subst hq
          exact Or.inl (by rw [World.procs_moved_self])
        · have hsame := World.procs_moved_of_ne w ⟨⟨(w.procs p).objs, [], .ended⟩, [],
              [.replied (.answered j call (.error err))]⟩ hq
          rcases hserving q with hnil | ⟨r, t, call', e, hr, hok, htodo', hlock⟩
          · exact Or.inl (by rw [hsame]; exact hnil)
          · exact Or.inr ⟨r, t, call', e, hr, hok, by rw [hsame]; exact htodo', hlock⟩
      · change Served j r n r' w.tokens
          (exchanges j (.replied (.answered j call (.error err)) :: w.log))
        rw [exchanges_answered]
        exact hserved.error herr
    | _ => exact hG.elim
  | @commit p f rest htodo hfree =>
    rcases hserving p with hnil | ⟨s, t, call, e, hs, hok, hone, hlock⟩
    · rw [hnil] at htodo
      cases htodo
    · obtain rfl : r' = s := Option.some.inj (hrow.symm.trans hs)
      obtain ⟨rfl, rfl⟩ := List.cons.inj (htodo.symm.trans hone)
      refine ⟨fun q => Or.inl ?_, e.row, ?_, ?_⟩
      · by_cases hq : q = p
        · subst hq
          rw [World.procs_committed_self]
        · rw [World.procs_committed_of_ne w _ _ hq]
          exact todo_eq_nil_of_free (hserving q) (World.free_iff.mpr (Or.inr hlock)) hq
      · change (rowsAfter w.rows [⟨i, r', e.row⟩]).get i = _
        rw [get_rowsAfter_one w.rows ⟨i, r', e.row⟩, hrow]
        exact congrArg some (writeBack_base r' e.row)
      · change Served i r n e.row (tokensAfter w.tokens (e.spent.map (TokenWrite.mk w.tokens)))
          (exchanges i (.replied (.answered i call (.ok (invToDict i e.row))) ::
            .committed p _ _ :: w.log))
        rw [exchanges_answered, tokensAfter_read]
        exact hserved.ok hok
  | close p =>
    refine ⟨fun q => ?_, r', hrow, hserved⟩
    by_cases hq : q = p
    · subst hq
      exact Or.inl (by rw [World.procs_close_self]; rfl)
    · have hsame := World.procs_close_of_ne w hq
      rcases hserving q with hnil | ⟨s, t, call, e, hs, hok, htodo, hlock⟩
      · exact Or.inl (by rw [hsame]; exact hnil)
      · refine Or.inr ⟨s, t, call, e, hs, hok, by rw [hsame]; exact htodo, ?_⟩
        change (if w.locks i = some p then none else w.locks i) = some q
        rw [hlock, if_neg (fun h => hq (Option.some.inj h))]

/-- **Interleaved callbacks are served one after the other.** -/
theorem served_of_runs {w₀ : World} (hquiet : w₀.Quiet) {i : InvId}
    (hr : w₀.rows.get i = some r) (hrun : Runs (step cfg) (OnlyCallbacks i) w₀ w) :
    ∃ r', w.rows.get i = some r' ∧ Served i r w₀.tokens r' w.tokens (exchanges i w.log) := by
  have hinv := hrun.invariant
    (I := fun v => (∀ p, Serving i v p) ∧
      ∃ r', v.rows.get i = some r' ∧ Served i r w₀.tokens r' v.tokens (exchanges i v.log))
    (fun v a v' hI hG hstep => by
      obtain ⟨hserving, r', hrow, hserved⟩ := hI
      exact served_step hserving hrow hserved hG hstep)
    ⟨fun p => Or.inl (by rw [hquiet.procs p]; rfl), r, hr, by
      rw [hquiet.log]
      exact Served.start⟩
  exact hinv.2

end Runs

/-! ## The first accepted callback decides -/

theorem bound_of_ok {inv : DfirInvestigation} {id : InvId} {now : Time} {call : ResultCallback}
    {e : CallbackEffect} (h : submitExternalResult id now call (some inv) = .ok e)
    (hdeep : inv.externalOrchestrator = some .deepagent) : truthy inv.externalJobId = true := by
  by_contra hjob
  have hkey := (submitExternalResult_cases h).2.1
  unfold submitExternalResult at h
  dsimp only at h
  rw [if_neg (by rw [hdeep]; simp), if_neg (by rw [hkey]; simp),
    if_pos ⟨hdeep, by simpa using hjob⟩] at h
  cases h

/-- **What an ended investigation answers**: with its key its state, with another a conflict.  The job
id is not compared. -/
theorem submitExternalResult_ended {inv : DfirInvestigation} (id : InvId) (now : Time)
    (call : ResultCallback) (hdeep : inv.externalOrchestrator = some .deepagent)
    (hjob : truthy inv.externalJobId = true) (hterm : inv.status.isTerminal = true)
    (hkey : truthy inv.externalCallbackIdempotencyKey = true) :
    if call.idempotencyKey = inv.externalCallbackIdempotencyKey then
      submitExternalResult id now call (some inv) = .ok (.replayed inv)
    else ∃ message, submitExternalResult id now call (some inv) = .error (.conflict message) := by
  have horch : inv.externalOrchestrator ≠ none := by rw [hdeep]; simp
  have hbound : ¬ (inv.externalOrchestrator = some .deepagent ∧
      truthy inv.externalJobId = false) := by
    rintro ⟨-, hfalse⟩
    rw [hjob] at hfalse
    cases hfalse
  have hstored : ¬ truthy inv.externalCallbackIdempotencyKey = false := by rw [hkey]; simp
  unfold submitExternalResult
  simp only [if_neg horch, if_neg hbound, if_pos hterm]
  split
  · rename_i hsame
    have hcall : ¬ truthy call.idempotencyKey = false := by rw [hsame]; exact hstored
    rw [if_neg hcall, if_neg (not_or.mpr ⟨hstored, not_not_intro hsame⟩)]
  · rename_i hdiff
    rw [if_pos (Or.inr hdiff)]
    split
    · exact ⟨_, rfl⟩
    · exact ⟨_, rfl⟩

/-- The state, the counter and the answers, decided by the callback accepted first. -/
structure Decided (i : InvId) (r : DfirInvestigation) (n : ℤ) (t : Time) (call : ResultCallback)
    (r' : DfirInvestigation) (n' : ℤ) (l : List Exchange) : Prop where
  /-- It is from the job to which the investigation was dispatched. -/
  job : truthy r.externalJobId = true ∧ call.externalJobId = r.externalJobId
  key : truthy call.idempotencyKey = true
  row : r' = record t call r
  tokens : n' = n + (spentTokens call).getD 0
  /-- What came before it was rejected, and after it a callback with its key is answered with the
  state it left, and any other with a conflict. -/
  answers : ∃ later earlier, l = later ++ (call, .ok (invToDict i r')) :: earlier ∧
    (∀ x ∈ earlier, ∃ e, x.2 = .error e) ∧
    ∀ x ∈ later, if x.1.idempotencyKey = call.idempotencyKey then x.2 = .ok (invToDict i r')
      else ∃ message, x.2 = .error (.conflict message)

theorem Decided.next {r r' : DfirInvestigation} {i : InvId} {n n' : ℤ} {t : Time}
    {call : ResultCallback} {l : List Exchange} (h : Decided i r n t call r' n' l)
    (hdeep : r.externalOrchestrator = some .deepagent) (now : Time) (next : ResultCallback) :
    if next.idempotencyKey = call.idempotencyKey then
      submitExternalResult i now next (some r') = .ok (.replayed r')
    else ∃ message, submitExternalResult i now next (some r') = .error (.conflict message) := by
  have hrow := h.row
  subst hrow
  have hended := submitExternalResult_ended i now next ((kept_record t call r).externalOrchestrator.trans hdeep)
    (by
      rw [jobId_record, boundJobId]
      split
      · assumption
      · exact h.job.1)
    (status_record_isTerminal t call r) (by rw [key_record]; exact h.key)
  rwa [key_record] at hended

/-- **The first accepted callback decides**, when callbacks are served one after the other. -/
theorem Served.undecided_or_decided {r r' : DfirInvestigation} {i : InvId} {n n' : ℤ}
    {l : List Exchange} (h : Served i r n r' n' l)
    (hdeep : r.externalOrchestrator = some .deepagent) (hana : r.status = .analyzing) :
    (r' = r ∧ n' = n ∧ ∀ x ∈ l, ∃ e, x.2 = .error e) ∨ ∃ t call, Decided i r n t call r' n' l := by
  induction h with
  | start => exact Or.inl ⟨rfl, rfl, fun x hx => absurd hx List.not_mem_nil⟩
  | @ok r' n' l t call e h hok ih =>
    rcases ih with ⟨rfl, rfl, herrors⟩ | ⟨t₀, call₀, hdecided⟩
    · obtain ⟨-, hkey, ⟨hterm, -⟩ | ⟨-, rfl, hjob⟩⟩ := submitExternalResult_cases hok
      · rw [hana] at hterm
        cases hterm
      · have hbound := bound_of_ok hok hdeep
        exact Or.inr ⟨t, call, ⟨hbound, hjob hbound⟩, hkey, rfl, rfl, [], l, rfl, herrors,
          fun x hx => absurd hx List.not_mem_nil⟩
    · have hnext := hdecided.next hdeep t call
      split at hnext
      · rename_i hsame
        rw [hok] at hnext
        obtain rfl := Except.ok.inj hnext
        obtain ⟨later, earlier, hl, hearlier, hlater⟩ := hdecided.answers
        refine Or.inr ⟨t₀, call₀, hdecided.job, hdecided.key, hdecided.row, ?_,
          (call, .ok (invToDict i r')) :: later, earlier, ?_, hearlier, fun x hx => ?_⟩
        · exact (add_zero n').trans hdecided.tokens
        · rw [hl]
          rfl
        · rcases List.mem_cons.mp hx with rfl | hx
          · rw [if_pos hsame]
            rfl
          · exact hlater x hx
      · obtain ⟨message, herr⟩ := hnext
        rw [hok] at herr
        cases herr
  | @error r' n' l t call e h herr ih =>
    rcases ih with ⟨rfl, rfl, herrors⟩ | ⟨t₀, call₀, hdecided⟩
    · refine Or.inl ⟨rfl, rfl, fun x hx => ?_⟩
      rcases List.mem_cons.mp hx with rfl | hx
      · exact ⟨e, rfl⟩
      · exact herrors x hx
    · have hnext := hdecided.next hdeep t call
      obtain ⟨later, earlier, hl, hearlier, hlater⟩ := hdecided.answers
      refine Or.inr ⟨t₀, call₀, hdecided.job, hdecided.key, hdecided.row, hdecided.tokens,
        (call, .error e) :: later, earlier, ?_, hearlier, fun x hx => ?_⟩
      · rw [hl]
        rfl
      · rcases List.mem_cons.mp hx with rfl | hx
        · split at hnext
          · rw [herr] at hnext
            cases hnext
          · rename_i hdiff
            rw [if_neg hdiff]
            obtain ⟨message, hmessage⟩ := hnext
            rw [herr] at hmessage
            exact ⟨message, by rw [Except.error.inj hmessage]⟩
        · exact hlater x hx

/-- What the row shows of the callback that decided it: a result, or an error and nothing else. -/
structure Shows (r r' : DfirInvestigation) (call : ResultCallback) : Prop where
  result : truthy call.error = false → r'.status = .completed ∧
    r'.severity = some (normalizeSeverity call.severity) ∧
    r'.findings = some (call.findings.getD []) ∧ r'.reportMarkdown = call.reportMarkdown
  error : truthy call.error = true → r'.status = .failed ∧ r'.severity = r.severity ∧
    r'.findings = r.findings ∧ r'.reportMarkdown = r.reportMarkdown

theorem shows_record (t : Time) (call : ResultCallback) (r : DfirInvestigation) :
    Shows r (record t call r) call := by
  unfold record
  constructor
  · intro hnone
    rw [hnone]
    exact ⟨rfl, rfl, rfl, rfl⟩
  · intro herror
    rw [herror]
    exact ⟨rfl, rfl, rfl, rfl⟩

/-- **Result callbacks take effect once.**  However callbacks to an analyzing DeepAgent investigation
interleave, either none was accepted and nothing has changed, or the first accepted one decided the
row and the counter, and everything after it was a replay of that state or a conflict. -/
theorem callbacks_once (cfg : Settings) {w₀ w : World} (hquiet : w₀.Quiet) {i : InvId}
    {r : DfirInvestigation} (hr : w₀.rows.get i = some r)
    (hdeep : r.externalOrchestrator = some .deepagent) (hana : r.status = .analyzing)
    (hrun : Runs (step cfg) (OnlyCallbacks i) w₀ w) : ∃ r', w.rows.get i = some r' ∧
      ((r' = r ∧ w.tokens = w₀.tokens ∧ ∀ x ∈ exchanges i w.log, ∃ e, x.2 = .error e) ∨
        ∃ t call, Decided i r w₀.tokens t call r' w.tokens (exchanges i w.log) ∧
          Shows r r' call) := by
  obtain ⟨r', hr', hserved⟩ := served_of_runs hquiet hr hrun
  refine ⟨r', hr', ?_⟩
  rcases hserved.undecided_or_decided hdeep hana with hsame | ⟨t, call, hdecided⟩
  · exact Or.inl hsame
  · refine Or.inr ⟨t, call, hdecided, ?_⟩
    have hrow := hdecided.row
    subst hrow
    exact shows_record t call r

/-! ## A job that reports an error -/

instance (i : InvId) (w : World) : (a : Action) → Decidable (OnlyCallbacks i w a)
  | .advance _ | .commit _ | .close _ => isTrue trivial
  | .create .. => isFalse False.elim
  | .move _ m => by
    induction m using Move.casesOn <;> dsimp only [OnlyCallbacks] <;> infer_instance

def dispatchedRow : DfirInvestigation :=
  { newInvestigation (sampleSettings 12) 0 (some "C.1")
      ⟨"machine-1", none, none, "admin", none⟩ (some .deepagent) with
    status := .analyzing
    externalJobId := some "deepagent-1"
    hermesStatus := some "dispatched"
    startedAt := some 0 }

/-- The system with this investigation. -/
def dispatchedWorld : World := World.start 0 (Table.empty.insert "1" dispatchedRow) 0

def jobResult : ResultCallback where
  reportMarkdown := some "report"
  severity := "HIGH"
  findingsCount := some 1
  findings := some [.str "finding"]
  iocs := some []
  llmProvider := none
  llmModel := some "model"
  inputTokens := some 30
  outputTokens := some 12
  estimatedCostUsd := none
  error := none
  externalJobId := some "deepagent-1"
  rawResponse := none
  idempotencyKey := some "deepagent-1"

/-- The error callback that the job falls back to. -/
def jobError : ResultCallback :=
  { jobResult with
    reportMarkdown := some "failed"
    severity := "info"
    findings := some []
    error := some "timeout" }

/-- A callback of another job, with the key of this one. -/
def foreignCallback : ResultCallback := { jobResult with externalJobId := some "deepagent-2" }

/-- A callback that is answered at its commit. -/
def serve (p : Pid) (call : ResultCallback) : List Action :=
  [.move p (.callback "1" call), .commit p]

/-- **What does not hold.**  A callback of another job is not always rejected: after the end only the
key is compared.  And the severity of the row is not always that of the callback accepted first: an
error callback stores none. -/
theorem callbacks_not_all_rejected :
    (¬ ∀ (w : World) (call : ResultCallback) (reply : Except CallbackError Snapshot),
      Runs (step (sampleSettings 12)) (OnlyCallbacks "1") dispatchedWorld w →
      (call, reply) ∈ exchanges "1" w.log → call.externalJobId ≠ dispatchedRow.externalJobId →
      ∃ e, reply = .error e) ∧
    ¬ ∀ (w : World) (call : ResultCallback) (snapshot : Snapshot) (r' : DfirInvestigation),
      Runs (step (sampleSettings 12)) (OnlyCallbacks "1") dispatchedWorld w →
      exchanges "1" w.log = [(call, .ok snapshot)] → w.rows.get "1" = some r' →
      r'.severity = some (normalizeSeverity call.severity) := by
  constructor
  · intro h
    obtain ⟨w, hrun, hlog⟩ := exists_runs_of_exec (G := OnlyCallbacks "1")
      (step (sampleSettings 12)) dispatchedWorld (serve 0 jobError ++ serve 1 foreignCallback)
      (p := fun w => (exchanges "1" w.log).any fun x : Exchange =>
        decide (x.1 = foreignCallback) && x.2.toBool)
      (by decide +kernel)
    rw [List.any_eq_true] at hlog
    obtain ⟨⟨call, reply⟩, hmem, hx⟩ := hlog
    rw [Bool.and_eq_true, decide_eq_true_eq] at hx
    obtain ⟨hcall, hok⟩ := hx
    obtain rfl : call = foreignCallback := hcall
    obtain ⟨e, rfl⟩ := h w foreignCallback reply hrun hmem (by decide)
    cases hok
  · intro h
    obtain ⟨w, hrun, hw⟩ := exists_runs_of_exec (G := OnlyCallbacks "1")
      (step (sampleSettings 12)) dispatchedWorld (serve 0 jobError)
      (p := fun w => (w.rows.get "1").any fun r : DfirInvestigation =>
        decide (r.severity = none) &&
          decide (exchanges "1" w.log = [(jobError, .ok (invToDict "1" r))]))
      (by decide +kernel)
    rw [Option.any_eq_true] at hw
    obtain ⟨r, hr, hx⟩ := hw
    rw [Bool.and_eq_true, decide_eq_true_eq, decide_eq_true_eq] at hx
    have hseverity := h w jobError _ r hrun hx.2 hr
    rw [hx.1] at hseverity
    cases hseverity

/-- The job delivers its result twice, and then the error it falls back to: the result stands. -/
theorem callbacks_once_retried :
    ∃ w r' t call, Runs (step (sampleSettings 12)) (OnlyCallbacks "1") dispatchedWorld w ∧
      (exchanges "1" w.log).length = 3 ∧ w.rows.get "1" = some r' ∧
      Decided "1" dispatchedRow 0 t call r' w.tokens (exchanges "1" w.log) ∧
      Shows dispatchedRow r' call := by
  obtain ⟨w, hrun, hw⟩ := exists_runs_of_exec (G := OnlyCallbacks "1")
    (step (sampleSettings 12)) dispatchedWorld
    (serve 0 jobResult ++ serve 1 jobResult ++ serve 2 jobError)
    (p := fun w => decide ((exchanges "1" w.log).length = 3 ∧ w.statusOf "1" = some .completed))
    (by decide +kernel)
  obtain ⟨hlength, hstatus⟩ := of_decide_eq_true hw
  obtain ⟨r', hr', hcases⟩ := callbacks_once (sampleSettings 12)
    (World.quiet_start 0 (Table.empty.insert "1" dispatchedRow) 0) (i := "1") (r := dispatchedRow)
    (by decide +kernel) rfl rfl hrun
  rcases hcases with ⟨rfl, -⟩ | ⟨t, call, hdecided, hshows⟩
  · rw [World.statusOf, hr'] at hstatus
    cases hstatus
  · exact ⟨w, r', t, call, hrun, hlength, hr', hdecided, hshows⟩

end AssetInventory
