import AssetInventory.Dfir.Queries
import AssetInventory.Lib.Readback
import AssetInventory.Lib.Run

/-!
# The chat about an investigation

The analysis stores what it said to the LLM and what it heard, and so does every chat afterwards.  The next chat reads
the messages back in the order of `created_at`, whose default is a value that was computed when the class was defined.

* `stateAnalyzeMessages`, `chatWithLlm`: what the analysis stores; a chat.
* `Desk`, `serve`: the tables, with the conversations as they took place, and the requests.
* `recorded_of_runs`: in every run the messages of an investigation, as they were stored, are its conversation.
* `Replays`: whatever the order in which the rows are returned, a chat is sent the conversation.
* `replays_of_increasing`: this holds if the times of the rows increase.
* `replays_iff`: in a run it holds of no investigation that can be asked about.
-/

namespace AssetInventory.Chat

open PyJson PyTime Orm Readback Interleaving

/-! ## Messages -/

inductive Role where
  | system | user | assistant
  deriving DecidableEq

structure LlmMessage where
  role : Role
  content : String
  deriving DecidableEq

/-- A row of `dfir_investigation_messages`. -/
structure DfirInvestigationMessage where
  investigationId : InvId
  role : Role
  content : String
  tokens : Option ℤ
  createdAt : Time
  deriving DecidableEq

/-- `LlmMessage(m.role, m.content)`. -/
def DfirInvestigationMessage.toLlm (m : DfirInvestigationMessage) : LlmMessage := ⟨m.role, m.content⟩

def buildChatUserPrompt (question : String) : String :=
  "Câu hỏi tiếp theo của điều tra viên: " ++ question ++ "\n\n" ++
    "Trả lời ngắn gọn, dựa trên dữ liệu đã thu thập ở trên. " ++
    "Nếu không đủ dữ liệu để trả lời, đề xuất artifact cần thu thập thêm."

/-- What an investigation has said to the LLM and heard from it, in order. -/
structure Conversation where
  /-- The system prompt, the prompt of the investigation, and the report, if the LLM was asked for one. -/
  opening : Option (String × String × String)
  /-- The questions and answers. -/
  exchanges : List (String × String)

def openingMessages (opening : String × String × String) : List LlmMessage :=
  [⟨.system, opening.1⟩, ⟨.user, opening.2.1⟩, ⟨.assistant, opening.2.2⟩]

def exchangeMessages (exchanges : List (String × String)) : List LlmMessage :=
  exchanges.flatMap fun e => [⟨.user, e.1⟩, ⟨.assistant, e.2⟩]

def Conversation.messages (c : Conversation) : List LlmMessage :=
  (c.opening.map openingMessages).getD [] ++ exchangeMessages c.exchanges

/-! ## The tables and the requests -/

/-- The investigations, their messages in the order in which they were stored, and the conversations, which nobody
stores. -/
structure Desk where
  rows : InvId → Option DfirInvestigation
  messages : List DfirInvestigationMessage
  conversation : InvId → Conversation

/-- There is nothing. -/
def Desk.empty : Desk := ⟨fun _ => none, [], fun _ => ⟨none, []⟩⟩

/-- The messages of an investigation, as they were stored. -/
def Desk.messagesOf (desk : Desk) (id : InvId) : List DfirInvestigationMessage :=
  desk.messages.filter fun m => decide (m.investigationId = id)

/-- The prompts of `_state_analyze`. -/
structure Prompts where
  /-- `cfg.system_prompt or build_dfir_system_prompt()`. -/
  system : String
  /-- `build_investigation_user_prompt`. -/
  user : String

/-- The messages that `_state_analyze` stores with the commit that completes the investigation. -/
def stateAnalyzeMessages (created : Time) (id : InvId) (prompts : Prompts) (resp : LlmResponse) :
    List DfirInvestigationMessage :=
  [⟨id, .system, prompts.system, none, created⟩, ⟨id, .user, prompts.user, some resp.inputTokens, created⟩,
    ⟨id, .assistant, resp.content, some resp.outputTokens, created⟩]

/-- What a chat meets. -/
structure ChatEnv where
  /-- `_is_llm_enabled`. -/
  enabled : Bool
  llm : LlmAnswer
  model : String

/-- The answer of `chat_with_llm`. -/
structure ChatOut where
  response : String
  inputTokens : ℤ
  outputTokens : ℤ
  model : String

/-- The messages that `chat_with_llm` sends, if it comes to that; `ord` is what the query returns. -/
def llmMessages (desk : Desk) (id : InvId) (ord : List DfirInvestigationMessage) (question : String) (env : ChatEnv) :
    Except PyExc (List LlmMessage) :=
  match desk.rows id with
  | none => .error (llmError "Investigation không tồn tại")
  | some inv =>
    if inv.status ≠ .completed then
      .error (llmError ("Investigation chưa hoàn thành (status=" ++ inv.status.name ++ ")"))
    else if !env.enabled then .error (llmError "LLM chưa được cấu hình")
    else .ok (ord.map DfirInvestigationMessage.toLlm ++ [⟨.user, buildChatUserPrompt question⟩])

/-- The messages that a chat stores. -/
def chatMessages (created : Time) (id : InvId) (question : String) (resp : LlmResponse) :
    List DfirInvestigationMessage :=
  [⟨id, .user, question, some resp.inputTokens, created⟩,
    ⟨id, .assistant, resp.content, some resp.outputTokens, created⟩]

/-- The desk after an exchange. -/
def Desk.exchanged (desk : Desk) (created : Time) (id : InvId) (question : String) (resp : LlmResponse) : Desk :=
  let said := desk.conversation id
  { desk with
    messages := desk.messages ++ chatMessages created id question resp
    conversation := Function.update desk.conversation id
      { said with exchanges := said.exchanges ++ [(question, resp.content)] } }

def chatWithLlm (created : Time) (id : InvId) (ord : List DfirInvestigationMessage) (question : String) (env : ChatEnv)
    (desk : Desk) : Desk × Except PyExc ChatOut :=
  match llmMessages desk id ord question env with
  | .error e => (desk, .error e)
  | .ok _ =>
    match env.llm with
    | .llmError message => (desk, .error (llmError message))
    | .raised e => (desk, .error e)
    | .ok resp =>
      (desk.exchanged created id question resp, .ok ⟨resp.content, resp.inputTokens, resp.outputTokens, env.model⟩)

/-- A request, or what else happens to an investigation; `P` are the processes. -/
inductive Request (P : Type) where
  /-- `_state_analyze` in a process, with the worker around it. -/
  | analyze (p : P) (id : InvId) (now : Time) (env : AnalyzeEnv) (later : Time) (prompts : Prompts)
  /-- `submit_external_result`. -/
  | callback (id : InvId) (now : Time) (call : ResultCallback)
  | chat (p : P) (id : InvId) (ord : List DfirInvestigationMessage) (question : String) (env : ChatEnv)
  /-- `delete_investigation`; the messages go with the row. -/
  | delete (id : InvId)
  /-- Anything else that is written before an investigation is completed, the creation included. -/
  | write (id : InvId) (row : DfirInvestigation)

/-- The desk with another row. -/
def Desk.setRow (desk : Desk) (id : InvId) (row : Option DfirInvestigation) : Desk :=
  { desk with rows := Function.update desk.rows id row }

/-- The desk after the analysis has stored its messages. -/
def Desk.opened (desk : Desk) (created : Time) (id : InvId) (prompts : Prompts) (resp : LlmResponse) : Desk :=
  { desk with
    messages := desk.messages ++ stateAnalyzeMessages created id prompts resp
    conversation := Function.update desk.conversation id
      { desk.conversation id with opening := some (prompts.system, prompts.user, resp.content) } }

/-- The desk without an investigation. -/
def Desk.deleted (desk : Desk) (id : InvId) : Desk where
  rows := Function.update desk.rows id none
  messages := desk.messages.filter fun m => decide (m.investigationId ≠ id)
  conversation := Function.update desk.conversation id ⟨none, []⟩

/-- The investigation is completed. -/
def Desk.Completed (desk : Desk) (id : InvId) : Prop := ∃ inv, desk.rows id = some inv ∧ inv.status = .completed

section Serve

variable {P : Type} (classTime : P → Time)

/-- The desk after a request; `classTime` is when each process has defined the class of the messages. -/
def serve (desk : Desk) : Request P → Option Desk
  | .analyze p id now env later prompts =>
    match desk.rows id with
    | none => none
    | some inv =>
      if inv.status = .analyzing ∧ inv.externalOrchestrator ≠ some .deepagent then
        let o := stateAnalyze now env inv
        let after := desk.setRow id (some (localBoundary later o.1).cur)
        match o.2, env.llm with
        | some _, .ok resp => some (after.opened (classTime p) id prompts resp)
        | _, _ => some after
      else none
  | .callback id now call =>
    match submitExternalResult id now call (desk.rows id) with
    | .error _ => some desk
    | .ok effect => some (desk.setRow id (some effect.row))
  | .chat p id ord question env =>
    if Returned DfirInvestigationMessage.createdAt (desk.messagesOf id) ord then
      some (chatWithLlm (classTime p) id ord question env desk).1
    else none
  | .delete id =>
    match desk.rows id with
    | none => some desk
    | some inv =>
      if inv.status ∈ [.running, .collecting, .analyzing] then some desk else some (desk.deleted id)
  | .write id row =>
    if ((desk.rows id).all fun inv => decide (inv.status ≠ .completed)) ∧ row.status ≠ .completed then
      some (desk.setRow id (some row))
    else none

end Serve

/-! ## What is expected -/

/-- **A chat replays the conversation**: whatever the order in which the rows are returned, it sends the system prompt,
the prompt of the investigation, the report, and the earlier questions and answers, and then the new question. -/
def Replays (desk : Desk) (id : InvId) : Prop :=
  ∀ ord, Returned DfirInvestigationMessage.createdAt (desk.messagesOf id) ord →
    ∀ question env messages, llmMessages desk id ord question env = .ok messages →
      ∃ opening, (∀ o, (desk.conversation id).opening = some o → opening = o) ∧
        messages = openingMessages opening ++ exchangeMessages (desk.conversation id).exchanges ++
          [⟨.user, buildChatUserPrompt question⟩]

/-! ## What a request does -/

section Step

variable {P : Type} {classTime : P → Time} {desk desk' : Desk} {id : InvId} {inv row : DfirInvestigation}

/-- What has been spent was spent on an analysis that completes the investigation. -/
theorem completed_of_spent {now later : Time} {env : AnalyzeEnv} {n : ℤ}
    (h : (stateAnalyze now env inv).2 = some n) :
    (localBoundary later (stateAnalyze now env inv).1).cur.status = .completed := by
  unfold stateAnalyze at h ⊢
  dsimp only at h ⊢
  split_ifs at h ⊢
  cases hconfig : env.config with
  | none =>
    rw [hconfig] at h
    cases h
  | some config =>
    rw [hconfig] at h
    dsimp only at h ⊢
    cases hbundle : bundle (inv.rawArtifacts.getD []) with
    | error e =>
      rw [hbundle] at h
      cases h
    | ok data =>
      rw [hbundle] at h
      dsimp only at h ⊢
      cases hllm : env.llm with
      | ok resp => rfl
      | llmError message =>
        rw [hllm] at h
        cases h
      | raised e =>
        rw [hllm] at h
        cases h

theorem chatWithLlm_cases (created : Time) (id : InvId) (ord : List DfirInvestigationMessage) (question : String)
    (env : ChatEnv) (desk : Desk) : (chatWithLlm created id ord question env desk).1 = desk ∨
      ∃ resp, desk.Completed id ∧
        (chatWithLlm created id ord question env desk).1 = desk.exchanged created id question resp := by
  unfold chatWithLlm llmMessages
  cases hrow : desk.rows id with
  | none => exact .inl rfl
  | some inv =>
    dsimp only
    by_cases hstatus : inv.status = .completed
    · rw [if_neg (not_not.mpr hstatus)]
      by_cases henabled : (!env.enabled) = true
      · rw [if_pos henabled]
        exact .inl rfl
      · rw [if_neg henabled]
        cases env.llm with
        | ok resp => exact .inr ⟨resp, ⟨inv, hrow, hstatus⟩, rfl⟩
        | llmError message => exact .inl rfl
        | raised e => exact .inl rfl
    · rw [if_pos hstatus]
      exact .inl rfl

/-- What a request does to the tables. -/
inductive Effect (desk : Desk) : Desk → Prop where
  | nothing : Effect desk desk
  /-- A row is written; a completed one stays completed. -/
  | row (id : InvId) (row : DfirInvestigation) (h : desk.Completed id → row.status = .completed) :
      Effect desk (desk.setRow id (some row))
  | opened (id : InvId) (row : DfirInvestigation) (created : Time) (prompts : Prompts) (resp : LlmResponse)
      (hopen : ¬desk.Completed id) (hdone : row.status = .completed) :
      Effect desk ((desk.setRow id (some row)).opened created id prompts resp)
  | exchanged (id : InvId) (created : Time) (question : String) (resp : LlmResponse) (hdone : desk.Completed id) :
      Effect desk (desk.exchanged created id question resp)
  | deleted (id : InvId) : Effect desk (desk.deleted id)

theorem not_completed (hrow : desk.rows id = some inv) (h : inv.status ≠ .completed) :
    ¬desk.Completed id := by
  rintro ⟨other, hother, hdone⟩
  obtain rfl := Option.some.inj (hrow.symm.trans hother)
  exact h hdone

/-- **One request.** -/
theorem serve_effect {request : Request P} (h : serve classTime desk request = some desk') : Effect desk desk' := by
  cases request with
  | analyze p id now env later prompts =>
    simp only [serve] at h
    cases hrow : desk.rows id with
    | none =>
      rw [hrow] at h
      cases h
    | some inv =>
      rw [hrow] at h
      dsimp only at h
      split_ifs at h with hguard
      have hopen : ¬desk.Completed id := not_completed hrow (by rw [hguard.1]; decide)
      split at h
      · rename_i n resp hspent _
        obtain rfl := Option.some.inj h
        exact .opened id _ _ prompts resp hopen (completed_of_spent hspent)
      · obtain rfl := Option.some.inj h
        exact .row id _ fun hdone => absurd hdone hopen
  | callback id now call =>
    simp only [serve] at h
    cases hcall : submitExternalResult id now call (desk.rows id) with
    | error e =>
      rw [hcall] at h
      obtain rfl := Option.some.inj h
      exact .nothing
    | ok effect =>
      rw [hcall] at h
      obtain rfl := Option.some.inj h
      refine .row id _ ?_
      rintro ⟨inv, hrow, hdone⟩
      rw [hrow] at hcall
      obtain ⟨-, -, ⟨-, rfl, -⟩ | ⟨hanalyzing, -⟩⟩ := submitExternalResult_cases hcall
      · exact hdone
      · exact absurd (hanalyzing.symm.trans hdone) (by decide)
  | chat p id ord question env =>
    simp only [serve] at h
    split_ifs at h
    obtain rfl := Option.some.inj h
    rcases chatWithLlm_cases (classTime p) id ord question env desk with heq | ⟨resp, hdone, heq⟩
    · rw [heq]
      exact .nothing
    · rw [heq]
      exact .exchanged id _ question resp hdone
  | delete id =>
    simp only [serve] at h
    cases hrow : desk.rows id with
    | none =>
      rw [hrow] at h
      obtain rfl := Option.some.inj h
      exact .nothing
    | some inv =>
      rw [hrow] at h
      dsimp only at h
      split_ifs at h
      · obtain rfl := Option.some.inj h
        exact .nothing
      · obtain rfl := Option.some.inj h
        exact .deleted id
  | write id row =>
    simp only [serve] at h
    split_ifs at h with hguard
    obtain rfl := Option.some.inj h
    refine .row id row ?_
    rintro ⟨inv, hrow, hdone⟩
    have hnot := hguard.1
    rw [hrow] at hnot
    exact absurd hdone (of_decide_eq_true hnot)

end Step

/-! ## What is stored -/

section Stored

variable {desk desk' : Desk} {id : InvId}

theorem filter_append_messages (messages : List DfirInvestigationMessage) {new : List DfirInvestigationMessage}
    (hnew : ∀ m ∈ new, m.investigationId = id) (other : InvId) :
    (messages ++ new).filter (fun m => decide (m.investigationId = other)) =
      messages.filter (fun m => decide (m.investigationId = other)) ++ if other = id then new else [] := by
  rw [List.filter_append]
  refine congrArg _ ?_
  by_cases hid : other = id
  · rw [if_pos hid]
    exact List.filter_eq_self.mpr fun m hm => decide_eq_true ((hnew m hm).trans hid.symm)
  · rw [if_neg hid]
    exact List.filter_eq_nil_iff.mpr fun m hm h => hid ((of_decide_eq_true h).symm.trans (hnew m hm))

theorem messagesOf_opened (desk : Desk) (created : Time) (id : InvId) (prompts : Prompts) (resp : LlmResponse)
    (other : InvId) : (desk.opened created id prompts resp).messagesOf other =
      desk.messagesOf other ++ if other = id then stateAnalyzeMessages created id prompts resp else [] :=
  filter_append_messages desk.messages (by simp [stateAnalyzeMessages]) other

theorem messagesOf_exchanged (desk : Desk) (created : Time) (id : InvId) (question : String) (resp : LlmResponse)
    (other : InvId) : (desk.exchanged created id question resp).messagesOf other =
      desk.messagesOf other ++ if other = id then chatMessages created id question resp else [] :=
  filter_append_messages desk.messages (by simp [chatMessages]) other

theorem messagesOf_deleted (desk : Desk) (id other : InvId) :
    (desk.deleted id).messagesOf other = if other = id then [] else desk.messagesOf other := by
  rw [Desk.messagesOf, Desk.deleted, List.filter_filter]
  by_cases hid : other = id
  · rw [if_pos hid]
    exact List.filter_eq_nil_iff.mpr (by simp [hid])
  · rw [if_neg hid]
    refine List.filter_congr fun m _ => ?_
    by_cases hm : m.investigationId = other
    · simp [hm, hid]
    · simp [hm]

/-- **What is stored of the conversations**, in the order in which it was stored. -/
structure Recorded (desk : Desk) : Prop where
  stored : ∀ id, (desk.messagesOf id).map DfirInvestigationMessage.toLlm = (desk.conversation id).messages
  /-- The opening was stored at one time. -/
  together : ∀ id o, (desk.conversation id).opening = some o →
    ∃ first second rest, desk.messagesOf id = first :: second :: rest ∧ first.createdAt = second.createdAt
  /-- Nothing is stored before an investigation is completed. -/
  fresh : ∀ id, ¬desk.Completed id → desk.messagesOf id = [] ∧ desk.conversation id = ⟨none, []⟩

theorem exchangeMessages_append (exchanges : List (String × String)) (question answer : String) :
    exchangeMessages (exchanges ++ [(question, answer)]) =
      exchangeMessages exchanges ++ [⟨.user, question⟩, ⟨.assistant, answer⟩] := by
  rw [exchangeMessages, List.flatMap_append, List.flatMap_singleton]
  rfl

/-- **Only one investigation** has changed, and what is stored of it is recorded. -/
theorem Recorded.change (h : Recorded desk) (id : InvId)
    (hoff : ∀ other, other ≠ id → desk'.rows other = desk.rows other ∧
      desk'.messagesOf other = desk.messagesOf other ∧ desk'.conversation other = desk.conversation other)
    (hstored : (desk'.messagesOf id).map DfirInvestigationMessage.toLlm = (desk'.conversation id).messages)
    (htogether : ∀ o, (desk'.conversation id).opening = some o →
      ∃ first second rest, desk'.messagesOf id = first :: second :: rest ∧ first.createdAt = second.createdAt)
    (hfresh : ¬desk'.Completed id → desk'.messagesOf id = [] ∧ desk'.conversation id = ⟨none, []⟩) :
    Recorded desk' where
  stored other := by
    by_cases hid : other = id
    · exact hid ▸ hstored
    · obtain ⟨-, hmessages, hsaid⟩ := hoff other hid
      rw [hmessages, hsaid]
      exact h.stored other
  together other o ho := by
    by_cases hid : other = id
    · subst hid
      exact htogether o ho
    · obtain ⟨-, hmessages, hsaid⟩ := hoff other hid
      rw [hsaid] at ho
      rw [hmessages]
      exact h.together other o ho
  fresh other hnot := by
    by_cases hid : other = id
    · subst hid
      exact hfresh hnot
    · obtain ⟨hrow, hmessages, hsaid⟩ := hoff other hid
      rw [hmessages, hsaid]
      refine h.fresh other fun hdone => hnot ?_
      rw [Desk.Completed, hrow]
      exact hdone

theorem Recorded.setRow {row : DfirInvestigation} (h : Recorded desk)
    (hrow : desk.Completed id → row.status = .completed) : Recorded (desk.setRow id (some row)) := by
  refine h.change id (fun other hid => ⟨Function.update_of_ne hid _ _, rfl, rfl⟩) (h.stored id) (h.together id)
    fun hnot => h.fresh id fun hdone => hnot ⟨row, ?_, hrow hdone⟩
  exact Function.update_self id _ _

theorem Recorded.opened {row : DfirInvestigation} (h : Recorded desk) (created : Time) (prompts : Prompts)
    (resp : LlmResponse) (hopen : ¬desk.Completed id) (hdone : row.status = .completed) :
    Recorded ((desk.setRow id (some row)).opened created id prompts resp) := by
  obtain ⟨hmessages, hsaid⟩ := h.fresh id hopen
  have hself : ((desk.setRow id (some row)).opened created id prompts resp).messagesOf id =
      stateAnalyzeMessages created id prompts resp := by
    rw [messagesOf_opened, if_pos rfl]
    exact congrArg (· ++ _) hmessages
  have hopened : ((desk.setRow id (some row)).opened created id prompts resp).conversation id =
      ⟨some (prompts.system, prompts.user, resp.content), []⟩ := by
    refine (Function.update_self id _ _).trans ?_
    exact congrArg (fun c : Conversation => { c with opening := some (prompts.system, prompts.user, resp.content) })
      hsaid
  refine h.change id (fun other hid => ⟨Function.update_of_ne hid _ _, ?_, Function.update_of_ne hid _ _⟩) ?_ ?_
    fun hnot => absurd ⟨row, Function.update_self id _ _, hdone⟩ hnot
  · rw [messagesOf_opened, if_neg hid]
    exact List.append_nil _
  · rw [hself, hopened]
    rfl
  · exact fun o ho => ⟨_, _, _, hself, rfl⟩

theorem Recorded.exchanged (h : Recorded desk) (created : Time) (question : String) (resp : LlmResponse)
    (hdone : desk.Completed id) : Recorded (desk.exchanged created id question resp) := by
  have hself : (desk.exchanged created id question resp).messagesOf id =
      desk.messagesOf id ++ chatMessages created id question resp := by
    rw [messagesOf_exchanged, if_pos rfl]
  have hsaid : (desk.exchanged created id question resp).conversation id =
      { desk.conversation id with exchanges := (desk.conversation id).exchanges ++ [(question, resp.content)] } :=
    Function.update_self id _ _
  refine h.change id (fun other hid => ⟨rfl, ?_, Function.update_of_ne hid _ _⟩) ?_ (fun o ho => ?_)
    fun hnot => absurd hdone hnot
  · rw [messagesOf_exchanged, if_neg hid, List.append_nil]
  · rw [hself, hsaid, List.map_append, h.stored id, Conversation.messages, Conversation.messages,
      exchangeMessages_append, List.append_assoc]
    rfl
  · rw [hsaid] at ho
    obtain ⟨first, second, rest, hmessages, hsame⟩ := h.together id o ho
    refine ⟨first, second, rest ++ chatMessages created id question resp, ?_, hsame⟩
    rw [hself, hmessages]
    rfl

theorem Recorded.deleted (h : Recorded desk) (id : InvId) : Recorded (desk.deleted id) := by
  have hself : (desk.deleted id).messagesOf id = [] := by rw [messagesOf_deleted, if_pos rfl]
  have hsaid : (desk.deleted id).conversation id = ⟨none, []⟩ := Function.update_self id _ _
  refine h.change id (fun other hid => ⟨Function.update_of_ne hid _ _, ?_, Function.update_of_ne hid _ _⟩) ?_
    (fun o ho => ?_) fun _ => ⟨hself, hsaid⟩
  · rw [messagesOf_deleted, if_neg hid]
  · rw [hself, hsaid]
    rfl
  · rw [hsaid] at ho
    cases ho

/-- **One request** keeps the record. -/
theorem Recorded.effect (h : Recorded desk) (heffect : Effect desk desk') : Recorded desk' := by
  cases heffect with
  | nothing => exact h
  | row id row hrow => exact h.setRow hrow
  | opened id row created prompts resp hopen hdone => exact h.opened created prompts resp hopen hdone
  | exchanged id created question resp hdone => exact h.exchanged created question resp hdone
  | deleted id => exact h.deleted id

theorem recorded_empty : Recorded Desk.empty where
  stored _ := rfl
  together _ _ ho := by cases ho
  fresh _ _ := ⟨rfl, rfl⟩

variable {P : Type} {classTime : P → Time}

/-- **Whatever the requests were**, the conversations are recorded. -/
theorem recorded_of_runs (h : Runs (serve classTime) anyAction Desk.empty desk) : Recorded desk :=
  h.invariant (fun _ _ _ hs _ hstep => hs.effect (serve_effect hstep)) recorded_empty

end Stored

/-! ## What is read back -/

section Read

variable {desk : Desk} {id : InvId}

theorem llmMessages_of_completed (hdone : desk.Completed id) (ord : List DfirInvestigationMessage) (question : String)
    {env : ChatEnv} (henabled : env.enabled = true) : llmMessages desk id ord question env =
      .ok (ord.map DfirInvestigationMessage.toLlm ++ [⟨.user, buildChatUserPrompt question⟩]) := by
  obtain ⟨inv, hrow, hstatus⟩ := hdone
  rw [llmMessages, hrow]
  dsimp only
  rw [if_neg (not_not.mpr hstatus), if_neg (by rw [henabled]; decide)]

theorem of_llmMessages_ok {ord : List DfirInvestigationMessage} {question : String} {env : ChatEnv}
    {messages : List LlmMessage} (h : llmMessages desk id ord question env = .ok messages) :
    desk.Completed id ∧
      messages = ord.map DfirInvestigationMessage.toLlm ++ [⟨.user, buildChatUserPrompt question⟩] := by
  unfold llmMessages at h
  split at h
  · cases h
  · rename_i inv hrow
    split_ifs at h with hstatus henabled
    exact ⟨⟨inv, hrow, not_not.mp hstatus⟩, (Except.ok.inj h).symm⟩

/-- **If the times increase**, a chat replays what is recorded. -/
theorem replays_of_increasing (h : Recorded desk) (hopening : (desk.conversation id).opening.isSome = true)
    (htimes : (desk.messagesOf id).Pairwise fun m m' => m.createdAt < m'.createdAt) : Replays desk id := by
  intro ord hord question env messages hmessages
  obtain ⟨o, ho⟩ := Option.isSome_iff_exists.mp hopening
  obtain ⟨-, rfl⟩ := of_llmMessages_ok hmessages
  refine ⟨o, fun o' ho' => Option.some.inj (ho.symm.trans ho'), ?_⟩
  rw [hord.eq_of_strict htimes, h.stored id, Conversation.messages, ho]
  rfl

theorem not_replays_of_opening (h : Recorded desk) {o : String × String × String}
    (ho : (desk.conversation id).opening = some o) :
    ¬∀ ord, Returned DfirInvestigationMessage.createdAt (desk.messagesOf id) ord →
      ord.map DfirInvestigationMessage.toLlm =
        openingMessages o ++ exchangeMessages (desk.conversation id).exchanges := by
  obtain ⟨first, second, rest, hmessages, hsame⟩ := h.together id o ho
  have hstored := h.stored id
  rw [hmessages, Conversation.messages, ho] at hstored
  obtain ⟨hfirst, hrest⟩ := List.cons.inj hstored
  obtain ⟨hsecond, -⟩ := List.cons.inj hrest
  refine not_forall_returned (List.Perm.of_eq hmessages) hsame ?_ _
  rw [hfirst, hsecond]
  exact fun heq => Role.noConfusion (congrArg LlmMessage.role heq)

theorem not_replays_of_none (h : Recorded desk) (ho : (desk.conversation id).opening = none)
    {ord : List DfirInvestigationMessage}
    (hord : Returned DfirInvestigationMessage.createdAt (desk.messagesOf id) ord) (o : String × String × String) :
    ord.map DfirInvestigationMessage.toLlm ≠
      openingMessages o ++ exchangeMessages (desk.conversation id).exchanges := by
  intro heq
  have hstored := congrArg List.length (h.stored id)
  rw [Conversation.messages, ho] at hstored
  have hlength := congrArg List.length heq
  rw [List.length_map, hord.1.length_eq] at hlength
  rw [List.length_map] at hstored
  have hzero : (openingMessages o).length = 3 := rfl
  simp only [Option.map_none, Option.getD_none, List.length_append, List.length_nil, hzero] at hstored hlength
  omega

variable {P : Type} {classTime : P → Time}

/-- **A chat is sent the conversation exactly when** none can be asked for: whoever has written the messages, some order
of the rows is another one. -/
theorem replays_iff (h : Runs (serve classTime) anyAction Desk.empty desk) (id : InvId) :
    Replays desk id ↔ ¬desk.Completed id := by
  have hrecorded := recorded_of_runs h
  constructor
  · intro hreplays hdone
    have hread : ∀ ord, Returned DfirInvestigationMessage.createdAt (desk.messagesOf id) ord →
        ∃ opening, (∀ o, (desk.conversation id).opening = some o → opening = o) ∧
          ord.map DfirInvestigationMessage.toLlm =
            openingMessages opening ++ exchangeMessages (desk.conversation id).exchanges := by
      intro ord hord
      obtain ⟨opening, hsame, heq⟩ := hreplays ord hord "" ⟨true, .llmError "", ""⟩ _
        (llmMessages_of_completed hdone ord "" rfl)
      exact ⟨opening, hsame, List.append_cancel_right heq⟩
    cases ho : (desk.conversation id).opening with
    | none =>
      obtain ⟨ord, hord⟩ := exists_returned DfirInvestigationMessage.createdAt (desk.messagesOf id)
      obtain ⟨opening, -, heq⟩ := hread ord hord
      exact not_replays_of_none hrecorded ho hord opening heq
    | some o =>
      refine not_replays_of_opening hrecorded ho fun ord hord => ?_
      obtain ⟨opening, hsame, heq⟩ := hread ord hord
      rw [hsame o ho] at heq
      exact heq
  · intro hnot ord _ question env messages hmessages
    exact absurd (of_llmMessages_ok hmessages).1 hnot

/-- An investigation that is ready for the analysis. -/
def analyzingRow : DfirInvestigation :=
  { newInvestigation ⟨12, 30, 60, false, "", 600, "", ["Windows.System.Pslist"]⟩ 0 (some "C.1")
      ⟨"machine-1", none, none, "admin", some false⟩ none with
    status := .analyzing }

/-- The answer of the LLM. -/
def reportResponse : LlmResponse := ⟨"# Báo cáo", 100, 20, 120, 0, "info", 0⟩

/-- The investigation is analyzed. -/
def analyzedHistory : List (Request Unit) :=
  [.write "1" analyzingRow,
    .analyze () "1" 10 ⟨some ⟨"openai", "model"⟩, .ok reportResponse, 20⟩ 30 ⟨"Bạn là chuyên gia DFIR", "Dữ liệu"⟩]

/-- The test of a desk on which the investigation is completed and has messages. -/
def completedWith (messages : List DfirInvestigationMessage) (desk : Desk) : Bool :=
  decide ((desk.rows "1").map DfirInvestigation.status = some .completed ∧ desk.messagesOf "1" = messages)

theorem exists_analyzed : ∃ desk, Runs (serve fun _ : Unit => 0) anyAction Desk.empty desk ∧
    completedWith (stateAnalyzeMessages 0 "1" ⟨"Bạn là chuyên gia DFIR", "Dữ liệu"⟩ reportResponse) desk = true :=
  exists_runs_of_exec (serve fun _ : Unit => 0) Desk.empty analyzedHistory (by decide)

theorem replays_iff_analyzed : ∃ desk, Runs (serve fun _ : Unit => 0) anyAction Desk.empty desk ∧
    desk.Completed "1" ∧ ¬Replays desk "1" := by
  obtain ⟨desk, hruns, htest⟩ := exists_analyzed
  obtain ⟨hstatus, -⟩ := of_decide_eq_true htest
  obtain ⟨inv, hrow, hdone⟩ := Option.map_eq_some_iff.mp hstatus
  exact ⟨desk, hruns, ⟨inv, hrow, hdone⟩, fun h => (replays_iff hruns "1").mp h ⟨inv, hrow, hdone⟩⟩

/-- **The three messages of the analysis** come in another order. -/
theorem opening_disordered : ¬∀ (P : Type) (classTime : P → Time) (desk : Desk),
    Runs (serve classTime) anyAction Desk.empty desk → ∀ id, Replays desk id := by
  intro h
  obtain ⟨desk, hruns, htest⟩ := exists_analyzed
  obtain ⟨hstatus, hmessages⟩ := of_decide_eq_true htest
  obtain ⟨inv, hrow, hdone⟩ := Option.map_eq_some_iff.mp hstatus
  -- the investigation prompt comes first
  let ord : List DfirInvestigationMessage :=
    [⟨"1", .user, "Dữ liệu", some 100, 0⟩, ⟨"1", .system, "Bạn là chuyên gia DFIR", none, 0⟩,
      ⟨"1", .assistant, "# Báo cáo", some 20, 0⟩]
  have hord : Returned DfirInvestigationMessage.createdAt (desk.messagesOf "1") ord := by
    rw [hmessages]
    decide
  obtain ⟨opening, -, heq⟩ := h Unit (fun _ => 0) desk hruns "1" ord hord "?" ⟨true, .llmError "", ""⟩ _
    (llmMessages_of_completed ⟨inv, hrow, hdone⟩ ord "?" rfl)
  exact Role.noConfusion (congrArg LlmMessage.role (List.cons.inj heq).1)

end Read

end AssetInventory.Chat
