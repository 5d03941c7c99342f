import AssetInventory.Lib.Orm
import AssetInventory.Lib.PyTime
import AssetInventory.Lib.PyValues
import AssetInventory.Lib.Run
import AssetInventory.Lib.Table

/-!
# Linking an account to a chat

A user asks for a token and sends it to the bot, whose webhook links the chat of the message to the account.  The tokens
are kept in the process, the accounts in the database, and the requests of users and of the bot run side by side.

* `parseUpdate`: what the webhook makes of a message.
* `State`, `Action`, `step`: the requests, cut where they wait; a history of what has happened is kept beside them.
* `Sound`: no webhook has raised an exception, a chat is changed by an unlink or by a token only, each token links
  once, and no chat is linked to two users.
* `Condition`: a message can be read, and one that presents a token comes from a chat that can be linked.
* `links_sound_of_runs`: runs whose steps meet the condition are sound.
-/

namespace AssetInventory.TelegramLinks

open PyTime PyLoads PyDict Orm RowStore Interleaving

variable {F : Type}

/-- A primary key. -/
abbrev Uuid := ℕ

/-- A `dict` of a decoded document. -/
abbrev Dict (F : Type) := List (Str × Value F)

/-! ## Messages -/

section Messages

/-- `request.json()`, of which the methods of a dictionary are used; `none` is an exception. -/
def objectOf (I : Interpreter F) (body : List Char) : Option (Dict F) := (loads I body).toOption.bind Value.asDict

variable (fl : Floats F)

/-- `data.get("message") or {}`, of which the methods of a dictionary are used. -/
def messageOf (data : Dict F) : Option (Dict F) :=
  let message := getD data "message" .none
  if message.truthy fl then message.asDict else some []

/-- `(msg.get("text") or "").strip()`. -/
def textOf (msg : Dict F) : Option Str :=
  match getD msg "text" .none with
  | .str s => some (strip s)
  | v => if v.truthy fl then none else some []

/-- `str(msg.get("chat", {}).get("id", ""))`. -/
def chatIdOf (msg : Dict F) : Option Str :=
  (getD msg "chat" (.dict [])).asDict.map fun chat => (getD chat "id" (.str [])).text fl

/-- The text and the chat of a message; `none` is an `AttributeError`. -/
def parseUpdate (data : Dict F) : Option (Str × Str) := do
  let msg ← messageOf fl data
  let text ← textOf fl msg
  let chatId ← chatIdOf fl msg
  return (text, chatId)

end Messages

/-- The token of a text that starts with `/start `. -/
def startToken (text : Str) : Option Str :=
  if startsWith "/start " text then some (strip (afterSpace text)) else none

/-! ## The system -/

/-- The columns of `users` that are used here. -/
structure Account where
  telegramChatId : Option Str
  telegramLinkedAt : Option Time

/-- An entry of `_LINKING_TOKENS`. -/
structure LinkingToken where
  userId : Uuid
  expiresAt : Time

/-- A token that has been presented: the user it was issued to, and what has come with it. -/
structure Link (F : Type) where
  token : Str
  userId : Uuid
  chatId : Str
  data : Dict F

/-- What a request is about to do. -/
inductive Call (F : Type) where
  | idle
  /-- `unlink_telegram`, with the account as it was loaded. -/
  | unlinking (userId : Uuid) (base : Account)
  /-- `telegram_callback`, before the user is loaded. -/
  | selecting (link : Link F)
  /-- `telegram_callback`, before the commit, with the account as it was loaded. -/
  | linking (link : Link F) (base : Account) (linkedAt : Time)

/-- What has happened. -/
inductive Event where
  | issued (token : Str) (userId : Uuid) (expiresAt : Time)
  /-- A token was presented that was there, and had not expired. -/
  | presented (token : Str) (time : Time)
  | linked (token : Str) (userId : Uuid) (chatId : Str)
  /-- A webhook has ended in an exception. -/
  | raised
  deriving DecidableEq

/-- A process of the server, with its database. -/
structure State (F : Type) where
  now : Time
  users : Table Uuid Account
  /-- `_LINKING_TOKENS`. -/
  tokens : List (Str × LinkingToken)
  calls : ℕ → Call F
  history : List Event

/-- The steps of the requests. -/
inductive Action where
  | advance (duration : ℕ)
  /-- `start_telegram_link`, with the token that is drawn. -/
  | start (userId : Uuid) (token : Str)
  | loadUnlink (p : ℕ) (userId : Uuid)
  | commitUnlink (p : ℕ)
  /-- A webhook up to the query for the user. -/
  | receive (p : ℕ) (body : List Char)
  | select (p : ℕ)
  | commitLink (p : ℕ)

/-- Time to live of a token: five minutes. -/
def tokenLife : Time := minutes 5

/-- The texts that the column takes: at most 64 characters that can be encoded, none of them NUL. -/
def takes (chatId : Str) : Bool :=
  decide (chatId.length ≤ 64) && encodable chatId && decide (0 ∉ chatId)

/-- The chat is linked to another user. -/
def takenByOther (users : Table Uuid Account) (userId : Uuid) (chatId : Str) : Bool :=
  (users.rowsWhere fun a => decide (a.telegramChatId = some chatId)).any fun row => decide (row.1 ≠ userId)

/-- An `UPDATE` of an account: the columns in which the object differs from what was loaded. -/
def Account.writeBack (base cur stored : Account) : Account where
  telegramChatId := pick base.telegramChatId cur.telegramChatId stored.telegramChatId
  telegramLinkedAt := pick base.telegramLinkedAt cur.telegramLinkedAt stored.telegramLinkedAt

/-- The database refuses the `UPDATE`, which has the chat only if it was changed. -/
def refused (users : Table Uuid Account) (userId : Uuid) (base : Account) (chatId : Str) : Bool :=
  decide (base.telegramChatId ≠ some chatId) && (!takes chatId || takenByOther users userId chatId)

namespace State

/-- The request goes on, or ends. -/
def goTo (s : State F) (p : ℕ) (call : Call F) : State F := { s with calls := Function.update s.calls p call }

/-- Something happens. -/
def note (s : State F) (event : Event) : State F := { s with history := s.history ++ [event] }

/-- The tokens that have been issued. -/
def wasIssued (s : State F) (token : Str) : Bool :=
  s.history.any fun event => match event with
    | .issued t _ _ => decide (t = token)
    | _ => false

/-- `telegram_callback` with the right secret, up to the query for the user. -/
def receive (I : Interpreter F) (fl : Floats F) (s : State F) (p : ℕ) (body : List Char) : State F :=
  match (objectOf I body).bind fun data => (parseUpdate fl data).map fun update => (data, update) with
  | none => s.note .raised
  | some (data, text, chatId) =>
    match startToken text with
    | none => s
    | some token =>
      match get? s.tokens token with
      | none => s
      | some entry =>
        let s := { s with tokens := without token s.tokens }
        if entry.expiresAt < s.now then s
        else (s.note (.presented token s.now)).goTo p (.selecting ⟨token, entry.userId, chatId, data⟩)

/-- The rest of `telegram_callback`. -/
def commitLink (s : State F) (p : ℕ) (link : Link F) (base : Account) (linkedAt : Time) : State F :=
  if refused s.users link.userId base link.chatId then (s.note .raised).goTo p .idle
  else
    ({ s with users := s.users.modify link.userId (base.writeBack ⟨some link.chatId, some linkedAt⟩) }.note
      (.linked link.token link.userId link.chatId)).goTo p .idle

end State

/-- The steps.  A token is random, and so one that has not been issued before. -/
def step (I : Interpreter F) (fl : Floats F) (s : State F) : Action → Option (State F)
  | .advance duration => some { s with now := s.now + duration }
  | .start userId token =>
    if (s.users.get userId).isSome ∧ s.wasIssued token = false then
      let expiresAt := s.now + tokenLife
      some ({ s with tokens := setItem token ⟨userId, expiresAt⟩ s.tokens }.note (.issued token userId expiresAt))
    else none
  | .loadUnlink p userId =>
    match s.calls p, s.users.get userId with
    | .idle, some base => some (s.goTo p (.unlinking userId base))
    | _, _ => none
  | .commitUnlink p =>
    match s.calls p with
    | .unlinking userId base =>
      some ({ s with users := s.users.modify userId (base.writeBack ⟨none, none⟩) }.goTo p .idle)
    | _ => none
  | .receive p body =>
    match s.calls p with
    | .idle => some (s.receive I fl p body)
    | _ => none
  | .select p =>
    match s.calls p with
    | .selecting link =>
      match s.users.get link.userId with
      | none => some (s.goTo p .idle)
      | some base => some (s.goTo p (.linking link base s.now))
    | _ => none
  | .commitLink p =>
    match s.calls p with
    | .linking link base linkedAt => some (s.commitLink p link base linkedAt)
    | _ => none

/-! ## What is expected -/

/-- The tokens that have linked a chat. -/
def linkedTokens (history : List Event) : List Str :=
  history.filterMap fun event => match event with
    | .linked token _ _ => some token
    | _ => none

/-- The chat that an account is linked to. -/
def State.chatOf (s : State F) (userId : Uuid) : Option Str := (s.users.get userId).bind Account.telegramChatId

/-- The message of an update. -/
def message (data : Dict F) : Dict F :=
  match get? data (codes "message") with
  | some (.dict msg) => msg
  | _ => []

/-- The text of its message. -/
def textIn (data : Dict F) : Str :=
  match get? (message data) (codes "text") with
  | some (.str s) => strip s
  | _ => []

/-- The text is the id of the chat that has sent the message. -/
def SentBy (fl : Floats F) (data : Dict F) (chatId : Str) : Prop :=
  ∃ chat id, get? (message data) (codes "chat") = some (.dict chat) ∧ get? chat (codes "id") = some id ∧ id ≠ .none ∧
    chatId = id.text fl

/-- **How the chat of a user may change.** -/
inductive Explained (fl : Floats F) (s : State F) (userId : Uuid) : Action → Option Str → Prop where
  /-- The user has asked for it. -/
  | unlink {p : ℕ} {base : Account} (hcall : s.calls p = .unlinking userId base) :
    Explained fl s userId (.commitUnlink p) none
  /-- The chat has sent a token that was issued to the user, had not expired and has not linked a chat. -/
  | link {p : ℕ} {link : Link F} {base : Account} {linkedAt expiresAt time : Time}
    (hcall : s.calls p = .linking link base linkedAt) (huser : link.userId = userId)
    (htoken : startToken (textIn link.data) = some link.token)
    (hissued : .issued link.token userId expiresAt ∈ s.history) (hpresented : .presented link.token time ∈ s.history)
    (htime : time ≤ expiresAt) (hunused : link.token ∉ linkedTokens s.history) (hne : link.chatId ≠ [])
    (hsent : SentBy fl link.data link.chatId) : Explained fl s userId (.commitLink p) (some link.chatId)

/-- No chat is linked to two users. -/
def Distinct (users : Table Uuid Account) : Prop :=
  ∀ u u' a a' c, users.get u = some a → users.get u' = some a' → a.telegramChatId = some c →
    a'.telegramChatId = some c → u = u'

/-- **Linking is sound.** -/
structure Sound (I : Interpreter F) (fl : Floats F) (s : State F) : Prop where
  handled : .raised ∉ s.history
  explained : ∀ a t userId, step I fl s a = some t → t.chatOf userId ≠ s.chatOf userId →
    Explained fl s userId a (t.chatOf userId)
  once : (linkedTokens s.history).Nodup
  distinct : Distinct s.users

/-! ## The condition -/

/-- A message that can be read: it is an object or counts as absent, so is its text a string, and its chat is absent or
an object. -/
structure Readable (fl : Floats F) (data : Dict F) : Prop where
  object : ∀ v, get? data (codes "message") = some v → v.truthy fl = true → ∃ msg, v = .dict msg
  string : ∀ v, get? (message data) (codes "text") = some v → v.truthy fl = true → ∃ s, v = .str s
  chatObject : ∀ v, get? (message data) (codes "chat") = some v → ∃ chat, v = .dict chat

/-- The chat of a message has an id that can be stored. -/
def Linkable (fl : Floats F) (data : Dict F) : Prop :=
  ∃ chatId, SentBy fl data chatId ∧ chatId ≠ [] ∧ takes chatId = true

/-- The token is there, and has not expired. -/
def State.Live (s : State F) (token : Str) : Prop :=
  ∃ entry, get? s.tokens token = some entry ∧ s.now ≤ entry.expiresAt

/-- **The condition on a step**: a webhook gets an object that can be read, and if it presents a live token, it comes from
a chat that can be linked; and no other user is linked to a chat that is about to be stored. -/
def Condition (I : Interpreter F) (fl : Floats F) (s : State F) : Action → Prop
  | .receive _ body => ∃ data, objectOf I body = some data ∧ Readable fl data ∧
    ∀ token, startToken (textIn data) = some token → s.Live token → Linkable fl data
  | .commitLink p => ∀ link base linkedAt, s.calls p = .linking link base linkedAt →
    base.telegramChatId ≠ some link.chatId → takenByOther s.users link.userId link.chatId = false
  | _ => True

/-! ## Messages that can be read -/

section Readable

variable {fl : Floats F} {data : Dict F}

theorem getD_eq_of_get? {d : Dict F} {key : String} {default v : Value F} (h : get? d (codes key) = some v) :
    PyLoads.getD d key default = v := by
  rw [PyLoads.getD, h, Option.getD_some]

theorem getD_eq_of_none {d : Dict F} {key : String} {default : Value F} (h : get? d (codes key) = none) :
    PyLoads.getD d key default = default := by
  rw [PyLoads.getD, h, Option.getD_none]

theorem messageOf_of_readable (h : Readable fl data) : messageOf fl data = some (message data) := by
  unfold messageOf message
  cases hget : get? data (codes "message") with
  | none =>
    rw [getD_eq_of_none hget]
    rfl
  | some v =>
    rw [getD_eq_of_get? hget]
    dsimp only
    by_cases htruthy : v.truthy fl = true
    · obtain ⟨msg, rfl⟩ := h.object v hget htruthy
      rw [if_pos htruthy]
      rfl
    · rw [if_neg htruthy]
      cases v with
      | dict msg =>
        -- an object that counts as absent is empty
        cases msg with
        | nil => rfl
        | cons e msg => exact absurd rfl htruthy
      | _ => rfl

theorem textOf_of_readable (h : Readable fl data) : textOf fl (message data) = some (textIn data) := by
  unfold textOf textIn
  cases hget : get? (message data) (codes "text") with
  | none =>
    rw [getD_eq_of_none hget]
    rfl
  | some v =>
    rw [getD_eq_of_get? hget]
    cases v with
    | str s => rfl
    | _ =>
      refine if_neg fun htruthy => ?_
      obtain ⟨s, hs⟩ := h.string _ hget htruthy
      cases hs

/-- **A message that can be read** is taken for what it is. -/
theorem parseUpdate_of_readable (h : Readable fl data) :
    ∃ chatId, parseUpdate fl data = some (textIn data, chatId) ∧
      ∀ sender, SentBy fl data sender → chatId = sender := by
  obtain ⟨chatId, hchatId, hsent⟩ : ∃ chatId, chatIdOf fl (message data) = some chatId ∧
      ∀ sender, SentBy fl data sender → chatId = sender := by
    unfold chatIdOf
    cases hget : get? (message data) (codes "chat") with
    | none =>
      rw [getD_eq_of_none hget]
      refine ⟨_, rfl, fun sender ⟨chat, id, hchat, _⟩ => ?_⟩
      rw [hget] at hchat
      cases hchat
    | some v =>
      obtain ⟨chat, rfl⟩ := h.chatObject v hget
      rw [getD_eq_of_get? hget]
      refine ⟨_, rfl, fun sender ⟨chat', id, hchat, hid, _, hsender⟩ => ?_⟩
      rw [hget] at hchat
      cases hchat
      rw [hsender, ← getD_eq_of_get? hid]
  refine ⟨chatId, ?_, hsent⟩
  rw [parseUpdate, messageOf_of_readable h]
  show (textOf fl (message data)).bind _ = _
  rw [textOf_of_readable h]
  show (chatIdOf fl (message data)).bind _ = _
  rw [hchatId]
  rfl

end Readable

/-! ## The invariant -/

/-- The token that a request is using. -/
def Call.link? : Call F → Option (Link F)
  | .selecting link => some link
  | .linking link _ _ => some link
  | _ => none

/-- A token that a request is using may link the chat. -/
structure Held (fl : Floats F) (history : List Event) (link : Link F) : Prop where
  token : startToken (textIn link.data) = some link.token
  issued : ∃ expiresAt time, .issued link.token link.userId expiresAt ∈ history ∧
    .presented link.token time ∈ history ∧ time ≤ expiresAt
  unused : link.token ∉ linkedTokens history
  sent : SentBy fl link.data link.chatId
  ne : link.chatId ≠ []
  takes : takes link.chatId = true

/-- **The invariant**: a token is in the store, in the hands of one request, or neither. -/
structure Inv (fl : Floats F) (s : State F) : Prop where
  handled : .raised ∉ s.history
  once : (linkedTokens s.history).Nodup
  distinct : Distinct s.users
  stored : ∀ token entry, get? s.tokens token = some entry →
    .issued token entry.userId entry.expiresAt ∈ s.history ∧ token ∉ linkedTokens s.history ∧
      ∀ p link, (s.calls p).link? = some link → link.token ≠ token
  held : ∀ p link, (s.calls p).link? = some link → Held fl s.history link
  alone : ∀ p q link link', (s.calls p).link? = some link → (s.calls q).link? = some link' →
    link.token = link'.token → p = q
  issued : ∀ token ∈ linkedTokens s.history, s.wasIssued token = true

section History

variable {fl : Floats F} {history : List Event} {event : Event} {link : Link F} {s : State F} {token : Str}

theorem linkedTokens_concat_linked (token : Str) (userId : Uuid) (chatId : Str) :
    linkedTokens (history ++ [.linked token userId chatId]) = linkedTokens history ++ [token] :=
  List.filterMap_append

theorem linkedTokens_concat (h : ∀ token userId chatId, event ≠ .linked token userId chatId) :
    linkedTokens (history ++ [event]) = linkedTokens history := by
  unfold linkedTokens
  rw [List.filterMap_append]
  cases event with
  | linked token userId chatId => exact absurd rfl (h token userId chatId)
  | _ => exact List.append_nil _

theorem unlinked_concat (h : token ∉ linkedTokens history)
    (hlinked : ∀ token userId chatId, event ≠ .linked token userId chatId) :
    token ∉ linkedTokens (history ++ [event]) := by
  rw [linkedTokens_concat hlinked]
  exact h

theorem wasIssued_iff : s.wasIssued token = true ↔ ∃ userId expiresAt, .issued token userId expiresAt ∈ s.history := by
  unfold State.wasIssued
  rw [List.any_eq_true]
  constructor
  · rintro ⟨event, hevent, h⟩
    cases event with
    | issued t userId expiresAt => exact ⟨userId, expiresAt, of_decide_eq_true h ▸ hevent⟩
    | _ => cases h
  · rintro ⟨userId, expiresAt, h⟩
    exact ⟨_, h, decide_eq_true rfl⟩

theorem wasIssued_note (h : s.wasIssued token = true) : (s.note event).wasIssued token = true := by
  obtain ⟨userId, expiresAt, h⟩ := wasIssued_iff.mp h
  exact wasIssued_iff.mpr ⟨userId, expiresAt, List.mem_append_left _ h⟩

theorem Held.concat (h : Held fl history link) (hunused : link.token ∉ linkedTokens (history ++ [event])) :
    Held fl (history ++ [event]) link :=
  let ⟨expiresAt, time, hissued, hpresented, htime⟩ := h.issued
  { h with
    issued := ⟨expiresAt, time, List.mem_append_left _ hissued, List.mem_append_left _ hpresented, htime⟩
    unused := hunused }

end History

section Steps

variable {I : Interpreter F} {fl : Floats F} {s t : State F}

theorem link?_goTo {p q : ℕ} {call : Call F} {link : Link F}
    (h : ((s.goTo p call).calls q).link? = some link) :
    q = p ∧ call.link? = some link ∨ q ≠ p ∧ (s.calls q).link? = some link := by
  change ((Function.update s.calls p call) q).link? = some link at h
  by_cases hq : q = p
  · subst hq
    rw [Function.update_self] at h
    exact .inl ⟨rfl, h⟩
  · rw [Function.update_of_ne hq] at h
    exact .inr ⟨hq, h⟩

theorem Inv.goTo (h : Inv fl s) {p : ℕ} {call : Call F}
    (hcall : ∀ link, call.link? = some link → (s.calls p).link? = some link) : Inv fl (s.goTo p call) := by
  have hback : ∀ q link, ((s.goTo p call).calls q).link? = some link → (s.calls q).link? = some link := by
    intro q link hlink
    rcases link?_goTo hlink with ⟨rfl, hnew⟩ | ⟨-, hold⟩
    · exact hcall link hnew
    · exact hold
  exact
    { handled := h.handled
      once := h.once
      distinct := h.distinct
      stored := fun token entry hentry =>
        let ⟨hissued, hunused, hfree⟩ := h.stored token entry hentry
        ⟨hissued, hunused, fun q link hlink => hfree q link (hback q link hlink)⟩
      held := fun q link hlink => h.held q link (hback q link hlink)
      alone := fun q q' link link' hlink hlink' => h.alone q q' link link' (hback q link hlink) (hback q' link' hlink')
      issued := h.issued }

variable {users : Table Uuid Account}

theorem Inv.withUsers (h : Inv fl s) (hdistinct : Distinct users) :
    Inv fl { s with users := users } := { h with distinct := hdistinct }

theorem Inv.pop (h : Inv fl s) (token : Str) : Inv fl { s with tokens := without token s.tokens } :=
  { h with
    stored := fun t entry hentry => by
      change get? (without token s.tokens) t = some entry at hentry
      rw [get?_without] at hentry
      split_ifs at hentry
      exact h.stored t entry hentry }

theorem Inv.note (h : Inv fl s) (event : Event) (hraised : event ≠ .raised)
    (hlinked : ∀ token userId chatId, event ≠ .linked token userId chatId) : Inv fl (s.note event) := by
  have hlinkedTokens : linkedTokens (s.note event).history = linkedTokens s.history := linkedTokens_concat hlinked
  exact
    { handled := fun hmem =>
        (List.mem_append.mp hmem).elim h.handled fun hmem => hraised (List.mem_singleton.mp hmem).symm
      once := hlinkedTokens ▸ h.once
      distinct := h.distinct
      stored := fun token entry hentry =>
        let ⟨hissued, hunused, hfree⟩ := h.stored token entry hentry
        ⟨List.mem_append_left _ hissued, hlinkedTokens ▸ hunused, hfree⟩
      held := fun q link hlink => (h.held q link hlink).concat (hlinkedTokens ▸ (h.held q link hlink).unused)
      alone := h.alone
      issued := fun token htoken => wasIssued_note (h.issued token (hlinkedTokens ▸ htoken)) }

theorem Inv.present (h : Inv fl s) (p : ℕ) (link : Link F) {entry : LinkingToken}
    (hget : get? s.tokens link.token = some entry)
    (hheld : Held fl (s.history ++ [.presented link.token s.now]) link) :
    Inv fl (({ s with tokens := without link.token s.tokens }.note (.presented link.token s.now)).goTo p
      (.selecting link)) := by
  obtain ⟨-, -, hfree⟩ := h.stored link.token entry hget
  have hnote := (h.pop link.token).note (.presented link.token s.now) nofun nofun
  exact
    { handled := hnote.handled
      once := hnote.once
      distinct := hnote.distinct
      stored := fun t e he => by
        obtain ⟨hissued, hunused, hfree'⟩ := hnote.stored t e he
        refine ⟨hissued, hunused, fun q link' hlink => ?_⟩
        rcases link?_goTo hlink with ⟨-, hnew⟩ | ⟨-, hold⟩
        · cases hnew
          rintro rfl
          change get? (without link.token s.tokens) link.token = some e at he
          rw [get?_without, if_pos rfl] at he
          cases he
        · exact hfree' q link' hold
      held := fun q link' hlink => by
        rcases link?_goTo hlink with ⟨-, hnew⟩ | ⟨-, hold⟩
        · cases hnew
          exact hheld
        · exact hnote.held q link' hold
      alone := fun q q' link' link'' hlink hlink' heq => by
        rcases link?_goTo hlink with ⟨rfl, hnew⟩ | ⟨hne, hold⟩ <;>
          rcases link?_goTo hlink' with ⟨rfl, hnew'⟩ | ⟨hne', hold'⟩
        · rfl
        · cases hnew
          exact absurd heq.symm (hfree q' link'' hold')
        · cases hnew'
          exact absurd heq (hfree q link' hold)
        · exact h.alone q q' link' link'' hold hold' heq
      issued := hnote.issued }

theorem Inv.receive (h : Inv fl s) {p : ℕ} {body : List Char} (hcond : Condition I fl s (.receive p body)) :
    Inv fl (s.receive I fl p body) := by
  obtain ⟨data, hdata, hreadable, hlinkable⟩ := hcond
  obtain ⟨chatId, hparse, hsender⟩ := parseUpdate_of_readable hreadable
  rw [State.receive, hdata, Option.bind_some, hparse, Option.map_some]
  dsimp only
  cases htoken : startToken (textIn data) with
  | none => exact h
  | some token =>
    dsimp only
    cases hget : get? s.tokens token with
    | none => exact h
    | some entry =>
      dsimp only
      by_cases hexpired : entry.expiresAt < s.now
      · rw [if_pos hexpired]
        exact h.pop token
      · rw [if_neg hexpired]
        obtain ⟨hissued, hunused, -⟩ := h.stored token entry hget
        obtain ⟨sender, hsent, hne, htakes⟩ := hlinkable token htoken ⟨entry, hget, not_lt.mp hexpired⟩
        obtain rfl := hsender sender hsent
        refine h.present p ⟨token, entry.userId, chatId, data⟩ hget ?_
        exact
          { token := htoken
            issued := ⟨entry.expiresAt, s.now, List.mem_append_left _ hissued,
              List.mem_append_right _ (List.mem_singleton_self _), not_lt.mp hexpired⟩
            unused := unlinked_concat hunused nofun
            sent := hsent
            ne := hne
            takes := htakes }

variable {userId u : Uuid}

theorem Inv.start (h : Inv fl s) {token : Str} {expiresAt : Time} (hfresh : s.wasIssued token = false) :
    Inv fl ({ s with tokens := setItem token ⟨userId, expiresAt⟩ s.tokens }.note (.issued token userId expiresAt)) := by
  have hnot : ¬s.wasIssued token = true := by rw [hfresh]; exact Bool.false_ne_true
  have hunused : token ∉ linkedTokens s.history := fun hmem => hnot (h.issued token hmem)
  have hfree : ∀ p link, (s.calls p).link? = some link → link.token ≠ token := by
    rintro p link hlink rfl
    obtain ⟨expiresAt, -, hissued, -⟩ := (h.held p link hlink).issued
    exact hnot (wasIssued_iff.mpr ⟨_, expiresAt, hissued⟩)
  have hnote : Inv fl (s.note (.issued token userId expiresAt)) := h.note _ nofun nofun
  exact
    { hnote with
      stored := fun t entry hentry => by
        change get? (setItem token ⟨userId, expiresAt⟩ s.tokens) t = some entry at hentry
        rw [get?_setItem] at hentry
        split_ifs at hentry with heq
        · subst heq
          cases hentry
          exact ⟨List.mem_append_right _ (List.mem_singleton_self _), unlinked_concat hunused nofun, hfree⟩
        · exact hnote.stored t entry hentry }

/-- One account is changed: it keeps its chat, or gets one that no other account has. -/
theorem distinct_modify (h : Distinct users) {f : Account → Account}
    (hf : ∀ a c, users.get userId = some a → (f a).telegramChatId = some c → a.telegramChatId = some c ∨
      ∀ u a', u ≠ userId → users.get u = some a' → a'.telegramChatId ≠ some c) :
    Distinct (users.modify userId f) := by
  intro u u' a a' c hu hu' ha ha'
  rcases Table.get_modify_cases hu with ⟨rfl, b, hb, rfl⟩ | ⟨hne, hstored⟩
  · rcases Table.get_modify_cases hu' with ⟨rfl, _⟩ | ⟨hne', hstored'⟩
    · rfl
    · rcases hf b c hb ha with hold | hfree
      · exact h u u' b a' c hb hstored' hold ha'
      · exact absurd ha' (hfree u' a' hne' hstored')
  · rcases Table.get_modify_cases hu' with ⟨rfl, b, hb, rfl⟩ | ⟨-, hstored'⟩
    · rcases hf b c hb ha' with hold | hfree
      · exact h u u' a b c hstored hb ha hold
      · exact absurd ha (hfree u a hne hstored)
    · exact h u u' a a' c hstored hstored' ha ha'

theorem distinct_unlink (h : Distinct users) (userId : Uuid) (base : Account) :
    Distinct (users.modify userId (base.writeBack ⟨none, none⟩)) := by
  refine distinct_modify h fun a c _ hc => .inl ?_
  change pick base.telegramChatId none a.telegramChatId = some c at hc
  rcases pick_cases base.telegramChatId none a.telegramChatId with ⟨-, hpick⟩ | ⟨-, hpick⟩
  · exact hpick ▸ hc
  · rw [hpick] at hc
    cases hc

theorem not_taken {chatId : Str}
    (h : takenByOther users userId chatId = false) {a : Account} (hu : u ≠ userId)
    (ha : users.get u = some a) : a.telegramChatId ≠ some chatId := fun hchat =>
  List.any_eq_false.mp h (u, a) (Table.mem_rowsWhere.mpr ⟨ha, decide_eq_true hchat⟩) (decide_eq_true hu)

theorem Inv.commitLink (h : Inv fl s) {p : ℕ} {link : Link F} {base : Account} {linkedAt : Time}
    (hcall : s.calls p = .linking link base linkedAt)
    (hfree : base.telegramChatId ≠ some link.chatId → takenByOther s.users link.userId link.chatId = false) :
    refused s.users link.userId base link.chatId = false ∧ Inv fl (s.commitLink p link base linkedAt) := by
  have hlink : (s.calls p).link? = some link := by rw [hcall]; rfl
  have hheld : Held fl s.history link := h.held p link hlink
  have hrefused : refused s.users link.userId base link.chatId = false := by
    rw [refused, hheld.takes]
    by_cases hchat : base.telegramChatId = some link.chatId
    · rw [decide_eq_false (not_not.mpr hchat), Bool.false_and]
    · rw [hfree hchat]
      exact Bool.and_false _
  refine ⟨hrefused, ?_⟩
  rw [State.commitLink, if_neg (by rw [hrefused]; exact Bool.false_ne_true)]
  have hdistinct : Distinct (s.users.modify link.userId (base.writeBack ⟨some link.chatId, some linkedAt⟩)) := by
    refine distinct_modify h.distinct fun a c _ hc => ?_
    change pick base.telegramChatId (some link.chatId) a.telegramChatId = some c at hc
    rcases pick_cases base.telegramChatId (some link.chatId) a.telegramChatId with ⟨-, hpick⟩ | ⟨hne, hpick⟩
    · exact .inl (hpick ▸ hc)
    · cases hpick ▸ hc
      exact .inr fun u a' hu ha' => not_taken (hfree (Ne.symm hne)) hu ha'
  -- the request ends, and the token is one of those that have linked a chat
  have hidle : Inv fl (({ s with users := s.users.modify link.userId _ } : State F).goTo p .idle) :=
    (h.withUsers hdistinct).goTo (fun _ hnone => by cases hnone)
  have hothers : ∀ q link', ((s.goTo p .idle).calls q).link? = some link' → link'.token ≠ link.token := by
    intro q link' hlink' heq
    rcases link?_goTo hlink' with ⟨-, hnone⟩ | ⟨hne, hlink'⟩
    · cases hnone
    · exact hne (h.alone q p link' link hlink' hlink heq)
  have hlinked : ∀ t, t ∈ linkedTokens (s.history ++ [.linked link.token link.userId link.chatId]) ↔
      t ∈ linkedTokens s.history ∨ t = link.token := by
    intro t
    rw [linkedTokens_concat_linked, List.mem_append, List.mem_singleton]
  exact
    { handled := fun hmem => (List.mem_append.mp hmem).elim h.handled fun hmem => by cases List.mem_singleton.mp hmem
      once := by
        change (linkedTokens (s.history ++ [_])).Nodup
        rw [linkedTokens_concat_linked]
        exact h.once.append (List.nodup_singleton _) (List.disjoint_singleton.mpr hheld.unused)
      distinct := hdistinct
      stored := fun t entry hentry => by
        obtain ⟨hissued, hunused, hnone⟩ := hidle.stored t entry hentry
        refine ⟨List.mem_append_left _ hissued, fun hmem => ?_, hnone⟩
        rcases (hlinked t).mp hmem with hmem | rfl
        · exact hunused hmem
        · exact (h.stored _ entry hentry).2.2 p link hlink rfl
      held := fun q link' hlink' => (hidle.held q link' hlink').concat fun hmem =>
        ((hlinked _).mp hmem).elim (hidle.held q link' hlink').unused (hothers q link' hlink')
      alone := hidle.alone
      issued := fun t ht => by
        refine wasIssued_note (((hlinked t).mp ht).elim (h.issued t) ?_)
        rintro rfl
        obtain ⟨expiresAt, -, hissued, -⟩ := hheld.issued
        exact wasIssued_iff.mpr ⟨_, expiresAt, hissued⟩ }

/-- **A step keeps the invariant.** -/
theorem inv_step {a : Action} (h : Inv fl s) (hcond : Condition I fl s a) (hstep : step I fl s a = some t) :
    Inv fl t := by
  cases a with
  | advance duration =>
    cases hstep
    exact { h with }
  | start userId token =>
    rw [step] at hstep
    split_ifs at hstep with hnew
    cases hstep
    exact h.start hnew.2
  | loadUnlink p userId =>
    rw [step] at hstep
    split at hstep
    · cases hstep
      exact h.goTo fun _ hnone => by cases hnone
    · cases hstep
  | commitUnlink p =>
    rw [step] at hstep
    split at hstep
    · cases hstep
      exact (h.withUsers (distinct_unlink h.distinct _ _)).goTo fun _ hnone => by cases hnone
    · cases hstep
  | receive p body =>
    rw [step] at hstep
    split at hstep
    · cases hstep
      exact h.receive hcond
    · cases hstep
  | select p =>
    rw [step] at hstep
    split at hstep
    · rename_i link hcall
      have hlink : (s.calls p).link? = some link := by rw [hcall]; rfl
      cases hbase : s.users.get link.userId with
      | none =>
        rw [hbase] at hstep
        cases hstep
        exact h.goTo fun _ hnone => by cases hnone
      | some base =>
        rw [hbase] at hstep
        cases hstep
        refine h.goTo fun link' hlink' => ?_
        cases hlink'
        exact hlink
    · cases hstep
  | commitLink p =>
    rw [step] at hstep
    split at hstep
    · rename_i link base linkedAt hcall
      cases hstep
      exact (h.commitLink hcall (hcond link base linkedAt hcall)).2
    · cases hstep

/-! ## Changes of a chat -/

theorem chatOf_modify {f : Account → Account} (ht : t.users = s.users.modify userId f)
    (hne : t.chatOf u ≠ s.chatOf u) :
    u = userId ∧ ∃ a, t.chatOf u = (f a).telegramChatId ∧ (f a).telegramChatId ≠ a.telegramChatId := by
  unfold State.chatOf at hne ⊢
  rw [ht] at hne ⊢
  by_cases hu : u = userId
  · subst hu
    rw [Table.get_modify_self] at hne ⊢
    cases hget : s.users.get u with
    | none =>
      rw [hget] at hne
      exact absurd rfl hne
    | some a =>
      rw [hget] at hne
      exact ⟨rfl, a, rfl, hne⟩
  · rw [Table.get_modify_of_ne _ _ hu] at hne
    exact absurd rfl hne

theorem users_receive (s : State F) (p : ℕ) (body : List Char) : (s.receive I fl p body).users = s.users := by
  unfold State.receive
  split
  · rfl
  · split
    · rfl
    · split
      · rfl
      · dsimp only
        split_ifs <;> rfl

theorem explained_step {a : Action} (h : Inv fl s) (hstep : step I fl s a = some t)
    (hne : t.chatOf userId ≠ s.chatOf userId) : Explained fl s userId a (t.chatOf userId) := by
  cases a with
  | advance duration =>
    cases hstep
    exact absurd rfl hne
  | start u token =>
    rw [step] at hstep
    split_ifs at hstep
    cases hstep
    exact absurd rfl hne
  | loadUnlink p u =>
    rw [step] at hstep
    split at hstep
    · cases hstep
      exact absurd rfl hne
    · cases hstep
  | commitUnlink p =>
    rw [step] at hstep
    split at hstep
    · rename_i u base hcall
      cases hstep
      obtain ⟨rfl, a, hchat, hchange⟩ := chatOf_modify rfl hne
      rw [hchat]
      change pick base.telegramChatId none a.telegramChatId ≠ _ at hchange
      change Explained fl s userId _ (pick base.telegramChatId none a.telegramChatId)
      rcases pick_cases base.telegramChatId none a.telegramChatId with ⟨-, hpick⟩ | ⟨-, hpick⟩
      · exact absurd hpick hchange
      · rw [hpick]
        exact .unlink hcall
    · cases hstep
  | receive p body =>
    rw [step] at hstep
    split at hstep
    · cases hstep
      refine absurd ?_ hne
      unfold State.chatOf
      rw [users_receive]
    · cases hstep
  | select p =>
    rw [step] at hstep
    split at hstep
    · split at hstep <;> (cases hstep; exact absurd rfl hne)
    · cases hstep
  | commitLink p =>
    rw [step] at hstep
    split at hstep
    · rename_i link base linkedAt hcall
      cases hstep
      have hheld : Held fl s.history link := h.held p link (by rw [hcall]; rfl)
      unfold State.commitLink at hne ⊢
      split_ifs at hne ⊢ with hrefused
      · exact absurd rfl hne
      · obtain ⟨rfl, a, hchat, hchange⟩ := chatOf_modify rfl hne
        rw [hchat]
        change pick base.telegramChatId (some link.chatId) a.telegramChatId ≠ _ at hchange
        change Explained fl s link.userId _ (pick base.telegramChatId (some link.chatId) a.telegramChatId)
        rcases pick_cases base.telegramChatId (some link.chatId) a.telegramChatId with ⟨-, hpick⟩ | ⟨-, hpick⟩
        · exact absurd hpick hchange
        · rw [hpick]
          obtain ⟨expiresAt, time, hissued, hpresented, htime⟩ := hheld.issued
          exact .link hcall rfl hheld.token hissued hpresented htime hheld.unused hheld.ne hheld.sent
    · cases hstep

theorem Inv.sound (h : Inv fl s) : Sound I fl s where
  handled := h.handled
  explained _ _ _ hstep hne := explained_step h hstep hne
  once := h.once
  distinct := h.distinct

end Steps

/-! ## The result -/

/-- A server that starts. -/
structure Initial (s : State F) : Prop where
  history : s.history = []
  tokens : s.tokens = []
  calls : ∀ p, s.calls p = .idle
  distinct : Distinct s.users

theorem Initial.inv {fl : Floats F} {s : State F} (h : Initial s) : Inv fl s where
  handled := by
    rw [h.history]
    exact List.not_mem_nil
  once := by
    rw [h.history]
    exact List.nodup_nil
  distinct := h.distinct
  stored token entry hentry := by
    rw [h.tokens] at hentry
    cases hentry
  held p link hlink := by
    rw [h.calls] at hlink
    cases hlink
  alone p q link link' hlink := by
    rw [h.calls] at hlink
    cases hlink
  issued token htoken := by
    rw [h.history] at htoken
    cases htoken

/-- **Linking is sound** in runs whose steps meet the condition. -/
theorem links_sound_of_runs {I : Interpreter F} {fl : Floats F} {s₀ s : State F} (hinit : Initial s₀)
    (hruns : Runs (step I fl) (Condition I fl) s₀ s) : Sound I fl s :=
  (hruns.invariant (fun _ _ _ h hcond hstep => inv_step h hcond hstep) hinit.inv).sound

/-- A server with one user. -/
def exampleState : State Unit where
  now := 0
  users := Table.empty.insert 0 ⟨none, none⟩
  tokens := []
  calls := fun _ => .idle
  history := []

theorem initial_exampleState : Initial exampleState where
  history := rfl
  tokens := rfl
  calls _ := rfl
  distinct := by
    have hone : ∀ u a, exampleState.users.get u = some a → u = 0 := by
      intro u a hu
      by_contra hne
      rw [exampleState, Table.get_insert_of_ne _ hne] at hu
      cases hu
    intro u u' a a' c hu hu' _ _
    rw [hone u a hu, hone u' a' hu']

/-- The message of a chat that presents the token `t`. -/
def exampleBody : List Char := "\x7b\"message\":\x7b\"text\":\"/start t\",\"chat\":\x7b\"id\":7\x7d\x7d\x7d".toList

def exampleMessage : Dict Unit := [(codes "text", .str (codes "/start t")), (codes "chat", .dict [(codes "id", .int 7)])]

def exampleData : Dict Unit := [(codes "message", .dict exampleMessage)]

theorem objectOf_exampleBody : objectOf noFloat exampleBody = some exampleData := by
  have hbody : exampleBody = ['\x7b', '"', 'm', 'e', 's', 's', 'a', 'g', 'e', '"', ':', '\x7b', '"', 't', 'e', 'x', 't',
      '"', ':', '"', '/', 's', 't', 'a', 'r', 't', ' ', 't', '"', ',', '"', 'c', 'h', 'a', 't', '"', ':', '\x7b', '"',
      'i', 'd', '"', ':', '7', '\x7d', '\x7d', '\x7d'] := by decide +kernel
  have hmessage : codes "message" = [109, 101, 115, 115, 97, 103, 101] := by decide +kernel
  have htext : codes "text" = [116, 101, 120, 116] := by decide +kernel
  have hstart : codes "/start t" = [47, 115, 116, 97, 114, 116, 32, 116] := by decide +kernel
  have hchat : codes "chat" = [99, 104, 97, 116] := by decide +kernel
  have hid : codes "id" = [105, 100] := by decide +kernel
  rw [hbody, exampleData, exampleMessage, hmessage, htext, hstart, hchat, hid]
  rfl

theorem message_exampleData : message exampleData = exampleMessage := by
  rw [message, exampleData, get?_cons, if_pos rfl]

theorem chat_exampleMessage : get? exampleMessage (codes "chat") = some (.dict [(codes "id", .int 7)]) := by
  have hne : codes "text" ≠ codes "chat" := by decide +kernel
  rw [exampleMessage, get?_cons, if_neg hne, get?_cons, if_pos rfl]

theorem readable_exampleData : Readable noFloats exampleData where
  object v hv _ := by
    rw [exampleData, get?_cons, if_pos rfl] at hv
    cases hv
    exact ⟨_, rfl⟩
  string v hv _ := by
    rw [message_exampleData, exampleMessage, get?_cons, if_pos rfl] at hv
    cases hv
    exact ⟨_, rfl⟩
  chatObject v hv := by
    rw [message_exampleData, chat_exampleMessage] at hv
    cases hv
    exact ⟨_, rfl⟩

theorem linkable_exampleData : Linkable noFloats exampleData := by
  refine ⟨codes "7", ⟨[(codes "id", .int 7)], .int 7, ?_, ?_, (nomatch ·), ?_⟩, ?_, ?_⟩
  · rw [message_exampleData, chat_exampleMessage]
  · rw [get?_cons, if_pos rfl]
  all_goals decide +kernel

/-- The actions of a run in which the body of the only message is the one above. -/
def exampleGuard (s : State Unit) : Action → Bool
  | .receive _ body => decide (body = exampleBody)
  | .commitLink p =>
    match s.calls p with
    | .linking link _ _ => !takenByOther s.users link.userId link.chatId
    | _ => true
  | _ => true

theorem condition_of_exampleGuard {s : State Unit} {a : Action} (h : exampleGuard s a = true) :
    Condition noFloat noFloats s a := by
  cases a with
  | receive p body =>
    obtain rfl : body = exampleBody := of_decide_eq_true h
    exact ⟨exampleData, objectOf_exampleBody, readable_exampleData, fun _ _ _ => linkable_exampleData⟩
  | commitLink p =>
    intro link base linkedAt hcall _
    rw [exampleGuard, hcall] at h
    exact Bool.eq_false_of_not_eq_true' h
  | _ => trivial

theorem links_sound_of_runs_linked :
    ∃ s, Runs (step noFloat noFloats) (Condition noFloat noFloats) exampleState s ∧ s.chatOf 0 = some (codes "7") ∧
      Sound noFloat noFloats s := by
  obtain ⟨s, hruns, hchat⟩ := exists_runs_of_exec (G := fun s a => exampleGuard s a = true) (step noFloat noFloats)
    exampleState [.start 0 (codes "t"), .receive 0 exampleBody, .select 0, .commitLink 0]
    (p := fun s => decide (s.chatOf 0 = some (codes "7"))) (by decide +kernel)
  have hcond := hruns.mono fun _ _ h => condition_of_exampleGuard h
  exact ⟨s, hcond, of_decide_eq_true hchat, links_sound_of_runs initial_exampleState hcond⟩

/-- The body of an action is an object. -/
def Action.hasObject (I : Interpreter F) : Action → Bool
  | .receive _ body => (objectOf I body).isSome
  | _ => true

theorem null_chat_raises :
    ¬∀ (I : Interpreter Unit) (fl : Floats Unit) (s₀ s : State Unit), Initial s₀ →
      Runs (step I fl) (fun _ a => a.hasObject I = true) s₀ s → Sound I fl s := by
  intro h
  obtain ⟨s, hruns, hraised⟩ := exists_runs_of_exec (G := fun _ a => a.hasObject noFloat = true) (step noFloat noFloats)
    exampleState [.receive 0 "\x7b\"message\":\x7b\"text\":\"hello\",\"chat\":null\x7d\x7d".toList]
    (p := fun s => decide (.raised ∈ s.history)) (by decide +kernel)
  exact (h noFloat noFloats exampleState s initial_exampleState hruns).handled (of_decide_eq_true hraised)

end AssetInventory.TelegramLinks
