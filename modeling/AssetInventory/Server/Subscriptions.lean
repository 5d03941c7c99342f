import AssetInventory.Lib.PyValues
import AssetInventory.Lib.Run
import Mathlib.Data.Finset.Erase
import Mathlib.Data.Finset.Insert

/-!
# The channels of a WebSocket

A client sends frames, and the server subscribes its connection to channels.  What it has subscribed to it keeps in a
set of its own.

* `State`, `Action`, `step`: the task that reads the frames, cut where it waits for a call to return.
* `Sound`: the subscriptions are the set, the set has the two channels that every client gets and otherwise only those
  that everybody may hear, and frames are read on.
* `acceptable`: frames that raise no exception but that of a text that is not a document.
* `channels_sound_of_runs`: a connection that gets acceptable frames is sound.
-/

namespace AssetInventory.Ws

open PyLoads PyDict Interleaving

variable {F : Type}

/-! ## Channels -/

/-- `machine:events`. -/
def machineEvents : Str := codes "machine:events"

/-- `notification:broadcast`. -/
def broadcast : Str := codes "notification:broadcast"

/-- `notification:user:{user_id}`. -/
def notificationChannel (userId : String) : Str := codes "notification:user:" ++ codes userId

/-- The channels that a client may subscribe to. -/
def whitelisted (userId : String) (ch : Str) : Bool :=
  startsWith "machine:" ch || decide (ch = broadcast) || decide (ch = notificationChannel userId)

/-! ## The system -/

/-- Where `reader_task` stands. -/
inductive Reader (F : Type) where
  /-- Before `receive_text`. -/
  | waiting
  /-- In the loop of a `subscribe`, before its next item. -/
  | subscribing (newChs : List (Value F))
  /-- In `pubsub.subscribe(ch)`. -/
  | inSubscribe (ch : Str) (newChs : List (Value F))
  /-- In the loop of an `unsubscribe`, before its next item. -/
  | unsubscribing (rmChs : List (Value F))
  /-- In `pubsub.unsubscribe(ch)`. -/
  | inUnsubscribe (ch : Str) (rmChs : List (Value F))
  /-- The client has disconnected. -/
  | disconnected
  /-- Another exception has been caught. -/
  | stopped

/-- A connection. -/
structure State (F : Type) where
  /-- What it is subscribed to on Redis. -/
  subscribed : Finset Str
  channels : Finset Str
  reader : Reader F

/-- The steps of `reader_task`. -/
inductive Action where
  | frame (raw : List Char)
  | disconnect
  /-- The next item of a loop, or its end. -/
  | next
  /-- A call returns. -/
  | returned

/-- The connection when `reader_task` starts. -/
def websocketStatus (userId : String) : State F :=
  let channels := {machineEvents, notificationChannel userId}
  ⟨channels, channels, .waiting⟩

section Frames

variable (I : Interpreter F) (fl : Floats F)

/-- What `for ch in msg.get("channels") or []` goes through; `none` is a `TypeError`. -/
def channelsOf (msg : List (Str × Value F)) : Option (List (Value F)) :=
  let channels := getD msg "channels" .none
  if channels.truthy fl then channels.items else some []

/-- `msg.get("type") == mtype`. -/
def hasType (msg : List (Str × Value F)) (mtype : String) : Bool :=
  match getD msg "type" .none with
  | .str s => decide (s = codes mtype)
  | _ => false

/-- What becomes of a frame.  The answer to a ping is left out. -/
def handle (raw : List Char) : Reader F :=
  match loads I raw with
  | .error .jsonDecode => .waiting
  | .error _ => .stopped
  | .ok value =>
    match value.asDict with
    | none => .stopped
    | some msg =>
      if hasType msg "ping" then .waiting
      else if hasType msg "subscribe" then ((channelsOf fl msg).map .subscribing).getD .stopped
      else if hasType msg "unsubscribe" then ((channelsOf fl msg).map .unsubscribing).getD .stopped
      else .waiting

end Frames

/-- The step to the next item of a `subscribe`. -/
def subscribeNext (userId : String) (channels : Finset Str) : List (Value F) → Reader F
  | [] => .waiting
  | .str ch :: newChs =>
    if ch ∉ channels ∧ whitelisted userId ch = true then
      -- the name of the channel is encoded
      if encodable ch then .inSubscribe ch newChs else .stopped
    else .subscribing newChs
  | _ :: newChs => .subscribing newChs

/-- The step to the next item of an `unsubscribe`. -/
def unsubscribeNext (userId : String) (channels : Finset Str) : List (Value F) → Reader F
  | [] => .waiting
  | .str ch :: rmChs =>
    if ch ∈ channels ∧ ch ≠ machineEvents ∧ ch ≠ notificationChannel userId then
      if encodable ch then .inUnsubscribe ch rmChs else .stopped
    else .unsubscribing rmChs
  -- a value of another type is not in the set, and cannot be looked up in it if it is not hashable
  | v :: rmChs => if v.hashable then .unsubscribing rmChs else .stopped

/-- The steps.  The connection is subscribed when the call has returned, and unsubscribed likewise. -/
def step (I : Interpreter F) (fl : Floats F) (userId : String) (s : State F) : Action → Option (State F)
  | .frame raw =>
    match s.reader with
    | .waiting => some { s with reader := handle I fl raw }
    | _ => none
  | .disconnect =>
    match s.reader with
    | .waiting => some { s with reader := .disconnected }
    | _ => none
  | .next =>
    match s.reader with
    | .subscribing newChs => some { s with reader := subscribeNext userId s.channels newChs }
    | .unsubscribing rmChs => some { s with reader := unsubscribeNext userId s.channels rmChs }
    | _ => none
  | .returned =>
    match s.reader with
    | .inSubscribe ch newChs => some ⟨insert ch s.subscribed, insert ch s.channels, .subscribing newChs⟩
    | .inUnsubscribe ch rmChs => some ⟨s.subscribed.erase ch, s.channels.erase ch, .unsubscribing rmChs⟩
    | _ => none

/-! ## What is expected -/

/-- The steps that `reader_task` takes by itself. -/
def Action.isOwn : Action → Bool
  | .next => true
  | .returned => true
  | _ => false

/-- **Subscriptions are confined, and frames are read on.** -/
structure Sound (I : Interpreter F) (fl : Floats F) (userId : String) (s : State F) : Prop where
  agree : s.subscribed = s.channels
  machines : machineEvents ∈ s.subscribed
  own : notificationChannel userId ∈ s.subscribed
  others : ∀ ch ∈ s.subscribed, ch ≠ notificationChannel userId → startsWith "machine:" ch = true ∨ ch = broadcast
  foreign : ∀ userId', userId' ≠ userId → notificationChannel userId' ∉ s.subscribed
  /-- No exception ends the loop, which comes to the next frame by itself. -/
  reads : s.reader = .disconnected ∨
    ∃ t, Runs (step I fl userId) (fun _ a => a.isOwn = true) s t ∧ t.reader = .waiting

/-! ## The condition -/

/-- A name that can be sent to Redis if it is one of a channel of machines. -/
def sendable : Value F → Bool
  | .str ch => !startsWith "machine:" ch || encodable ch
  | _ => true

/-- **The condition on a frame**: it is not a document, or an object; the channels of a subscription can be gone through
and be sent, those of an unsubscription can be gone through and be looked up. -/
def acceptable (I : Interpreter F) (fl : Floats F) (raw : List Char) : Bool :=
  match loads I raw with
  | .error error => decide (error = .jsonDecode)
  | .ok value =>
    value.asDict.any fun msg =>
      (!hasType msg "subscribe" || (channelsOf fl msg).any fun newChs => newChs.all sendable) &&
        (!hasType msg "unsubscribe" || (channelsOf fl msg).any fun rmChs => rmChs.all Value.hashable)

/-- The condition on a step. -/
def Condition (I : Interpreter F) (fl : Floats F) : State F → Action → Prop
  | _, .frame raw => acceptable I fl raw = true
  | _, _ => True

instance (I : Interpreter F) (fl : Floats F) : ∀ (s : State F) (a : Action), Decidable (Condition I fl s a)
  | _, .frame raw => inferInstanceAs (Decidable (acceptable I fl raw = true))
  | _, .disconnect => isTrue trivial
  | _, .next => isTrue trivial
  | _, .returned => isTrue trivial

/-! ## Names of channels -/

section Names

variable {userId : String} {ch : Str}

theorem whitelisted_iff :
    whitelisted userId ch = true ↔ startsWith "machine:" ch = true ∨ ch = broadcast ∨ ch = notificationChannel userId := by
  unfold whitelisted
  rw [Bool.or_eq_true, Bool.or_eq_true, decide_eq_true_eq, decide_eq_true_eq, or_assoc]

theorem encodable_notificationChannel (userId : String) : encodable (notificationChannel userId) = true := by
  rw [notificationChannel, encodable_append, encodable_codes, encodable_codes, Bool.and_self]

theorem encodable_of_whitelisted (h : whitelisted userId ch = true) (hsend : sendable (.str ch : Value F) = true) :
    encodable ch = true := by
  rcases whitelisted_iff.mp h with hmachine | rfl | rfl
  · rw [sendable, hmachine, Bool.not_true, Bool.false_or] at hsend
    exact hsend
  · exact encodable_codes _
  · exact encodable_notificationChannel userId

theorem notificationChannel_eq (userId : String) :
    notificationChannel userId = codes "notification:" ++ (codes "user:" ++ codes userId) := by
  have hsplit : codes "notification:user:" = codes "notification:" ++ codes "user:" := by decide +kernel
  rw [notificationChannel, hsplit, List.append_assoc]

theorem notificationChannel_injective : Function.Injective notificationChannel := fun _ _ h =>
  codes_injective (List.append_cancel_left h)

theorem notificationChannel_ne_broadcast : notificationChannel userId ≠ broadcast := by
  have hsplit : broadcast = codes "notification:" ++ codes "broadcast" := by decide +kernel
  have huser : (codes "user:" ++ codes userId).head? = some 117 := by
    rw [show codes "user:" = [117, 115, 101, 114, 58] by decide +kernel]
    rfl
  have hbroadcast : (codes "broadcast").head? = some 98 := by decide +kernel
  rw [notificationChannel_eq, hsplit]
  intro h
  rw [List.append_cancel_left h, hbroadcast] at huser
  cases huser

theorem notificationChannel_not_machine : startsWith "machine:" (notificationChannel userId) = false := by
  have hsplit : codes "machine:" = 109 :: codes "achine:" := by decide +kernel
  have hother : codes "notification:" = 110 :: codes "otification:" := by decide +kernel
  rw [startsWith, notificationChannel_eq, hsplit, hother]
  rfl

theorem eq_of_whitelisted {userId' : String} (h : whitelisted userId (notificationChannel userId') = true) :
    userId' = userId := by
  rcases whitelisted_iff.mp h with hmachine | hbroadcast | hown
  · rw [notificationChannel_not_machine] at hmachine
    cases hmachine
  · exact absurd hbroadcast notificationChannel_ne_broadcast
  · exact notificationChannel_injective hown

end Names

/-! ## The invariant -/

/-- The work that is left for the reader raises no exception. -/
def Reader.Fits (userId : String) : Reader F → Prop
  | .waiting => True
  | .subscribing newChs => ∀ v ∈ newChs, sendable v = true
  | .inSubscribe ch newChs => whitelisted userId ch = true ∧ encodable ch = true ∧ ∀ v ∈ newChs, sendable v = true
  | .unsubscribing rmChs => ∀ v ∈ rmChs, v.hashable = true
  | .inUnsubscribe ch rmChs =>
    ch ≠ machineEvents ∧ ch ≠ notificationChannel userId ∧ ∀ v ∈ rmChs, v.hashable = true
  | .disconnected => True
  | .stopped => False

/-- **The invariant.** -/
structure Inv (userId : String) (s : State F) : Prop where
  agree : s.subscribed = s.channels
  machines : machineEvents ∈ s.channels
  own : notificationChannel userId ∈ s.channels
  allowed : ∀ ch ∈ s.channels, whitelisted userId ch = true ∧ encodable ch = true
  fits : s.reader.Fits userId

section Steps

variable {I : Interpreter F} {fl : Floats F} {userId : String} {s t : State F}

theorem inv_websocketStatus (userId : String) : Inv userId (websocketStatus userId : State F) where
  agree := rfl
  machines := Finset.mem_insert_self _ _
  own := Finset.mem_insert_of_mem (Finset.mem_singleton_self _)
  allowed ch hch := by
    rcases Finset.mem_insert.mp hch with rfl | hown
    · have hmachine : startsWith "machine:" machineEvents = true := by decide +kernel
      exact ⟨whitelisted_iff.mpr (.inl hmachine), encodable_codes _⟩
    · obtain rfl := Finset.mem_singleton.mp hown
      exact ⟨whitelisted_iff.mpr (.inr (.inr rfl)), encodable_notificationChannel userId⟩
  fits := trivial

theorem Inv.goTo (h : Inv userId s) {reader : Reader F} (hfits : reader.Fits userId) :
    Inv userId { s with reader := reader } := { h with fits := hfits }

theorem fits_handle {raw : List Char} (h : acceptable I fl raw = true) : (handle I fl raw).Fits userId := by
  unfold acceptable at h
  unfold handle
  cases hloads : loads I raw with
  | error error =>
    rw [hloads] at h
    obtain rfl := of_decide_eq_true h
    trivial
  | ok value =>
    rw [hloads] at h
    dsimp only at h ⊢
    rw [Option.any_eq_true] at h
    obtain ⟨msg, hmsg, h⟩ := h
    rw [Bool.and_eq_true] at h
    rw [hmsg]
    dsimp only
    split_ifs with hping hsubscribe hunsubscribe
    · trivial
    · rw [hsubscribe, Bool.not_true, Bool.false_or, Option.any_eq_true] at h
      obtain ⟨newChs, hnewChs, hall⟩ := h.1
      rw [hnewChs]
      exact List.all_eq_true.mp hall
    · rw [hunsubscribe, Bool.not_true, Bool.false_or, Option.any_eq_true] at h
      obtain ⟨rmChs, hrmChs, hall⟩ := h.2
      rw [hrmChs]
      exact List.all_eq_true.mp hall
    · trivial

theorem fits_subscribeNext {channels : Finset Str} {newChs : List (Value F)} (h : ∀ v ∈ newChs, sendable v = true) :
    (subscribeNext userId channels newChs).Fits userId := by
  cases newChs with
  | nil => trivial
  | cons v newChs =>
    have hrest : ∀ v ∈ newChs, sendable v = true := fun v hv => h v (List.mem_cons_of_mem _ hv)
    cases v with
    | str ch =>
      unfold subscribeNext
      dsimp only
      split_ifs with hnew hencodable
      · exact ⟨hnew.2, hencodable, hrest⟩
      · exact hencodable (encodable_of_whitelisted hnew.2 (h _ List.mem_cons_self))
      · exact hrest
    | _ => exact hrest

theorem fits_unsubscribeNext {channels : Finset Str} (hchannels : ∀ ch ∈ channels, encodable ch = true)
    {rmChs : List (Value F)} (h : ∀ v ∈ rmChs, v.hashable = true) :
    (unsubscribeNext userId channels rmChs).Fits userId := by
  cases rmChs with
  | nil => trivial
  | cons v rmChs =>
    have hself : v.hashable = true := h v List.mem_cons_self
    have hrest : ∀ v ∈ rmChs, v.hashable = true := fun v hv => h v (List.mem_cons_of_mem _ hv)
    cases v with
    | str ch =>
      unfold unsubscribeNext
      dsimp only
      split_ifs with hold hencodable
      · exact ⟨hold.2.1, hold.2.2, hrest⟩
      · exact hencodable (hchannels ch hold.1)
      · exact hrest
    | list xs => cases hself
    | dict entries => cases hself
    | _ => exact hrest

/-- **A step keeps the invariant.** -/
theorem inv_step {a : Action} (h : Inv userId s) (hcond : Condition I fl s a) (hstep : step I fl userId s a = some t) :
    Inv userId t := by
  have hfits := h.fits
  cases a with
  | frame raw =>
    rw [step] at hstep
    split at hstep <;> cases hstep
    exact h.goTo (fits_handle hcond)
  | disconnect =>
    rw [step] at hstep
    split at hstep <;> cases hstep
    exact h.goTo trivial
  | next =>
    rw [step] at hstep
    split at hstep
    · rename_i newChs hreader
      cases hstep
      rw [hreader] at hfits
      exact h.goTo (fits_subscribeNext hfits)
    · rename_i rmChs hreader
      cases hstep
      rw [hreader] at hfits
      exact h.goTo (fits_unsubscribeNext (fun ch hch => (h.allowed ch hch).2) hfits)
    · cases hstep
  | returned =>
    rw [step] at hstep
    split at hstep
    · rename_i ch newChs hreader
      cases hstep
      rw [hreader] at hfits
      obtain ⟨hwhitelisted, hencodable, hrest⟩ := hfits
      exact
        { agree := by rw [h.agree]
          machines := Finset.mem_insert_of_mem h.machines
          own := Finset.mem_insert_of_mem h.own
          allowed := fun c hc => by
            rcases Finset.mem_insert.mp hc with rfl | hc
            · exact ⟨hwhitelisted, hencodable⟩
            · exact h.allowed c hc
          fits := hrest }
    · rename_i ch rmChs hreader
      cases hstep
      rw [hreader] at hfits
      obtain ⟨hmachines, hown, hrest⟩ := hfits
      exact
        { agree := by rw [h.agree]
          machines := Finset.mem_erase.mpr ⟨hmachines.symm, h.machines⟩
          own := Finset.mem_erase.mpr ⟨hown.symm, h.own⟩
          allowed := fun c hc => h.allowed c (Finset.mem_of_mem_erase hc)
          fits := hrest }
    · cases hstep

/-! ## Frames are read on -/

/-- The steps that the reader still takes before it waits. -/
def Reader.work : Reader F → ℕ
  | .subscribing newChs => 2 * newChs.length + 1
  | .inSubscribe _ newChs => 2 * newChs.length + 2
  | .unsubscribing rmChs => 2 * rmChs.length + 1
  | .inUnsubscribe _ rmChs => 2 * rmChs.length + 2
  | _ => 0

theorem subscribeNext_cons (userId : String) (channels : Finset Str) (v : Value F) (newChs : List (Value F)) :
    (∃ ch, subscribeNext userId channels (v :: newChs) = .inSubscribe ch newChs) ∨
      subscribeNext userId channels (v :: newChs) = .subscribing newChs ∨
      subscribeNext userId channels (v :: newChs) = .stopped := by
  cases v with
  | str ch =>
    unfold subscribeNext
    dsimp only
    split_ifs
    · exact .inl ⟨ch, rfl⟩
    · exact .inr (.inr rfl)
    · exact .inr (.inl rfl)
  | _ => exact .inr (.inl rfl)

theorem unsubscribeNext_cons (userId : String) (channels : Finset Str) (v : Value F) (rmChs : List (Value F)) :
    (∃ ch, unsubscribeNext userId channels (v :: rmChs) = .inUnsubscribe ch rmChs) ∨
      unsubscribeNext userId channels (v :: rmChs) = .unsubscribing rmChs ∨
      unsubscribeNext userId channels (v :: rmChs) = .stopped := by
  cases v with
  | str ch =>
    unfold unsubscribeNext
    dsimp only
    split_ifs
    · exact .inl ⟨ch, rfl⟩
    · exact .inr (.inr rfl)
    · exact .inr (.inl rfl)
  | list xs => exact .inr (.inr rfl)
  | dict entries => exact .inr (.inr rfl)
  | _ => exact .inr (.inl rfl)

theorem condition_of_isOwn {a : Action} (h : a.isOwn = true) : Condition I fl s a := by
  cases a with
  | frame raw => cases h
  | _ => trivial

/-- The reader takes a step of its own, to the reader of `t`. -/
def Advances (I : Interpreter F) (fl : Floats F) (userId : String) (s : State F) (reader : Reader F) : Prop :=
  ∃ a t, a.isOwn = true ∧ step I fl userId s a = some t ∧ t.reader = reader

theorem exists_advances (I : Interpreter F) (fl : Floats F) (hreader : s.reader ≠ .disconnected)
    (hfits : s.reader.Fits userId) :
    s.reader = .waiting ∨ ∃ reader, Advances I fl userId s reader ∧ reader ≠ .disconnected ∧
      reader.work < s.reader.work := by
  cases hs : s.reader with
  | waiting => exact .inl rfl
  | subscribing newChs =>
    have hnext : Advances I fl userId s (subscribeNext userId s.channels newChs) :=
      ⟨.next, _, rfl, by rw [step, hs], rfl⟩
    refine .inr ⟨_, hnext, ?_⟩
    cases newChs with
    | nil => exact ⟨nofun, Nat.zero_lt_one⟩
    | cons v newChs =>
      rcases subscribeNext_cons userId s.channels v newChs with ⟨ch, h⟩ | h | h <;>
        (rw [h]; refine ⟨nofun, ?_⟩; simp only [Reader.work, List.length_cons]; omega)
  | inSubscribe ch newChs =>
    have hreturned : Advances I fl userId s (.subscribing newChs) := ⟨.returned, _, rfl, by rw [step, hs], rfl⟩
    exact .inr ⟨_, hreturned, nofun, Nat.lt_succ_self _⟩
  | unsubscribing rmChs =>
    have hnext : Advances I fl userId s (unsubscribeNext userId s.channels rmChs) :=
      ⟨.next, _, rfl, by rw [step, hs], rfl⟩
    refine .inr ⟨_, hnext, ?_⟩
    cases rmChs with
    | nil => exact ⟨nofun, Nat.zero_lt_one⟩
    | cons v rmChs =>
      rcases unsubscribeNext_cons userId s.channels v rmChs with ⟨ch, h⟩ | h | h <;>
        (rw [h]; refine ⟨nofun, ?_⟩; simp only [Reader.work, List.length_cons]; omega)
  | inUnsubscribe ch rmChs =>
    have hreturned : Advances I fl userId s (.unsubscribing rmChs) := ⟨.returned, _, rfl, by rw [step, hs], rfl⟩
    exact .inr ⟨_, hreturned, nofun, Nat.lt_succ_self _⟩
  | disconnected => exact absurd hs hreader
  | stopped =>
    rw [hs] at hfits
    exact hfits.elim

/-- **The reader comes to the next frame.** -/
theorem exists_runs_waiting (h : Inv userId s) (hreader : s.reader ≠ .disconnected) :
    ∃ t, Runs (step I fl userId) (fun _ a => a.isOwn = true) s t ∧ t.reader = .waiting := by
  refine exists_runs_of_measure (I := fun s => Inv userId s ∧ s.reader ≠ .disconnected) (fun s => s.reader.work) ?_
    ⟨h, hreader⟩
  rintro s ⟨h, hreader⟩
  rcases exists_advances I fl hreader h.fits with hwaiting | ⟨_, ⟨a, t, ha, hstep, rfl⟩, hne, hlt⟩
  · exact .inl hwaiting
  · exact .inr ⟨a, t, ha, hstep, ⟨inv_step h (condition_of_isOwn ha) hstep, hne⟩, hlt⟩

theorem Inv.sound (h : Inv userId s) : Sound I fl userId s where
  agree := h.agree
  machines := h.agree ▸ h.machines
  own := h.agree ▸ h.own
  others ch hch hne := by
    rw [h.agree] at hch
    rcases whitelisted_iff.mp (h.allowed ch hch).1 with hmachine | hbroadcast | hown
    · exact .inl hmachine
    · exact .inr hbroadcast
    · exact absurd hown hne
  foreign userId' hne hmem := by
    rw [h.agree] at hmem
    exact hne (eq_of_whitelisted (h.allowed _ hmem).1)
  reads := by
    by_cases hreader : s.reader = .disconnected
    · exact .inl hreader
    · exact .inr (exists_runs_waiting h hreader)

/-- **Connections are sound** in runs whose frames are acceptable. -/
theorem channels_sound_of_runs (hruns : Runs (step I fl userId) (Condition I fl) (websocketStatus userId) s) :
    Sound I fl userId s :=
  (hruns.invariant (fun _ _ _ h hcond hstep => inv_step h hcond hstep) (inv_websocketStatus userId)).sound

theorem stopped_of_runs {G : State F → Action → Prop} (h : Runs (step I fl userId) G s t) (hs : s.reader = .stopped) :
    t.reader = .stopped := by
  refine h.invariant (I := fun s => s.reader = .stopped) (fun s a t hs _ hstep => ?_) hs
  cases a <;> (rw [step, hs] at hstep; cases hstep)

end Steps

theorem channels_sound_of_runs_subscribed :
    ∃ s : State Unit, Runs (step noFloat noFloats "7") (Condition noFloat noFloats) (websocketStatus "7") s ∧
      codes "machine:lost" ∈ s.subscribed ∧ Sound noFloat noFloats "7" s := by
  obtain ⟨s, hruns, hmem⟩ := exists_runs_of_exec (G := Condition noFloat noFloats) (step noFloat noFloats "7")
    (websocketStatus "7")
    [.frame "\x7b\"type\":\"subscribe\",\"channels\":[3,\"machine:lost\"]\x7d".toList, .next, .next, .returned, .next]
    (p := fun s => decide (codes "machine:lost" ∈ s.subscribed)) (by decide +kernel)
  exact ⟨s, hruns, of_decide_eq_true hmem, channels_sound_of_runs hruns⟩

theorem array_stops :
    ¬∀ (I : Interpreter Unit) (fl : Floats Unit) (userId : String) (s : State Unit),
      Runs (step I fl userId) anyAction (websocketStatus userId) s → Sound I fl userId s := by
  intro h
  have hstep : step noFloat noFloats "7" (websocketStatus "7") (.frame ['[', ']']) =
      some { (websocketStatus "7" : State Unit) with reader := .stopped } := rfl
  rcases (h noFloat noFloats "7" _ (.single _ trivial hstep)).reads with hdisconnected | ⟨t, hruns, hwaiting⟩
  · cases hdisconnected
  · rw [stopped_of_runs hruns rfl] at hwaiting
    cases hwaiting

end AssetInventory.Ws
