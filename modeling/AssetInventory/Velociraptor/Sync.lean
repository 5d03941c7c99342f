import AssetInventory.Lib.PyDict
import AssetInventory.Lib.PyText
import AssetInventory.Lib.Upsert
import AssetInventory.Server.Database
import Mathlib.Data.Int.ConditionallyCompleteOrder
import Mathlib.Data.String.Basic
import Mathlib.Data.Sum.Order

/-!
# The links between machines and clients

Every few minutes the clients of the Velociraptor server are matched with the machines by their host names, and the
links are upserted on the machine.

* `syncVelociraptorLinks`: the synchronisation, from the list of the clients on.
* `LinksInSync`: it goes through, and the machines are linked to the newest clients of their names.
* `Syncable`: the values of `last_seen_at` can be compared, the machines want different clients, and a client that is
  taken is given up in time.
* `linksInSync_iff`: the first holds exactly when the second does.
-/

namespace AssetInventory.Velociraptor

open PyJson PyTime PyDict RowStore Server

/-! ## The clients -/

/-- A value of `last_seen_at`. -/
inductive LastSeen where
  | number (q : ℚ)
  | text (s : String)
  deriving DecidableEq

structure OsInfo where
  hostname : Option String
  others : List (String × Json)
  deriving DecidableEq

/-- A row that the query over `clients()` answers. -/
structure ClientRow where
  clientId : Option String
  hostname : Option String
  lastSeenAt : Option LastSeen
  osInfo : Option OsInfo
  deriving DecidableEq

/-- `c.get("last_seen_at") or ""`. -/
def ClientRow.seen (c : ClientRow) : LastSeen :=
  match c.lastSeenAt with
  | some (.number q) => if q = 0 then .text "" else .number q
  | some (.text s) => .text s
  | none => .text ""

/-- `a > b`; `none` is a `TypeError`. -/
def LastSeen.gt? : LastSeen → LastSeen → Option Bool
  | .number q, .number p => some (decide (p < q))
  | .text s, .text t => some (decide (t < s))
  | _, _ => none

/-- What the synchronisation may raise. -/
inductive SyncExc where
  | typeError | integrityError
  deriving DecidableEq

section Sync

variable (lower : String → String)

/-- `normalize_hostname`, with a parameter for `str.lower`. -/
def normalizeHostname (hostname : Option String) : String :=
  match given hostname with
  | none => ""
  | some hostname =>
    let h := lower (strip hostname)
    if h = "" then "" else (split '.' h).headD ""

/-- One round of the loop that builds `by_hostname`. -/
def hostnameStep (byHostname : List (String × ClientRow)) (c : ClientRow) :
    Except SyncExc (List (String × ClientRow)) :=
  let hostname := normalizeHostname lower c.hostname
  if hostname = "" then .ok byHostname
  else if given c.clientId = none then .ok byHostname
  else
    match get? byHostname hostname with
    | none => .ok (setItem hostname c byHostname)
    | some existing =>
      match c.seen.gt? existing.seen with
      | none => .error .typeError
      | some later => .ok (if later then setItem hostname c byHostname else byHostname)

def byHostname (clients : List ClientRow) : Except SyncExc (List (String × ClientRow)) :=
  clients.foldlM (hostnameStep lower) []

/-! ## The machines -/

/-- A row of `machines`. -/
structure MachineRow where
  id : Uuid
  hostname : Option String
  machineUuid : String
  enrolledAt : Time
  lastSeenAt : Option Time
  deriving DecidableEq

/-- The rows of `machines`, in the order in which the query returns them. -/
structure MachineRows where
  rows : List MachineRow
  nodup : (rows.map MachineRow.id).Nodup

/-- A value of `dedup`. -/
structure KeptMachine where
  id : Uuid
  hostname : String
  ts : Option Time
  deriving DecidableEq

/-- `ts is not None and (cur is None or ts > cur)`. -/
def laterThan (ts cur : Option Time) : Bool :=
  match ts, cur with
  | none, _ => false
  | some _, none => true
  | some ts, some cur => decide (cur < ts)

/-- One round of the loop that builds `dedup`, for a row that the query selects. -/
def dedupStep (dedup : List (String × KeptMachine)) (row : MachineRow) : List (String × KeptMachine) :=
  match given row.hostname with
  | none => dedup
  | some hostname =>
    let norm := normalizeHostname lower (some hostname)
    if norm = "" then dedup
    else
      let ts := row.lastSeenAt.or (some row.enrolledAt)
      let key := if row.machineUuid ≠ "" then row.machineUuid else "host:" ++ norm
      match get? dedup key with
      | none => setItem key ⟨row.id, hostname, ts⟩ dedup
      | some cur => if laterThan ts cur.ts then setItem key ⟨row.id, hostname, ts⟩ dedup else dedup

def dedup (machines : MachineRows) : List (String × KeptMachine) := machines.rows.foldl (dedupStep lower) []

/-- The machines that the deduplication keeps, in the order of the loop over them. -/
def keptMachines (machines : MachineRows) : List KeptMachine := (dedup lower machines).map Prod.snd

/-! ## The links -/

/-- A row of `velociraptor_links`, beside its `machine_id`. -/
structure LinkRow where
  clientId : String
  hostname : String
  osInfo : OsInfo
  lastSeenAt : Option Time
  syncedAt : Time
  deriving DecidableEq

/-- `velociraptor_links`: the primary key is the machine, and `client_id` is unique. -/
abbrev LinkTable := UniqueTable Uuid LinkRow LinkRow.clientId

variable (timeOf : String → Option Time) (now : Time)

/-- `datetime.fromisoformat(last_seen_raw)`; the exceptions are caught. -/
def lastSeenTime : LastSeen → Option Time
  | .number _ => none
  | .text s => if s = "" then none else timeOf s

/-- The row that is upserted for a machine. -/
def linkRow (client : ClientRow) (m : KeptMachine) : LinkRow where
  clientId := client.clientId.getD ""
  hostname := (given (client.osInfo.bind OsInfo.hostname)).getD m.hostname
  osInfo := client.osInfo.getD ⟨none, []⟩
  lastSeenAt := lastSeenTime timeOf client.seen
  syncedAt := now

/-- One round of the loop of the upserts. -/
def linkStep (byHostname : List (String × ClientRow)) (st : LinkTable × ℕ) (m : KeptMachine) :
    Except SyncExc (LinkTable × ℕ) :=
  let norm := normalizeHostname lower (some m.hostname)
  if norm = "" then .ok st
  else
    match get? byHostname norm with
    | none => .ok st
    | some client =>
      match st.1.upsert m.id (linkRow timeOf now client m) with
      | none => .error .integrityError
      | some links => .ok (links, st.2 + 1)

/-- The body of the `try` block. -/
def syncBody (clients : List ClientRow) (machines : MachineRows) (links : LinkTable) :
    Except SyncExc (LinkTable × ℕ) := do
  let byHostname ← byHostname lower clients
  (keptMachines lower machines).foldlM (linkStep lower timeOf now byHostname) (links, 0)

inductive SyncAnswer where
  | linked (linked totalClients : ℕ)
  | error (exc : SyncExc)
  deriving DecidableEq

/-- `sync_velociraptor_links`, from the list of the clients on.  An exception rolls the links back. -/
def syncVelociraptorLinks (clients : List ClientRow) (machines : MachineRows) (links : LinkTable) :
    LinkTable × SyncAnswer :=
  match syncBody lower timeOf now clients machines links with
  | .ok (links', linked) => (links', .linked linked clients.length)
  | .error exc => (links, .error exc)

/-! ## What is expected -/

/-- The value is a number, not a text. -/
def LastSeen.isNumber : LastSeen → Bool
  | .number _ => true
  | .text _ => false

/-- The order of the numbers and that of the texts. -/
def LastSeen.rank : LastSeen → Lex (ℚ ⊕ String)
  | .number q => toLex (.inl q)
  | .text s => toLex (.inr s)

/-- The clients that have a name and an id. -/
def namedClients (clients : List ClientRow) : List (String × ClientRow) :=
  clients.filterMap fun c =>
    if normalizeHostname lower c.hostname = "" ∨ given c.clientId = none then none
    else some (normalizeHostname lower c.hostname, c)

/-- The clients of a name. -/
def clientsOf (clients : List ClientRow) (hostname : String) : List ClientRow :=
  valuesOf (namedClients lower clients) hostname

/-- The clients of the name of a machine. -/
def clientsFor (clients : List ClientRow) (m : KeptMachine) : List ClientRow :=
  clientsOf lower clients (normalizeHostname lower (some m.hostname))

/-- **What is expected of the synchronisation**: it ends without an exception, a machine that is kept and whose name
is that of a client is linked to a newest client of this name, and no client is linked to two machines. -/
structure LinksInSync (clients : List ClientRow) (machines : MachineRows) (links : LinkTable) : Prop where
  goesThrough : ∃ linked, (syncVelociraptorLinks lower timeOf now clients machines links).2 =
    .linked linked clients.length
  newest : ∀ m ∈ keptMachines lower machines, clientsFor lower clients m ≠ [] →
    ∃ c ∈ clientsFor lower clients m, (∀ c' ∈ clientsFor lower clients m, c'.seen.rank ≤ c.seen.rank) ∧
      ((syncVelociraptorLinks lower timeOf now clients machines links).1.rows.get m.id).map LinkRow.clientId =
        c.clientId
  single : ∀ m m' row row',
    (syncVelociraptorLinks lower timeOf now clients machines links).1.rows.get m = some row →
    (syncVelociraptorLinks lower timeOf now clients machines links).1.rows.get m' = some row' →
    row.clientId = row'.clientId → m = m'

/-- Clients of one name have numbers, or texts, for `last_seen_at`; nothing counts as the empty text. -/
def OneType (clients : List ClientRow) : Prop :=
  ∀ hostname, ∀ c ∈ clientsOf lower clients hostname, ∀ c' ∈ clientsOf lower clients hostname,
    c.seen.isNumber = c'.seen.isNumber

/-- The client that a machine is to be linked to: the first of the newest of its name. -/
def target (clients : List ClientRow) (m : KeptMachine) : Option ClientRow :=
  (clientsFor lower clients m).argmax fun c => c.seen.rank

/-- The links can be brought in sync: the values of `last_seen_at` can be compared, no two machines want the same
client, and a client that is linked to another machine is given up by that machine before it is wanted. -/
structure Syncable (clients : List ClientRow) (machines : MachineRows) (links : LinkTable) : Prop where
  oneType : OneType lower clients
  distinct : (keptMachines lower machines).Pairwise fun m m' => ∀ c, target lower clients m = some c →
    ∀ c', target lower clients m' = some c' → c.clientId ≠ c'.clientId
  earlier : ∀ front m back, keptMachines lower machines = front ++ m :: back →
    ∀ c, target lower clients m = some c → ∀ j row, links.rows.get j = some row →
      c.clientId = some row.clientId → j = m.id ∨ ∃ m' ∈ front, m'.id = j ∧ (target lower clients m').isSome

/-! ## The client of a name -/

section Clients

variable {lower}

theorem gt?_of_isNumber {a b : LastSeen} (h : a.isNumber = b.isNumber) :
    a.gt? b = some (decide (b.rank < a.rank)) := by
  cases a with
  | number q =>
    cases b with
    | number p =>
      refine congrArg some (decide_eq_decide.mpr ?_)
      exact Sum.Lex.inl_lt_inl_iff.symm
    | text t => cases h
  | text s =>
    cases b with
    | number p => cases h
    | text t =>
      refine congrArg some (decide_eq_decide.mpr ?_)
      exact Sum.Lex.inr_lt_inr_iff.symm

theorem gt?_of_ne {a b : LastSeen} (h : a.isNumber ≠ b.isNumber) : a.gt? b = none := by
  cases a with
  | number q =>
    cases b with
    | number p => exact absurd rfl h
    | text t => rfl
  | text s =>
    cases b with
    | number p => rfl
    | text t => exact absurd rfl h

theorem namedClients_concat (clients : List ClientRow) (c : ClientRow) :
    namedClients lower (clients ++ [c]) = namedClients lower clients ++
      if normalizeHostname lower c.hostname = "" ∨ given c.clientId = none then []
      else [(normalizeHostname lower c.hostname, c)] := by
  unfold namedClients
  rw [List.filterMap_append]
  split_ifs with hskip <;> simp only [List.filterMap_cons, if_pos, if_neg, hskip, List.filterMap_nil,
    not_false_eq_true]

variable {c : ClientRow}

theorem clientsOf_concat (clients : List ClientRow)
    (hskip : ¬(normalizeHostname lower c.hostname = "" ∨ given c.clientId = none)) (hostname : String) :
    clientsOf lower (clients ++ [c]) hostname = clientsOf lower clients hostname ++
      if normalizeHostname lower c.hostname = hostname then [c] else [] := by
  rw [clientsOf, namedClients_concat, if_neg hskip, valuesOf_concat]
  rfl

theorem oneType_concat_iff {clients : List ClientRow} (h : OneType lower clients)
    (hskip : ¬(normalizeHostname lower c.hostname = "" ∨ given c.clientId = none)) :
    OneType lower (clients ++ [c]) ↔
      ∀ c' ∈ clientsOf lower clients (normalizeHostname lower c.hostname),
        c.seen.isNumber = c'.seen.isNumber := by
  have hmem : ∀ {hostname c'}, c' ∈ clientsOf lower (clients ++ [c]) hostname ↔
      c' ∈ clientsOf lower clients hostname ∨ normalizeHostname lower c.hostname = hostname ∧ c' = c := by
    intro hostname c'
    rw [clientsOf_concat clients hskip, List.mem_append]
    split_ifs with hname <;> simp [hname]
  constructor
  · intro hall c' hc'
    exact hall _ c (hmem.mpr (.inr ⟨rfl, rfl⟩)) c' (hmem.mpr (.inl hc'))
  · intro hfits hostname a ha b hb
    rcases hmem.mp ha with ha | ⟨rfl, rfl⟩
    · rcases hmem.mp hb with hb | ⟨rfl, rfl⟩
      · exact h hostname a ha b hb
      · exact (hfits a ha).symm
    · rcases hmem.mp hb with hb | ⟨-, rfl⟩
      · exact hfits b hb
      · rfl

/-- A client that has a name and an id is compared with the one that is there. -/
theorem hostnameStep_of_named
    (hskip : ¬(normalizeHostname lower c.hostname = "" ∨ given c.clientId = none))
    (d : List (String × ClientRow)) : hostnameStep lower d c =
      match get? d (normalizeHostname lower c.hostname) with
      | none => .ok (setItem (normalizeHostname lower c.hostname) c d)
      | some existing =>
        match c.seen.gt? existing.seen with
        | none => .error .typeError
        | some later => .ok (if later then setItem (normalizeHostname lower c.hostname) c d else d) := by
  obtain ⟨hname, hid⟩ := not_or.mp hskip
  rw [hostnameStep, if_neg hname, if_neg hid]

theorem hostnameStep_of_skipped
    (hskip : normalizeHostname lower c.hostname = "" ∨ given c.clientId = none) (d : List (String × ClientRow)) :
    hostnameStep lower d c = .ok d := by
  rcases hskip with h | h
  · exact if_pos h
  · unfold hostnameStep
    dsimp only
    rw [if_pos h, ite_self]

/-- The newest client of a name is kept if the new one can be compared with the others. -/
theorem hostnameStep_keepNewest {clients : List ClientRow} (htype : OneType lower clients)
    (hskip : ¬(normalizeHostname lower c.hostname = "" ∨ given c.clientId = none)) :
    ((∀ c' ∈ clientsOf lower clients (normalizeHostname lower c.hostname), c.seen.isNumber = c'.seen.isNumber) ∧
        hostnameStep lower (keepNewest (fun c => c.seen.rank) (namedClients lower clients)) c =
          .ok (keepStep (fun c => c.seen.rank) (keepNewest (fun c => c.seen.rank) (namedClients lower clients))
            (normalizeHostname lower c.hostname, c))) ∨
      (¬(∀ c' ∈ clientsOf lower clients (normalizeHostname lower c.hostname), c.seen.isNumber = c'.seen.isNumber) ∧
        hostnameStep lower (keepNewest (fun c => c.seen.rank) (namedClients lower clients)) c = .error .typeError) := by
  have hnewest := get?_keepNewest (fun c : ClientRow => c.seen.rank) (namedClients lower clients)
    (normalizeHostname lower c.hostname)
  rw [hostnameStep_of_named hskip, keepStep]
  cases hget : get? (keepNewest (fun c : ClientRow => c.seen.rank) (namedClients lower clients))
      (normalizeHostname lower c.hostname) with
  | none =>
    -- no other client has the name
    have hnone : clientsOf lower clients (normalizeHostname lower c.hostname) = [] :=
      List.argmax_eq_none.mp (hnewest.symm.trans hget)
    rw [hnone]
    exact .inl ⟨by simp, rfl⟩
  | some existing =>
    have hexisting : existing ∈ clientsOf lower clients (normalizeHostname lower c.hostname) :=
      List.argmax_mem (Option.mem_def.mpr (hnewest.symm.trans hget))
    by_cases hfits : c.seen.isNumber = existing.seen.isNumber
    · refine .inl ⟨fun c' hc' => hfits.trans (htype _ _ hexisting _ hc'), ?_⟩
      dsimp only
      rw [gt?_of_isNumber hfits]
      split_ifs with hlater <;> simp [hlater]
    · refine .inr ⟨fun h => hfits (h existing hexisting), ?_⟩
      dsimp only
      rw [gt?_of_ne hfits]

variable (lower) in
theorem byHostname_concat (clients : List ClientRow) (c : ClientRow) :
    byHostname lower (clients ++ [c]) = (byHostname lower clients).bind fun d => hostnameStep lower d c := by
  unfold byHostname
  rw [List.foldlM_append]
  cases List.foldlM (hostnameStep lower) [] clients with
  | error e => rfl
  | ok d => exact bind_pure (hostnameStep lower d c)

variable (lower) in
/-- **The map of the names**: each name has the first of its newest clients, unless two clients of one name cannot
be compared. -/
theorem byHostname_eq (clients : List ClientRow) : (OneType lower clients ∧
        byHostname lower clients = .ok (keepNewest (fun c => c.seen.rank) (namedClients lower clients))) ∨
      (¬OneType lower clients ∧ byHostname lower clients = .error .typeError) := by
  induction clients using List.reverseRecOn with
  | nil => exact .inl ⟨fun hostname c hc => absurd hc (List.not_mem_nil), rfl⟩
  | append_singleton clients c ih =>
    rw [byHostname_concat]
    by_cases hskip : normalizeHostname lower c.hostname = "" ∨ given c.clientId = none
    · have hnamed : namedClients lower (clients ++ [c]) = namedClients lower clients := by
        rw [namedClients_concat, if_pos hskip, List.append_nil]
      have htypes : OneType lower (clients ++ [c]) ↔ OneType lower clients := by
        unfold OneType clientsOf
        rw [hnamed]
      rw [htypes, hnamed]
      refine ih.imp (fun h => ⟨h.1, ?_⟩) fun h => ⟨h.1, ?_⟩
      · rw [h.2]
        exact hostnameStep_of_skipped hskip _
      · rw [h.2]
        rfl
    · rcases ih with ⟨htype, hmap⟩ | ⟨htype, hmap⟩
      · rw [hmap, oneType_concat_iff htype hskip, namedClients_concat, if_neg hskip, keepNewest_concat]
        exact hostnameStep_keepNewest htype hskip
      · refine .inr ⟨fun h => htype fun hostname a ha b hb => ?_, by rw [hmap]; rfl⟩
        refine h hostname a ?_ b ?_ <;> rw [clientsOf_concat clients hskip]
        · exact List.mem_append_left _ ha
        · exact List.mem_append_left _ hb

end Clients

/-! ## The machines that are kept -/

section Machines

/-- A missing time is before all others. -/
def tsRank : Option Time → WithBot Time
  | none => ⊥
  | some t => t

theorem laterThan_iff (ts cur : Option Time) : laterThan ts cur = true ↔ tsRank cur < tsRank ts := by
  cases ts with
  | none => exact iff_of_false Bool.false_ne_true (WithBot.not_lt_bot _)
  | some t =>
    cases cur with
    | none => exact iff_of_true rfl (WithBot.bot_lt_coe t)
    | some u => exact decide_eq_true_iff.trans WithBot.coe_lt_coe.symm

/-- The key of a machine in the deduplication, with what is kept of it. -/
def machineEntry (row : MachineRow) : Option (String × KeptMachine) :=
  (given row.hostname).bind fun hostname =>
    let norm := normalizeHostname lower (some hostname)
    if norm = "" then none
    else some (if row.machineUuid ≠ "" then row.machineUuid else "host:" ++ norm,
      ⟨row.id, hostname, row.lastSeenAt.or (some row.enrolledAt)⟩)

variable {lower}

theorem dedupStep_eq (d : List (String × KeptMachine)) (row : MachineRow) : dedupStep lower d row =
      (machineEntry lower row).elim d (keepStep (fun m : KeptMachine => tsRank m.ts) d) := by
  unfold dedupStep machineEntry
  cases given row.hostname with
  | none => rfl
  | some hostname =>
    rw [Option.bind_some]
    dsimp only
    by_cases hnorm : normalizeHostname lower (some hostname) = ""
    · rw [if_pos hnorm, if_pos hnorm]
      rfl
    · rw [if_neg hnorm, if_neg hnorm, Option.elim_some, keepStep]
      dsimp only
      generalize (if row.machineUuid ≠ "" then row.machineUuid
        else "host:" ++ normalizeHostname lower (some hostname)) = key
      cases get? d key with
      | none => rfl
      | some cur =>
        dsimp only
        simp only [laterThan_iff]

/-- **The deduplication** keeps, under each key, the first of the machines with the latest time. -/
theorem dedup_eq (machines : MachineRows) : dedup lower machines =
      keepNewest (fun m : KeptMachine => tsRank m.ts) (machines.rows.filterMap (machineEntry lower)) := by
  have hfold : ∀ (rows : List MachineRow) (d : List (String × KeptMachine)),
      rows.foldl (dedupStep lower) d =
        (rows.filterMap (machineEntry lower)).foldl (keepStep fun m : KeptMachine => tsRank m.ts) d := by
    intro rows
    induction rows with
    | nil => exact fun d => rfl
    | cons row rows ih =>
      intro d
      rw [List.foldl_cons, ih, dedupStep_eq, List.filterMap_cons]
      cases machineEntry lower row with
      | none => rfl
      | some entry => rfl
  exact hfold machines.rows []

theorem id_of_machineEntry {row : MachineRow} {entry : String × KeptMachine}
    (h : machineEntry lower row = some entry) : entry.2.id = row.id := by
  obtain ⟨hostname, -, h⟩ := Option.bind_eq_some_iff.mp h
  dsimp only at h
  split_ifs at h
  all_goals
    cases h
    rfl

variable (lower) in
theorem nodup_keptMachines (machines : MachineRows) : ((keptMachines lower machines).map KeptMachine.id).Nodup := by
  have hrow : ∀ entry ∈ dedup lower machines, ∃ row ∈ machines.rows, machineEntry lower row = some entry := by
    intro entry hentry
    rw [dedup_eq] at hentry
    exact List.mem_filterMap.mp (mem_of_mem_keepNewest _ hentry)
  have hkeys : ((dedup lower machines).map Prod.fst).Nodup := by
    rw [dedup_eq]
    exact nodup_keepNewest _ _
  rw [keptMachines, List.map_map]
  refine (List.nodup_map_iff_inj_on hkeys.of_map).mpr ?_
  intro entry hentry entry' hentry' hid
  obtain ⟨row, hmem, hmade⟩ := hrow entry hentry
  obtain ⟨row', hmem', hmade'⟩ := hrow entry' hentry'
  have hrows : row = row' := by
    refine List.inj_on_of_nodup_map machines.nodup hmem hmem' ?_
    rw [← id_of_machineEntry hmade, ← id_of_machineEntry hmade']
    exact hid
  rw [hrows] at hmade
  exact Option.some.inj (hmade.symm.trans hmade')

end Machines

/-! ## The upserts -/

section Upserts

/-- The row that is upserted for a machine, if its name is that of a client. -/
def linkEntry (clients : List ClientRow) (m : KeptMachine) : Option (Uuid × LinkRow) :=
  (target lower clients m).map fun c => (m.id, linkRow timeOf now c m)

variable {lower timeOf now} {clients : List ClientRow}

theorem clientsOf_empty (clients : List ClientRow) : clientsOf lower clients "" = [] := by
  refine List.eq_nil_iff_forall_not_mem.mpr fun c hc => ?_
  obtain ⟨c', -, h⟩ := List.mem_filterMap.mp (mem_valuesOf.mp hc)
  split_ifs at h with hskip
  exact hskip (.inl (congrArg Prod.fst (Option.some.inj h)))

theorem clientId_of_mem {c : ClientRow} {m : KeptMachine} (h : c ∈ clientsFor lower clients m) :
    c.clientId = some (c.clientId.getD "") := by
  obtain ⟨c', -, h⟩ := List.mem_filterMap.mp (mem_valuesOf.mp h)
  split_ifs at h with hskip
  obtain rfl : c' = c := congrArg Prod.snd (Option.some.inj h)
  cases hid : c'.clientId with
  | none => exact absurd (.inr (by rw [hid]; rfl)) hskip
  | some id => rfl

theorem mem_clientsFor_of_target {c : ClientRow} {m : KeptMachine} (h : target lower clients m = some c) :
    c ∈ clientsFor lower clients m := List.argmax_mem (Option.mem_def.mpr h)

theorem rank_le_of_target {c : ClientRow} {m : KeptMachine} {c' : ClientRow} (h : target lower clients m = some c)
    (hc' : c' ∈ clientsFor lower clients m) : c'.seen.rank ≤ c.seen.rank :=
  List.le_of_mem_argmax (f := fun c : ClientRow => c.seen.rank) hc' (Option.mem_def.mpr h)

theorem linkStep_eq (st : LinkTable × ℕ) (m : KeptMachine) :
    linkStep lower timeOf now (keepNewest (fun c => c.seen.rank) (namedClients lower clients)) st m =
      match linkEntry lower timeOf now clients m with
      | none => .ok st
      | some entry =>
        match st.1.upsert entry.1 entry.2 with
        | none => .error .integrityError
        | some links => .ok (links, st.2 + 1) := by
  have hfound : get? (keepNewest (fun c => c.seen.rank) (namedClients lower clients))
      (normalizeHostname lower (some m.hostname)) = target lower clients m := get?_keepNewest _ _ _
  unfold linkStep linkEntry
  dsimp only
  by_cases hname : normalizeHostname lower (some m.hostname) = ""
  · have hnone : target lower clients m = none := by
      rw [target, clientsFor, hname, clientsOf_empty]
      rfl
    rw [if_pos hname, hnone]
    rfl
  · rw [if_neg hname, hfound]
    cases target lower clients m with
    | none => rfl
    | some c => rfl

theorem foldlM_linkStep (machines : List KeptMachine) (links : LinkTable) (linked : ℕ) :
    machines.foldlM
        (linkStep lower timeOf now (keepNewest (fun c => c.seen.rank) (namedClients lower clients))) (links, linked) =
      match links.upsertAll (machines.filterMap (linkEntry lower timeOf now clients)) with
      | none => .error .integrityError
      | some links' => .ok (links', linked + (machines.filterMap (linkEntry lower timeOf now clients)).length) := by
  induction machines generalizing links linked with
  | nil => rfl
  | cons m machines ih =>
    rw [List.foldlM_cons, linkStep_eq, List.filterMap_cons]
    cases linkEntry lower timeOf now clients m with
    | none => exact ih links linked
    | some entry =>
      dsimp only
      rw [UniqueTable.upsertAll, List.foldlM_cons]
      cases links.upsert entry.1 entry.2 with
      | none => rfl
      | some links' =>
        refine (ih links' (linked + 1)).trans ?_
        rw [List.length_cons, Nat.add_assoc, Nat.add_comm 1]
        rfl

variable (lower timeOf now clients) in
theorem nodup_linkEntries (machines : MachineRows) :
    (((keptMachines lower machines).filterMap (linkEntry lower timeOf now clients)).map Prod.fst).Nodup := by
  have hids := nodup_keptMachines lower machines
  rw [List.Nodup, List.pairwise_map] at hids
  rw [List.Nodup, List.pairwise_map, List.pairwise_filterMap]
  refine hids.imp fun {m m'} hne entry hentry entry' hentry' => ?_
  obtain ⟨c, -, rfl⟩ := Option.map_eq_some_iff.mp hentry
  obtain ⟨c', -, rfl⟩ := Option.map_eq_some_iff.mp hentry'
  exact hne

variable (timeOf now) in
theorem syncable_iff_makesWay (htype : OneType lower clients) {machines : MachineRows} {links : LinkTable} :
    Syncable lower clients machines links ↔
      links.MakesWay ((keptMachines lower machines).filterMap (linkEntry lower timeOf now clients)) := by
  have hid : ∀ {m c}, target lower clients m = some c → c.clientId = some (linkRow timeOf now c m).clientId :=
    fun h => clientId_of_mem (mem_clientsFor_of_target h)
  have hentry : ∀ {m : KeptMachine} {c}, target lower clients m = some c →
      linkEntry lower timeOf now clients m = some (m.id, linkRow timeOf now c m) := by
    intro m c h
    rw [linkEntry, h, Option.map_some]
  rw [UniqueTable.makesWay_filterMap_iff]
  constructor
  · rintro ⟨-, hdistinct, hearlier⟩
    refine ⟨hdistinct.imp fun {m m'} hne entry hmade entry' hmade' hsame => ?_,
      fun front m back hsplit entry hmade j row hrow hsame => ?_⟩
    · obtain ⟨c, hc, rfl⟩ := Option.map_eq_some_iff.mp hmade
      obtain ⟨c', hc', rfl⟩ := Option.map_eq_some_iff.mp hmade'
      exact hne c hc c' hc' ((hid hc).trans ((congrArg some hsame).trans (hid hc').symm))
    · obtain ⟨c, hc, rfl⟩ := Option.map_eq_some_iff.mp hmade
      refine (hearlier front m back hsplit c hc j row hrow ((hid hc).trans (congrArg some hsame.symm))).imp_right ?_
      rintro ⟨m', hm', hj, hlinked⟩
      obtain ⟨c', hc'⟩ := Option.isSome_iff_exists.mp hlinked
      exact ⟨m', hm', _, hentry hc', hj⟩
  · rintro ⟨hdistinct, hearlier⟩
    refine ⟨htype, hdistinct.imp fun {m m'} hne c hc c' hc' hsame => ?_,
      fun front m back hsplit c hc j row hrow hsame => ?_⟩
    · refine hne _ (hentry hc) _ (hentry hc') (Option.some.inj ?_)
      exact (hid hc).symm.trans (hsame.trans (hid hc'))
    · have hcolumn : row.clientId = (linkRow timeOf now c m).clientId :=
        Option.some.inj (hsame.symm.trans (hid hc))
      refine (hearlier front m back hsplit _ (hentry hc) j row hrow hcolumn).imp_right ?_
      rintro ⟨m', hm', entry, hmade, hj⟩
      obtain ⟨c', hc', rfl⟩ := Option.map_eq_some_iff.mp hmade
      exact ⟨m', hm', hj, by rw [hc']; rfl⟩

/-- **The links come in sync exactly when** the values of `last_seen_at` can be compared, no two machines want the
same client, and a client that is wanted is not kept by another machine. -/
theorem linksInSync_iff (machines : MachineRows) (links : LinkTable) :
    LinksInSync lower timeOf now clients machines links ↔ Syncable lower clients machines links := by
  rcases byHostname_eq lower clients with ⟨htype, hmap⟩ | ⟨htype, hmap⟩
  · have hbody : syncBody lower timeOf now clients machines links =
        (keptMachines lower machines).foldlM
          (linkStep lower timeOf now (keepNewest (fun c => c.seen.rank) (namedClients lower clients))) (links, 0) := by
      rw [syncBody, hmap]
      rfl
    have hkeys := nodup_linkEntries lower timeOf now clients machines
    rw [syncable_iff_makesWay timeOf now htype, ← UniqueTable.exists_upsertAll_iff hkeys]
    rw [foldlM_linkStep] at hbody
    constructor
    · intro hsync
      obtain ⟨linked, hanswer⟩ := hsync.goesThrough
      cases hup : links.upsertAll ((keptMachines lower machines).filterMap
          (linkEntry lower timeOf now clients)) with
      | some links' => exact ⟨links', rfl⟩
      | none =>
        rw [hup] at hbody
        rw [syncVelociraptorLinks, hbody] at hanswer
        cases hanswer
    · rintro ⟨links', hup⟩
      rw [hup] at hbody
      have hdone : syncVelociraptorLinks lower timeOf now clients machines links =
          (links', .linked (0 + ((keptMachines lower machines).filterMap
            (linkEntry lower timeOf now clients)).length) clients.length) := by
        rw [syncVelociraptorLinks, hbody]
      refine ⟨⟨_, by rw [hdone]⟩, fun m hm hnamed => ?_, fun m m' row row' hrow hrow' hsame => ?_⟩
      · cases htarget : target lower clients m with
        | none => exact absurd (List.argmax_eq_none.mp htarget) hnamed
        | some c =>
          have hmem := mem_clientsFor_of_target htarget
          refine ⟨c, hmem, fun c' hc' => rank_le_of_target htarget hc', ?_⟩
          have hwritten := (UniqueTable.get_upsertAll hkeys hup).1 (m.id, linkRow timeOf now c m)
            (List.mem_filterMap.mpr ⟨m, hm, by rw [linkEntry, htarget, Option.map_some]⟩)
          rw [hdone, hwritten]
          exact (clientId_of_mem hmem).symm
      · rw [hdone] at hrow hrow'
        exact links'.unique hrow hrow' hsame
  · refine ⟨fun hsync => ?_, fun hready => absurd hready.oneType htype⟩
    obtain ⟨linked, hanswer⟩ := hsync.goesThrough
    rw [syncVelociraptorLinks, syncBody, hmap] at hanswer
    cases hanswer

/-- `str.lower` on letters of ASCII. -/
def asciiLower (s : String) : String := String.ofList (s.toList.map Char.toLower)

/-- Two machines of one name, in the order of the query. -/
def sameName : MachineRows where
  rows := [⟨1, some "PC-01", "uuid-1", 0, none⟩, ⟨2, some "pc-01.local", "uuid-2", 0, none⟩]
  nodup := by decide

/-- No links yet. -/
def noLinks : LinkTable where
  rows := .empty
  unique := by
    intro k j r s h
    cases h

/-- A client of this name. -/
def onlyClient : ClientRow := ⟨some "C.1", some "pc-01", none, none⟩

theorem same_name_unsynced : ¬∀ (clients : List ClientRow) (machines : MachineRows) (links : LinkTable),
    LinksInSync asciiLower (fun _ => none) 0 clients machines links := by
  intro h
  have hsync := h [onlyClient] sameName noLinks
  have hlinked : ∀ m ∈ keptMachines asciiLower sameName, normalizeHostname asciiLower (some m.hostname) = "pc-01" →
      ∃ row : LinkRow,
        (syncVelociraptorLinks asciiLower (fun _ => none) 0 [onlyClient] sameName noLinks).1.rows.get m.id = some row ∧ row.clientId = "C.1" := by
    intro m hm hname
    have honly : clientsFor asciiLower [onlyClient] m = [onlyClient] := by
      rw [clientsFor, hname]
      decide
    obtain ⟨c, hc, -, hrow⟩ := hsync.newest m hm (by rw [honly]; simp)
    rw [honly, List.mem_singleton] at hc
    rw [hc] at hrow
    exact Option.map_eq_some_iff.mp hrow
  have hkept : keptMachines asciiLower sameName = [⟨1, "PC-01", some 0⟩, ⟨2, "pc-01.local", some 0⟩] := by decide
  rw [hkept] at hlinked
  obtain ⟨row, hrow, hclient⟩ := hlinked ⟨1, "PC-01", some 0⟩ List.mem_cons_self (by decide)
  obtain ⟨row', hrow', hclient'⟩ := hlinked ⟨2, "pc-01.local", some 0⟩
    (List.mem_cons_of_mem _ List.mem_cons_self) (by decide)
  exact absurd (hsync.single _ _ row row' hrow hrow' (hclient.trans hclient'.symm)) (by decide)

end Upserts

end Sync

end AssetInventory.Velociraptor
