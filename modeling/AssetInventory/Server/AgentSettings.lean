import AssetInventory.Lib.CanonicalJson

/-!
# The configuration of the agents

What an agent is told to do comes from the settings of the server, from one row that a super administrator may
have left in the database, and from a formula for the time after which a machine counts as offline.  A digest
of it goes with every heartbeat, and an agent that sees a new digest fetches the configuration again.

* `effectiveAgentConfig`: the configuration; `renderAgentClientConfig`: the file that an installer downloads.
* `computeAgentConfigHash`: the digest, for a digest `sha256` of texts.
* `hashText_inj`: the digested text determines what it is made from.
* `same_hash_iff`: two configurations have the same digest if and only if they differ in nothing but the
  address of the portal and the time after which a machine counts as offline.
* `portal_changes`: a change of the address of the portal, which the digest does not show.
-/

namespace AssetInventory.Server

open PyJson

/-! ## The configuration -/

/-- The settings that the configuration of the agents is made from. -/
structure Settings where
  onlineTtlSeconds : Option ℤ
  heartbeatIntervalSeconds : ℤ
  heartbeatJitterSeconds : ℤ
  inventoryIntervalHours : ℤ
  agentServerUrl : String
  portalUrl : String

/-- The row of `agent_config_override`, as far as agents read it. -/
structure AgentConfigOverride where
  heartbeatIntervalSeconds : Option ℤ
  heartbeatJitterSeconds : Option ℤ
  inventoryIntervalHours : Option ℤ
  agentServerUrl : Option String
  portalUrl : Option String

/-- The keys that the settings provide. -/
structure AgentConfigPayload where
  heartbeatIntervalSeconds : ℤ
  heartbeatJitterSeconds : ℤ
  onlineTtlSeconds : ℤ
  inventoryIntervalHours : ℤ
  renewBeforePercent : ℤ
  deriving DecidableEq

structure AgentConfig extends AgentConfigPayload where
  agentServerUrl : String
  portalUrl : String
  deriving DecidableEq

def Settings.effectiveOnlineTtlSeconds (settings : Settings) : ℤ :=
  match settings.onlineTtlSeconds with
  | some seconds => seconds
  | none => 2 * (settings.heartbeatIntervalSeconds + settings.heartbeatJitterSeconds)

def Settings.agentConfigPayload (settings : Settings) : AgentConfigPayload where
  heartbeatIntervalSeconds := settings.heartbeatIntervalSeconds
  heartbeatJitterSeconds := settings.heartbeatJitterSeconds
  onlineTtlSeconds := settings.effectiveOnlineTtlSeconds
  inventoryIntervalHours := settings.inventoryIntervalHours
  renewBeforePercent := 70

/-- The payload with the row laid over it. -/
def AgentConfigOverride.over (ov : AgentConfigOverride) (cfg : AgentConfigPayload) : AgentConfigPayload :=
  let hb := ov.heartbeatIntervalSeconds.getD cfg.heartbeatIntervalSeconds
  let jit := ov.heartbeatJitterSeconds.getD cfg.heartbeatJitterSeconds
  { heartbeatIntervalSeconds := hb
    heartbeatJitterSeconds := jit
    -- with a row, what the settings say of the time is not looked at
    onlineTtlSeconds := 2 * (hb + jit)
    inventoryIntervalHours := ov.inventoryIntervalHours.getD cfg.inventoryIntervalHours
    renewBeforePercent := cfg.renewBeforePercent }

/-- `effective_agent_config`, for the row in the database, if there is one. -/
def effectiveAgentConfig (settings : Settings) (row : Option AgentConfigOverride) : AgentConfig where
  toAgentConfigPayload :=
    match row with
    | none => settings.agentConfigPayload
    | some ov => ov.over settings.agentConfigPayload
  agentServerUrl := (given (row.bind AgentConfigOverride.agentServerUrl)).getD settings.agentServerUrl
  portalUrl := (given (row.bind AgentConfigOverride.portalUrl)).getD settings.portalUrl

/-! ## The digest and the file -/

section Digests

variable (R : Reprs) (sha256 : String → String)

/-- The keys that the digest is made from. -/
def AgentConfig.hashed (cfg : AgentConfig) : List (String × Json) :=
  [("endpoints", .arr [.str cfg.agentServerUrl]),
    ("heartbeat_interval_seconds", .num cfg.heartbeatIntervalSeconds),
    ("heartbeat_jitter_seconds", .num cfg.heartbeatJitterSeconds),
    ("inventory_interval_hours", .num cfg.inventoryIntervalHours),
    ("renew_before_percent", .num cfg.renewBeforePercent)]

/-- The text that is digested. -/
def hashText (cfg : AgentConfig) : List Char :=
  canonical R (.obj (cfg.hashed.filter fun kv => !kv.2.same .null))

def computeAgentConfigHash (cfg : AgentConfig) : String := sha256 (String.ofList (hashText R cfg))

def agentClientConfigVersion : ℤ := 1

/-- The fields of `agent.config.yaml`. -/
def agentClientConfig (cfg : AgentConfig) : List (String × Json) :=
  [("version", .num agentClientConfigVersion),
    ("server_urls", .arr [.str cfg.agentServerUrl]),
    ("portal_url", .str cfg.portalUrl),
    ("heartbeat_interval_seconds", .num cfg.heartbeatIntervalSeconds),
    ("heartbeat_jitter_seconds", .num cfg.heartbeatJitterSeconds),
    ("inventory_interval_hours", .num cfg.inventoryIntervalHours),
    ("renew_before_percent", .num cfg.renewBeforePercent),
    ("agent_config_hash", .str (computeAgentConfigHash R sha256 cfg))]

/-- What the file begins with. -/
def agentClientConfigHeader : String :=
  "# OrgInventory Agent client config — sinh bởi backend từ cấu hình agent hiệu lực.\n" ++
  "# KHÔNG sửa tay: đổi cấu hình trên portal rồi chạy lại lệnh cài để tải file mới.\n"

/-- `render_agent_client_config`, for `yaml.safe_dump`. -/
def renderAgentClientConfig (safeDump : List (String × Json) → String) (cfg : AgentConfig) : String :=
  agentClientConfigHeader ++ safeDump (agentClientConfig R sha256 cfg)

/-! ## What the digest shows -/

/-- The configurations agree in what the digest is made from. -/
structure AgreeOnHashed (cfg cfg' : AgentConfig) : Prop where
  agentServerUrl : cfg.agentServerUrl = cfg'.agentServerUrl
  heartbeatIntervalSeconds : cfg.heartbeatIntervalSeconds = cfg'.heartbeatIntervalSeconds
  heartbeatJitterSeconds : cfg.heartbeatJitterSeconds = cfg'.heartbeatJitterSeconds
  inventoryIntervalHours : cfg.inventoryIntervalHours = cfg'.inventoryIntervalHours
  renewBeforePercent : cfg.renewBeforePercent = cfg'.renewBeforePercent

/-- The configurations differ in nothing but the address of the portal and the time after which a machine
counts as offline. -/
def AgentConfig.AgreesWith (cfg cfg' : AgentConfig) : Prop :=
  cfg' = { cfg with onlineTtlSeconds := cfg'.onlineTtlSeconds, portalUrl := cfg'.portalUrl }

variable {R sha256} {cfg cfg' : AgentConfig}

theorem agreesWith_iff : cfg.AgreesWith cfg' ↔ AgreeOnHashed cfg cfg' := by
  constructor
  · intro h
    unfold AgentConfig.AgreesWith at h
    rw [h]
    exact ⟨rfl, rfl, rfl, rfl, rfl⟩
  · rintro ⟨hurl, hinterval, hjitter, hhours, hpercent⟩
    unfold AgentConfig.AgreesWith
    rw [hurl, hinterval, hjitter, hhours, hpercent]

theorem hashText_eq (cfg : AgentConfig) :
    hashText R cfg = "\x7b".toList ++ membersText (canonicalMembers R cfg.hashed) := by
  have hgiven : (cfg.hashed.filter fun kv => !kv.2.same .null) = cfg.hashed :=
    List.filter_eq_self.mpr fun kv hkv => by
      simp only [AgentConfig.hashed, List.mem_cons, List.not_mem_nil, or_false] at hkv
      rcases hkv with rfl | rfl | rfl | rfl | rfl <;> rfl
  rw [hashText, hgiven, canonical_obj, sortMembers_of_sorted]
  have hkeys : (cfg.hashed.map Prod.fst).Pairwise (· ≤ ·) := by
    show ["endpoints", "heartbeat_interval_seconds", "heartbeat_jitter_seconds", "inventory_interval_hours",
      "renew_before_percent"].Pairwise (· ≤ ·)
    decide
  exact List.pairwise_map.mp hkeys

theorem separate_hashed (cfg cfg' : AgentConfig) :
    Separate (canonicalMembers R cfg.hashed) (canonicalMembers R cfg'.hashed) := by
  rw [canonicalMembers_eq_map, canonicalMembers_eq_map]
  refine separate_of_forall₂ ?_ ?_
  · show ["endpoints", "heartbeat_interval_seconds", "heartbeat_jitter_seconds", "inventory_interval_hours",
      "renew_before_percent"].Nodup
    decide
  · exact .cons ⟨rfl, delimited_singleton _ _⟩ (.cons ⟨rfl, delimited_num _ _⟩
      (.cons ⟨rfl, delimited_num _ _⟩ (.cons ⟨rfl, delimited_num _ _⟩ (.cons ⟨rfl, delimited_num _ _⟩ .nil))))

/-- **The digested text determines** what it is made from. -/
theorem hashText_inj (h : hashText R cfg = hashText R cfg') : AgreeOnHashed cfg cfg' := by
  rw [hashText_eq, hashText_eq, List.append_cancel_left_eq] at h
  have hmembers := membersText_inj (separate_hashed cfg cfg') h
  rw [canonicalMembers_eq_map, canonicalMembers_eq_map] at hmembers
  simp only [AgentConfig.hashed, List.map_cons, List.map_nil, List.cons.injEq, Prod.mk.injEq, true_and,
    and_true] at hmembers
  obtain ⟨hurl, hinterval, hjitter, hhours, hpercent⟩ := hmembers
  exact ⟨canonical_singleton_inj hurl, canonical_num_inj hinterval, canonical_num_inj hjitter,
    canonical_num_inj hhours, canonical_num_inj hpercent⟩

theorem computeAgentConfigHash_eq_iff (hsha : Function.Injective sha256) :
    computeAgentConfigHash R sha256 cfg = computeAgentConfigHash R sha256 cfg' ↔ AgreeOnHashed cfg cfg' := by
  constructor
  · intro h
    exact hashText_inj (String.ofList_injective (hsha h))
  · rintro ⟨hurl, hinterval, hjitter, hhours, hpercent⟩
    unfold computeAgentConfigHash hashText AgentConfig.hashed
    rw [hurl, hinterval, hjitter, hhours, hpercent]

/-- The fields of the file other than the address of the portal come from what is digested. -/
theorem lookup_agentClientConfig (h : AgreeOnHashed cfg cfg') {key : String} (hkey : key ≠ "portal_url") :
    lookup key (agentClientConfig R sha256 cfg) = lookup key (agentClientConfig R sha256 cfg') := by
  have hhash : computeAgentConfigHash R sha256 cfg = computeAgentConfigHash R sha256 cfg' := by
    unfold computeAgentConfigHash hashText AgentConfig.hashed
    rw [h.agentServerUrl, h.heartbeatIntervalSeconds, h.heartbeatJitterSeconds, h.inventoryIntervalHours,
      h.renewBeforePercent]
  unfold agentClientConfig
  rw [h.agentServerUrl, h.heartbeatIntervalSeconds, h.heartbeatJitterSeconds, h.inventoryIntervalHours,
    h.renewBeforePercent, hhash]
  simp only [lookup_cons, if_neg (Ne.symm hkey)]

/-- **The digest shows every change** but one of the address of the portal, or of the time after which a
machine counts as offline, and no other field of the file depends on these. -/
theorem same_hash_iff (R : Reprs) {sha256 : String → String} (hsha : Function.Injective sha256)
    (settings settings' : Settings) (row row' : Option AgentConfigOverride) :
    (computeAgentConfigHash R sha256 (effectiveAgentConfig settings row) =
        computeAgentConfigHash R sha256 (effectiveAgentConfig settings' row') ↔
      (effectiveAgentConfig settings row).AgreesWith (effectiveAgentConfig settings' row')) ∧
    (computeAgentConfigHash R sha256 (effectiveAgentConfig settings row) =
        computeAgentConfigHash R sha256 (effectiveAgentConfig settings' row') →
      ∀ key ≠ "portal_url",
        lookup key (agentClientConfig R sha256 (effectiveAgentConfig settings row)) =
          lookup key (agentClientConfig R sha256 (effectiveAgentConfig settings' row'))) := by
  rw [computeAgentConfigHash_eq_iff hsha, agreesWith_iff]
  exact ⟨Iff.rfl, fun h key hkey => lookup_agentClientConfig h hkey⟩

end Digests

/-! ### A change of the portal -/

/-- The settings that the repository comes with, and a time after which machines count as offline. -/
def exampleAgentSettings : Settings :=
  ⟨some 180, 30, 8, 24, "https://agent.example.gov.vn", "http://localhost:5173"⟩

/-- A row that only changes the address of the portal. -/
def portalOverride : AgentConfigOverride := ⟨none, none, none, none, some "http://10.10.0.241:3003"⟩

/-- Values without quoted texts. -/
def plainReprs : Reprs := ⟨fun _ => "", fun s => s⟩

/-- The two configurations have the same digest, and one file says of the server what the other one says. -/
theorem same_hash_portal :
    computeAgentConfigHash plainReprs id (effectiveAgentConfig exampleAgentSettings none) =
        computeAgentConfigHash plainReprs id (effectiveAgentConfig exampleAgentSettings (some portalOverride)) ∧
      lookup "server_urls" (agentClientConfig plainReprs id (effectiveAgentConfig exampleAgentSettings none)) =
        lookup "server_urls" (agentClientConfig plainReprs id
          (effectiveAgentConfig exampleAgentSettings (some portalOverride))) := by
  have h := same_hash_iff plainReprs Function.injective_id exampleAgentSettings exampleAgentSettings none
    (some portalOverride)
  have hsame := h.1.mpr rfl
  exact ⟨hsame, h.2 hsame "server_urls" (by decide)⟩

/-- **A change of the portal** changes its address and the time after which a machine counts as offline, and
not the digest. -/
theorem portal_changes : (¬ ∀ (R : Reprs) (sha256 : String → String), Function.Injective sha256 →
      ∀ (settings settings' : Settings) (row row' : Option AgentConfigOverride),
        computeAgentConfigHash R sha256 (effectiveAgentConfig settings row) =
          computeAgentConfigHash R sha256 (effectiveAgentConfig settings' row') →
        effectiveAgentConfig settings row = effectiveAgentConfig settings' row' ∧
          ∀ key, lookup key (agentClientConfig R sha256 (effectiveAgentConfig settings row)) =
            lookup key (agentClientConfig R sha256 (effectiveAgentConfig settings' row'))) ∧
    (effectiveAgentConfig exampleAgentSettings none).onlineTtlSeconds ≠
      (effectiveAgentConfig exampleAgentSettings (some portalOverride)).onlineTtlSeconds ∧
    lookup "portal_url" (agentClientConfig plainReprs id (effectiveAgentConfig exampleAgentSettings none)) ≠
      lookup "portal_url" (agentClientConfig plainReprs id
        (effectiveAgentConfig exampleAgentSettings (some portalOverride))) := by
  refine ⟨fun h => ?_, by decide, ?_⟩
  · have hsame := h plainReprs id Function.injective_id exampleAgentSettings exampleAgentSettings none
      (some portalOverride) rfl
    exact absurd hsame.1 (by decide)
  · show some (Json.str "http://localhost:5173") ≠ some (Json.str "http://10.10.0.241:3003")
    simp

end AssetInventory.Server
