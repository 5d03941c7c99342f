import AssetInventory.DeepAgent.Models

/-!
# The catalogue of tools

The helpers of the Velociraptor bridge that may be used on Windows, and the artifacts `Custom.*` that a
request makes available.  A custom artifact is a tool under the name `custom:` followed by its own.

* `customToolNames`: the tools for all artifacts of a request.
* `initialCustomToolNames`, `tier2CustomToolNames`: those that may be used in each of the two stages.
  If the request has no artifact of the stage's tier, each is a fixed list for the platform.

A Python set is a list here, read for its elements only.
-/

namespace AssetInventory.DeepAgent

open PyJson

/-- What the catalogue says of a bridge helper. -/
structure ToolPolicy where
  description : String
  usesTimeRange : Bool
  deriving DecidableEq

/-- The arguments a bridge helper is known to take. -/
structure ToolCapability where
  paginated : Bool
  usesTimeRange : Bool
  deriving DecidableEq

def toolCapabilities : List (String × ToolCapability) :=
  [("windows_pslist", ⟨true, false⟩), ("windows_netstat_enriched", ⟨true, false⟩),
    ("windows_services", ⟨true, false⟩), ("windows_scheduled_tasks", ⟨true, false⟩),
    ("windows_autoruns", ⟨true, false⟩), ("windows_wmi_persistence", ⟨true, false⟩),
    ("windows_event_logs", ⟨true, true⟩), ("windows_event_log_cleared", ⟨true, true⟩),
    ("windows_powershell_scriptblock", ⟨true, true⟩), ("windows_execution_amcache", ⟨true, false⟩),
    ("windows_execution_userassist", ⟨true, true⟩), ("windows_execution_prefetch", ⟨true, true⟩),
    ("windows_execution_shimcache", ⟨true, false⟩), ("windows_logon_events", ⟨true, true⟩),
    ("windows_dns_cache", ⟨true, false⟩)]

def windowsToolPolicies : List (String × ToolPolicy) :=
  [("windows_pslist", ⟨"Tiến trình đang chạy và command line", false⟩),
    ("windows_netstat_enriched", ⟨"Kết nối mạng gắn với tiến trình", false⟩),
    ("windows_services", ⟨"Dịch vụ và binary thực thi", false⟩),
    ("windows_scheduled_tasks", ⟨"Scheduled task và persistence", false⟩),
    ("windows_autoruns", ⟨"Điểm tự khởi động", false⟩),
    ("windows_wmi_persistence", ⟨"WMI permanent event persistence", false⟩),
    ("windows_event_logs", ⟨"Windows event log theo khoảng thời gian", true⟩),
    ("windows_event_log_cleared", ⟨"Dấu hiệu xóa event log", true⟩),
    ("windows_powershell_scriptblock", ⟨"PowerShell 4104 theo thời gian", true⟩),
    ("windows_execution_prefetch", ⟨"Bằng chứng thực thi Prefetch", false⟩),
    ("windows_execution_amcache", ⟨"Bằng chứng thực thi Amcache", false⟩),
    ("windows_execution_userassist", ⟨"Bằng chứng thực thi UserAssist", false⟩),
    ("windows_execution_shimcache", ⟨"Dấu vết ShimCache", false⟩),
    ("windows_logon_events", ⟨"Phiên đăng nhập Windows", false⟩),
    ("windows_dns_cache", ⟨"DNS cache hiện tại", false⟩)]

def baselineTools : List String :=
  ["windows_pslist", "windows_netstat_enriched", "windows_services", "windows_scheduled_tasks",
    "windows_event_logs", "windows_powershell_scriptblock"]

/-- The bridge helpers for a platform. -/
def toolPoliciesFor : Platform → List (String × ToolPolicy)
  | .windows => windowsToolPolicies
  | _ => []

def customToolPrefix : String := "custom:"

def tier1CustomTools : Platform → List String
  | .windows => ["custom:Custom.DFIR.Windows.Triage"]
  | .linux => ["custom:Custom.DFIR.Linux.Triage"]
  | .macos => []

def tier2CustomTools : Platform → List String
  | .windows => ["custom:Custom.DFIR.Windows.Execution", "custom:Custom.DFIR.Windows.Persistence"]
  | .linux => ["custom:Custom.DFIR.Linux.Persistence", "custom:Custom.DFIR.Linux.SSH"]
  | .macos => []

def CustomArtifactRef.toolName (ref : CustomArtifactRef) : String := customToolPrefix ++ ref.name

def customToolNames (request : InvestigationRequest) : List String :=
  request.customArtifacts.map CustomArtifactRef.toolName

def hasTierN (request : InvestigationRequest) (tier : ArtifactTier) : Bool :=
  request.customArtifacts.any fun ref => decide (ref.tier = tier)

def initialCustomToolNames (request : InvestigationRequest) : List String :=
  let tier1HardcodedWithPrefix := tier1CustomTools request.targetPlatform
  let tier1HardcodedBare := tier1HardcodedWithPrefix.map (removePrefix customToolPrefix)
  if hasTierN request .one = false then tier1HardcodedWithPrefix
  else
    (request.customArtifacts.filter fun ref =>
      decide (ref.tier = .one) && decide (ref.name ∈ tier1HardcodedBare) &&
        decide (request.targetPlatform ∈ ref.supportedPlatforms)).map CustomArtifactRef.toolName

def tier2CustomToolNames (request : InvestigationRequest) : List String :=
  if hasTierN request .two = false then tier2CustomTools request.targetPlatform
  else
    (request.customArtifacts.filter fun ref =>
      decide (ref.tier = .two) &&
        decide (request.targetPlatform ∈ ref.supportedPlatforms)).map CustomArtifactRef.toolName

/-! ## Names -/

variable {tool : String} {platform : Platform}

theorem startsWith_of_mem_tier1
    (h : tool ∈ tier1CustomTools platform) : startsWith customToolPrefix tool = true := by
  cases platform <;> revert tool <;> decide

theorem startsWith_of_mem_tier2
    (h : tool ∈ tier2CustomTools platform) : startsWith customToolPrefix tool = true := by
  cases platform <;> revert tool <;> decide

theorem not_startsWith_of_lookup {policy : ToolPolicy}
    (h : windowsToolPolicies.lookup tool = some policy) :
    startsWith customToolPrefix tool = false := by
  have hall : ∀ p ∈ windowsToolPolicies, startsWith customToolPrefix p.1 = false := by decide
  obtain ⟨l₁, l₂, hsplit, -⟩ := List.lookup_eq_some_iff.mp h
  exact hall (tool, policy) (by rw [hsplit]; simp)

theorem startsWith_toolName (ref : CustomArtifactRef) :
    startsWith customToolPrefix ref.toolName = true := startsWith_append _ _

@[simp] theorem dropPrefix_toolName (ref : CustomArtifactRef) :
    dropPrefix customToolPrefix ref.toolName = ref.name := dropPrefix_append _ _

variable {request : InvestigationRequest}

theorem mem_customToolNames : tool ∈ customToolNames request ↔
      ∃ ref ∈ request.customArtifacts, ref.toolName = tool := List.mem_map

theorem hasTierN_eq_true {tier : ArtifactTier} :
    hasTierN request tier = true ↔ ∃ ref ∈ request.customArtifacts, ref.tier = tier := by
  simp [hasTierN]

theorem mem_tier1_bare {name : String} :
    name ∈ (tier1CustomTools platform).map (removePrefix customToolPrefix) ↔
      customToolPrefix ++ name ∈ tier1CustomTools platform := by
  rw [List.mem_map]
  constructor
  · rintro ⟨tool, htool, rfl⟩
    have hstart := startsWith_of_mem_tier1 htool
    rwa [removePrefix, if_pos hstart, append_dropPrefix hstart]
  · exact fun h => ⟨_, h, removePrefix_append _ _⟩

/-- **The initial candidates.** -/
theorem mem_initialCustomToolNames : tool ∈ initialCustomToolNames request ↔
      (hasTierN request .one = false ∧ tool ∈ tier1CustomTools request.targetPlatform) ∨
      ∃ ref ∈ request.customArtifacts, ref.toolName = tool ∧ ref.tier = .one ∧
        tool ∈ tier1CustomTools request.targetPlatform ∧
        request.targetPlatform ∈ ref.supportedPlatforms := by
  unfold initialCustomToolNames
  split
  · rename_i hnone
    constructor
    · exact fun h => Or.inl ⟨hnone, h⟩
    · rintro (⟨-, h⟩ | ⟨ref, -, -, -, h, -⟩) <;> exact h
  · rename_i hsome
    simp only [List.mem_map, List.mem_filter, Bool.and_eq_true, decide_eq_true_eq]
    constructor
    · rintro ⟨ref, ⟨href, ⟨htier, hbare⟩, hplatform⟩, rfl⟩
      exact Or.inr ⟨ref, href, rfl, htier, mem_tier1_bare.mp (List.mem_map.mpr hbare), hplatform⟩
    · rintro (⟨hnone, -⟩ | ⟨ref, href, rfl, htier, hlist, hplatform⟩)
      · exact absurd hnone hsome
      · exact ⟨ref, ⟨href, ⟨htier, List.mem_map.mp (mem_tier1_bare.mpr hlist)⟩, hplatform⟩, rfl⟩

/-- **The candidates of the second stage.** -/
theorem mem_tier2CustomToolNames : tool ∈ tier2CustomToolNames request ↔
      (hasTierN request .two = false ∧ tool ∈ tier2CustomTools request.targetPlatform) ∨
      ∃ ref ∈ request.customArtifacts, ref.toolName = tool ∧ ref.tier = .two ∧
        request.targetPlatform ∈ ref.supportedPlatforms := by
  unfold tier2CustomToolNames
  split
  · rename_i hnone
    constructor
    · exact fun h => Or.inl ⟨hnone, h⟩
    · rintro (⟨-, h⟩ | ⟨ref, href, -, htier, -⟩)
      · exact h
      · exact absurd (hasTierN_eq_true.mpr ⟨ref, href, htier⟩) (by rw [hnone]; simp)
  · rename_i hsome
    simp only [List.mem_map, List.mem_filter, Bool.and_eq_true, decide_eq_true_eq]
    constructor
    · rintro ⟨ref, ⟨href, htier, hplatform⟩, rfl⟩
      exact Or.inr ⟨ref, href, rfl, htier, hplatform⟩
    · rintro (⟨hnone, -⟩ | ⟨ref, href, rfl, htier, hplatform⟩)
      · exact absurd hnone hsome
      · exact ⟨ref, ⟨href, htier, hplatform⟩, rfl⟩

theorem startsWith_of_mem_initial
    (h : tool ∈ initialCustomToolNames request) : startsWith customToolPrefix tool = true := by
  rcases mem_initialCustomToolNames.mp h with ⟨-, h⟩ | ⟨ref, -, -, -, h, -⟩ <;>
    exact startsWith_of_mem_tier1 h

theorem startsWith_of_mem_tier2Names
    (h : tool ∈ tier2CustomToolNames request) : startsWith customToolPrefix tool = true := by
  rcases mem_tier2CustomToolNames.mp h with ⟨-, h⟩ | ⟨ref, -, rfl, -, -⟩
  · exact startsWith_of_mem_tier2 h
  · exact startsWith_toolName ref

end AssetInventory.DeepAgent
