import AssetInventory.DeepAgent.Catalog

/-!
# The adapter to the MCP server

`VelociraptorMCP` stands between the run and the tools of the Velociraptor bridge.  It refuses what is
not on its lists, fills in the arguments itself, and bounds what comes back.  Each function here returns
the invocations it made, at most one, with what the server answered, and its result.

* `collect`: a bridge helper, or a custom artifact through `collect_custom_artifact`.
* `collectEventLogTriage`, `collectEventLogDetail`: the two typed helpers for event logs.
* `verifyTarget`: the client exists.

The answer of the server is any decoded envelope, an exception, or none before the deadline.
-/

namespace AssetInventory.DeepAgent

open PyJson PyTime

/-- A tool that the server exposes, with the arguments its schema declares. -/
structure McpTool where
  name : String
  arguments : List String
  deriving DecidableEq

/-- What comes of an invocation: `payload` is the decoded envelope. -/
inductive McpAnswer where
  | timedOut
  | raised (e : PyExc)
  | payload (entries : List (String × Json))
  deriving DecidableEq

/-- A call made on the server. -/
structure Invocation where
  tool : String
  arguments : List (String × Json)
  answer : McpAnswer
  deriving DecidableEq

/-- The exceptions of the adapter: `MCPPolicyError`, `MCPToolTimeout` and any other. -/
inductive McpError where
  | policy (message : String)
  | timeout (toolName : String)
  | raised (e : PyExc)
  deriving DecidableEq

/-- The exception as Python has it. -/
def McpError.toExc : McpError → PyExc
  | .policy message => ⟨"MCPPolicyError", message⟩
  | .timeout toolName =>
    ⟨"MCPToolTimeout", "MCP tool call exceeded its configured deadline: " ++ toolName⟩
  | .raised e => e

/-- What an adapter function does: its invocations, and its result. -/
abbrev Adapter (α : Type) := List Invocation × Except McpError α

/-- Refuse before anything is invoked. -/
def refuse {α : Type} (message : String) : Adapter α := ([], .error (.policy message))

/-- `_load_tools()` followed by `tools.get(name)`; the last tool of a name counts. -/
def getTool (tools : Except PyExc (List McpTool)) (name message : String) :
    Except McpError McpTool :=
  match tools with
  | .error e => .error (.raised e)
  | .ok tools =>
    match (tools.filter fun tool => decide (tool.name = name)).getLast? with
    | none => .error (.policy message)
    | some tool => .ok tool

/-- `_tool_accepts_argument`. -/
def McpTool.accepts (tool : McpTool) (name : String) : Bool := decide (name ∈ tool.arguments)

/-- `_invoke_tool`: `toolName` is the name that is logged. -/
def invokeTool (tool : McpTool) (toolName : String) (arguments : List (String × Json))
    (answer : McpAnswer) : Adapter (List (String × Json)) :=
  ([⟨tool.name, arguments, answer⟩],
    match answer with
    | .timedOut => .error (.timeout toolName)
    | .raised e => .error (.raised e)
    | .payload entries => .ok entries)

/-- `_log_tool_result`: taking the length of the preview of truncated data may raise. -/
def logToolResult (payload : List (String × Json)) : Except McpError Unit :=
  match getD payload "data" .null with
  | .obj kvs =>
    if getD kvs "truncated" .null = .bool true then
      let preview := getD kvs "preview" (.str "")
      match preview.len with
      | some _ => .ok ()
      | none =>
        .error (.raised ⟨"TypeError", "object of type '" ++ preview.typeName ++ "' has no len()"⟩)
    else .ok ()
  | _ => .ok ()

/-- Invoke a tool and go on with its payload. -/
def invokeThen {α : Type} (tool : McpTool) (toolName : String) (arguments : List (String × Json))
    (answer : McpAnswer) (next : List (String × Json) → Except McpError α) : Adapter α :=
  let called := invokeTool tool toolName arguments answer
  (called.1,
    match called.2 with
    | .error e => .error e
    | .ok payload => next payload)

/-- `str(payload.get("error") or default)`. -/
def errorOf (R : Reprs) (payload : List (String × Json)) (default : String) : McpError :=
  .policy (((getD payload "error" .null).orElse (.str default)).pyStr R)

section Collect

variable (R : Reprs) (settings : Settings) (tools : Except PyExc (List McpTool))

/-- Bound the data of a payload to `max_tool_result_chars` and log it. -/
def boundResult (payload : List (String × Json)) : Except McpError (List (String × Json)) :=
  let serialized := dumps R (getD payload "data" .null)
  let bounded :=
    if settings.maxToolResultChars < serialized.length then
      setKey "data" (.obj [("truncated", .bool true), ("original_chars", .num serialized.length),
        ("preview", .str (String.ofList (takeTo settings.maxToolResultChars serialized)))]) payload
    else payload
  match logToolResult bounded with
  | .error e => .error e
  | .ok () => .ok bounded

/-- The arguments that name the target. -/
def targetArguments (clientId : String) (orgId : Option String) : List (String × Json) :=
  [("client_id", .str clientId), ("org_id", .str (orgOf orgId settings))]

def collectCustom (toolName : String) (customNames : List String) (clientId : String)
    (orgId : Option String) (answer : McpAnswer) : Adapter (List (String × Json)) :=
  if toolName ∉ customNames then refuse ("Custom artifact không có trong request: " ++ toolName)
  else
    match getTool tools "collect_custom_artifact"
        "MCP không cung cấp tool collect_custom_artifact" with
    | .error e => ([], .error e)
    | .ok tool =>
      invokeThen tool toolName
        (targetArguments settings clientId orgId ++
          [("artifact", .str (dropPrefix customToolPrefix toolName)), ("limit", .num 50),
            ("offset", .num 0)])
        answer (boundResult R settings)

/-- The window, if the helper has one and the tool declares both ends. -/
def windowArguments (policy : ToolPolicy) (capability : Option ToolCapability) (tool : McpTool)
    (timeFrom timeTo : Time) : List (String × Json) :=
  if (policy.usesTimeRange || capability.any ToolCapability.usesTimeRange) &&
      tool.accepts "DateAfter" && tool.accepts "DateBefore" then
    [("DateAfter", .str (isoZ timeFrom)), ("DateBefore", .str (isoZ timeTo))]
  else []

/-- The page, if the helper has pages and the tool declares both arguments. -/
def pageArguments (capability : Option ToolCapability) (tool : McpTool) (limit offset : ℤ) :
    List (String × Json) :=
  if capability.any ToolCapability.paginated && tool.accepts "limit" && tool.accepts "offset" then
    [("limit", .num (min (max limit 1) 50)), ("offset", .num (max offset 0))]
  else []

def collect (toolName clientId : String) (orgId : Option String) (timeFrom timeTo : Time)
    (limit offset : ℤ) (customNames : List String) (answer : McpAnswer) :
    Adapter (List (String × Json)) :=
  if startsWith customToolPrefix toolName then
    collectCustom R settings tools toolName customNames clientId orgId answer
  else
    match windowsToolPolicies.lookup toolName with
    | none => refuse ("Tool bị chặn bởi allowlist: " ++ toolName)
    | some policy =>
      if toolName = "windows_event_logs" then
        refuse ("windows_event_logs must be accessed through typed helpers: " ++
          "collect_event_log_triage or collect_event_log_detail.")
      else
        match getTool tools toolName ("MCP không cung cấp tool: " ++ toolName) with
        | .error e => ([], .error e)
        | .ok tool =>
          let capability := toolCapabilities.lookup toolName
          invokeThen tool toolName
            (targetArguments settings clientId orgId ++
              windowArguments policy capability tool timeFrom timeTo ++
              pageArguments capability tool limit offset)
            answer (boundResult R settings)

/-! ## Event logs -/

/-- The counts of an event-log result. -/
def sourceCounts (kvs : List (String × Json)) : List (String × Json) :=
  [("rows", getD kvs "rows" (.num 0)), ("original_rows", getD kvs "original_rows" (.num 0)),
    ("returned_rows", getD kvs "returned_rows" (.num 0)),
    ("truncated", .bool (getD kvs "truncated" .null).truthy)]

/-- The entries of `payload.get("data")`, or none if it is not a `dict`. -/
def dataEntries (payload : List (String × Json)) : List (String × Json) :=
  ((getD payload "data" .null).entries?).getD []

/-- The result of an event-log helper: log it, refuse a failed envelope. -/
def sourceResult (default : String)
    (result : List (String × Json) → List (String × Json)) (payload : List (String × Json)) :
    Except McpError (List (String × Json)) :=
  match logToolResult payload with
  | .error e => .error e
  | .ok () =>
    if (getD payload "ok" .null).truthy then .ok (result (dataEntries payload))
    else .error (errorOf R payload default)

/-- The window of an event-log helper. -/
def logWindow (timeFrom timeTo : Time) : List (String × Json) :=
  [("DateAfter", .str (isoZ timeFrom)), ("DateBefore", .str (isoZ timeTo))]

/-- What a triage returns: the counts, and the sampled event ids. -/
def triageResult (kvs : List (String × Json)) : List (String × Json) :=
  sourceCounts kvs ++ [("event_ids", getD kvs "sampled_event_ids" (.arr []))]

def collectEventLogTriage (clientId : String) (orgId : Option String) (timeFrom timeTo : Time)
    (profileId : String) (answer : McpAnswer) : Adapter (List (String × Json)) :=
  match getTool tools "windows_event_logs_triage"
      "MCP không cung cấp tool windows_event_logs_triage" with
  | .error e => ([], .error e)
  | .ok tool =>
    invokeThen tool "windows_event_logs_triage"
      (targetArguments settings clientId orgId ++ logWindow timeFrom timeTo ++
        [("profile_id", .str profileId), ("max_rows", .num 100),
          ("fields", .str "EventTime,Computer,Channel,Provider,EventID")])
      answer (sourceResult R "windows_event_logs_triage thất bại" triageResult)

def collectEventLogDetail (clientId : String) (orgId : Option String) (timeFrom timeTo : Time)
    (eventIds : List String) (profileId : String) (maxRows : ℤ) (answer : McpAnswer) :
    Adapter (List (String × Json)) :=
  if maxRows > 50 then
    refuse ("collect_event_log_detail enforces a hard cap of 50 rows; caller requested " ++
      toString maxRows ++ ".")
  else if profileId ≠ "" ∧ eventIds ≠ [] then
    refuse "Provide either profile_id or event_ids, not both."
  else
    match getTool tools "windows_event_logs_detail"
        "MCP không cung cấp tool windows_event_logs_detail" with
    | .error e => ([], .error e)
    | .ok tool =>
      invokeThen tool "windows_event_logs_detail"
        (targetArguments settings clientId orgId ++ logWindow timeFrom timeTo ++
          [("max_rows", .num maxRows)] ++
          (if profileId = "" then [] else [("profile_id", .str profileId)]) ++
          if eventIds = [] then [] else [("event_ids", .str (join "," eventIds))])
        answer (sourceResult R "windows_event_logs_detail thất bại" sourceCounts)

/-! ## The target -/

/-- The rows of a `list_clients` payload. -/
def clientRows (payload : List (String × Json)) : List Json :=
  let rows := getD payload "data" .null
  let rows :=
    match rows with
    | .obj kvs =>
      (((getD kvs "clients" .null).orElse (getD kvs "items" .null)).orElse
        (getD kvs "rows" .null)).orElse (.arr [rows])
    | _ => rows
  match rows with
  | .arr xs => xs
  | _ => []

def isClientRow (clientId : String) (row : Json) : Bool :=
  match row with
  | .obj kvs =>
    decide (((getD kvs "client_id" .null).orElse (getD kvs "ClientId" .null)).orElse
      (getD kvs "client_id" .null) = .str clientId)
  | _ => false

def verifyTarget (clientId : String) (orgId : Option String) (answer : McpAnswer) : Adapter Json :=
  match getTool tools "list_clients" "MCP không cung cấp tool list_clients" with
  | .error e => ([], .error e)
  | .ok tool =>
    invokeThen tool "list_clients"
      [("search", .str ("^" ++ clientId ++ "$")), ("limit", .num 5),
        ("org_id", .str (orgId.getD ""))]
      answer fun payload =>
        match logToolResult payload with
        | .error e => .error e
        | .ok () =>
          if (getD payload "ok" .null).truthy then
            match (clientRows payload).find? (isClientRow clientId) with
            | some row => .ok row
            | none =>
              .error (.policy ("client_id " ++ clientId ++
                " không tồn tại hoặc ngoài org được cấu hình"))
          else .error (errorOf R payload "Không xác minh được client")

end Collect

/-- The tools of the server that the collection may call. -/
def helperNames : List String :=
  windowsToolPolicies.map Prod.fst ++
    ["windows_event_logs_triage", "windows_event_logs_detail", "collect_custom_artifact"]

/-! ## What is invoked -/

@[simp] theorem refuse_fst {α : Type} (message : String) : (refuse message : Adapter α).1 = [] :=
  rfl

theorem mem_invokeThen {α : Type} {tool : McpTool} {toolName : String}
    {arguments : List (String × Json)} {answer : McpAnswer}
    {next : List (String × Json) → Except McpError α} {call : Invocation} :
    call ∈ (invokeThen tool toolName arguments answer next).1 ↔
      call = ⟨tool.name, arguments, answer⟩ := List.mem_singleton

theorem name_of_getTool {tools : Except PyExc (List McpTool)} {name message : String}
    {tool : McpTool} (h : getTool tools name message = .ok tool) : tool.name = name := by
  unfold getTool at h
  cases tools with
  | error e => cases h
  | ok ts =>
    cases hlast : (ts.filter fun tool => decide (tool.name = name)).getLast? with
    | none =>
      simp only [hlast] at h
      cases h
    | some t =>
      simp only [hlast, Except.ok.injEq] at h
      subst h
      simpa using (List.mem_filter.mp (List.mem_of_getLast? hlast)).2

theorem exists_getTool {tools : List McpTool} {name : String} (message : String)
    (h : ∃ tool ∈ tools, tool.name = name) : ∃ tool, getTool (.ok tools) name message = .ok tool := by
  obtain ⟨tool, htool, hname⟩ := h
  have hne : (tools.filter fun tool => decide (tool.name = name)) ≠ [] :=
    List.ne_nil_of_mem (List.mem_filter.mpr ⟨htool, by simpa using hname⟩)
  rw [getTool, List.getLast?_eq_some_getLast hne]
  exact ⟨_, rfl⟩

@[simp] theorem orgOf_orgOf (orgId : Option String) (settings : Settings) :
    orgOf (some (orgOf orgId settings)) settings = orgOf orgId settings := by
  by_cases h : orgOf orgId settings = ""
  · -- an empty organisation is that of the settings
    have hsettings : settings.velociraptorOrgId = "" := by
      cases orgId with
      | none => exact h
      | some org =>
        rw [orgOf] at h
        split_ifs at h with hne
        · exact absurd h (by simpa [truthy] using hne)
        · exact h
    rw [h, orgOf, if_neg (by simp [truthy]), hsettings]
  · rw [orgOf, if_pos (truthy_eq_true.mpr ⟨_, rfl, h⟩), Option.getD_some]

end AssetInventory.DeepAgent
