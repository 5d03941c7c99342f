import AssetInventory.Lib.Lexical
import AssetInventory.Lib.PyText

/-!
# The queries that are sent to Velociraptor

The methods of the client put their arguments into the text of a query.  `collect_artifact` escapes them;
the others put them between double quotes as they are.

* `vqlStrLiteral`: the literal with the value escaped.
* `Call.vql`: the text that each method hands to `_vql_query`.
* `Call.query`: what the text is meant to say: fixed tokens, and one literal for each argument.
* `lex_vql_iff`: it says that exactly when the arguments that are not escaped are plain.
* `getHunt_injects`: a hunt id that selects every hunt.
-/

namespace AssetInventory.Velociraptor

open Lexical PyJson

def vqlStrLiteral (s : String) : String :=
  "\"" ++ replace "\"" "\\\"" (replace "\\" "\\\\" s) ++ "\""

abbrev VelociraptorError := String

/-! ## The texts that the methods hand to `_vql_query` -/

def collectArtifact (clientId : String) : List String → Except VelociraptorError String
  | [] => .error "artifacts list rỗng"
  | artifact :: _ =>
    .ok ("SELECT collect_client(client_id=" ++ vqlStrLiteral clientId ++
      ", artifacts=" ++ vqlStrLiteral artifact ++ ") AS Collection FROM scope()")

def getHuntStatus (huntId : String) : String :=
  "SELECT * FROM hunts() WHERE hunt_id = " ++ "\"" ++ huntId ++ "\"" ++ " LIMIT 1"

def getHunt (huntId : String) : String :=
  "SELECT * FROM hunts() WHERE hunt_id = " ++ "\"" ++ huntId ++ "\"" ++ " LIMIT 1"

def listClientFlows (clientId : String) (limit : ℤ) : String :=
  "SELECT session_id AS FlowId, state AS State, " ++
    "request.artifacts AS Artifacts, create_time AS Created, " ++
    "active_time AS LastActive, total_uploaded_bytes AS Mb, " ++
    "total_collected_rows AS Rows, request.creator AS Creator " ++
    "FROM flows(client_id=" ++ "\"" ++ clientId ++ "\"" ++
    (") ORDER BY create_time DESC LIMIT " ++ toString limit)

def getClientMetadata (clientId : String) : String :=
  "SELECT client_id, os_info, last_seen_at, last_ip, agent_information " ++
    "FROM clients() WHERE client_id = " ++ "\"" ++ clientId ++ "\"" ++ " LIMIT 1"

def getFlowDetails (clientId flowId : String) : String :=
  "SELECT state, status, request FROM flows(client_id=" ++ "\"" ++ clientId ++ "\"" ++
    ") WHERE session_id = " ++ "\"" ++ flowId ++ "\"" ++ " LIMIT 1"

def getTable (clientId flowId artifact : String) (rows : ℤ) : String :=
  "SELECT * FROM source(client_id=" ++ "\"" ++ clientId ++ "\"" ++
    ", flow_id=" ++ "\"" ++ flowId ++ "\"" ++ ", artifact=" ++ "\"" ++ artifact ++ "\"" ++
    (") LIMIT " ++ toString rows)

/-- A call of one of the methods. -/
inductive Call where
  | collectArtifact (clientId : String) (artifacts : List String)
  | getHuntStatus (huntId : String)
  | getHunt (huntId : String)
  | listClientFlows (clientId : String) (limit : ℤ)
  | getClientMetadata (clientId : String)
  | getFlowDetails (clientId flowId : String)
  | getTable (clientId flowId artifact : String) (rows : ℤ)

/-- The text that the method hands to `_vql_query`. -/
def Call.vql : Call → Except VelociraptorError String
  | .collectArtifact clientId artifacts => Velociraptor.collectArtifact clientId artifacts
  | .getHuntStatus huntId => .ok (Velociraptor.getHuntStatus huntId)
  | .getHunt huntId => .ok (Velociraptor.getHunt huntId)
  | .listClientFlows clientId limit => .ok (Velociraptor.listClientFlows clientId limit)
  | .getClientMetadata clientId => .ok (Velociraptor.getClientMetadata clientId)
  | .getFlowDetails clientId flowId => .ok (Velociraptor.getFlowDetails clientId flowId)
  | .getTable clientId flowId artifact rows =>
    .ok (Velociraptor.getTable clientId flowId artifact rows)

/-! ## What the queries are meant to say -/

def collectArtifactQuery (clientId artifact : String) : Query where
  head := "SELECT collect_client(client_id="
  params := [(.escaped clientId, ", artifacts="),
    (.escaped artifact, ") AS Collection FROM scope()")]

def huntQuery (huntId : String) : Query where
  head := "SELECT * FROM hunts() WHERE hunt_id = "
  params := [(.raw huntId, " LIMIT 1")]

def listClientFlowsQuery (clientId : String) (limit : ℤ) : Query where
  head := "SELECT session_id AS FlowId, state AS State, " ++
    "request.artifacts AS Artifacts, create_time AS Created, " ++
    "active_time AS LastActive, total_uploaded_bytes AS Mb, " ++
    "total_collected_rows AS Rows, request.creator AS Creator " ++
    "FROM flows(client_id="
  params := [(.raw clientId, ") ORDER BY create_time DESC LIMIT " ++ toString limit)]

def clientMetadataQuery (clientId : String) : Query where
  head := "SELECT client_id, os_info, last_seen_at, last_ip, agent_information " ++
    "FROM clients() WHERE client_id = "
  params := [(.raw clientId, " LIMIT 1")]

def flowDetailsQuery (clientId flowId : String) : Query where
  head := "SELECT state, status, request FROM flows(client_id="
  params := [(.raw clientId, ") WHERE session_id = "), (.raw flowId, " LIMIT 1")]

def tableQuery (clientId flowId artifact : String) (rows : ℤ) : Query where
  head := "SELECT * FROM source(client_id="
  params := [(.raw clientId, ", flow_id="), (.raw flowId, ", artifact="),
    (.raw artifact, ") LIMIT " ++ toString rows)]

/-- The query of a call as fixed texts and parameters; its tokens are those of the texts, and a literal for
each parameter. -/
def Call.query : Call → Query
  | .collectArtifact clientId artifacts => collectArtifactQuery clientId (artifacts.headD "")
  | .getHuntStatus huntId => huntQuery huntId
  | .getHunt huntId => huntQuery huntId
  | .listClientFlows clientId limit => listClientFlowsQuery clientId limit
  | .getClientMetadata clientId => clientMetadataQuery clientId
  | .getFlowDetails clientId flowId => flowDetailsQuery clientId flowId
  | .getTable clientId flowId artifact rows => tableQuery clientId flowId artifact rows

/-- The arguments that are put into the query as they are. -/
def Call.unescaped : Call → List String
  | .collectArtifact _ _ => []
  | .getHuntStatus huntId => [huntId]
  | .getHunt huntId => [huntId]
  | .listClientFlows clientId _ => [clientId]
  | .getClientMetadata clientId => [clientId]
  | .getFlowDetails clientId flowId => [clientId, flowId]
  | .getTable clientId flowId artifact _ => [clientId, flowId, artifact]

theorem toList_vqlStrLiteral (s : String) : (vqlStrLiteral s).toList = quote s := by
  have hchar : ∀ c : Char, (if '\\' = c then ['\\', '\\'] else [c]).flatMap
      (fun d => if '"' = d then ['\\', '"'] else [d]) = quoteChar c := by
    intro c
    by_cases hback : c = '\\'
    · subst hback
      decide
    · by_cases hquote : c = '"'
      · subst hquote
        decide
      · simp [quoteChar, hback, hquote, Ne.symm hback, Ne.symm hquote]
  have hback : "\\".toList = ['\\'] := by decide
  have hquote : "\"".toList = ['"'] := by decide
  have hbacks : "\\\\".toList = ['\\', '\\'] := by decide
  have hquotes : "\\\"".toList = ['\\', '"'] := by decide
  simp only [vqlStrLiteral, replace, String.toList_append, String.toList_ofList, hback, hquote, hbacks,
    hquotes, replaceChars_singleton, List.flatMap_assoc, hchar, quote]
  rfl

theorem clean_toString (n : ℤ) : Clean (toString n).toList := by
  intro c hc
  have hchar := PyTime.mem_toString_int hc
  constructor
  · rintro rfl
    exact absurd hchar (by decide)
  · rintro rfl
    exact absurd hchar (by decide)

theorem fixed_query (call : Call) : call.query.Fixed := by
  have hlimit : Query.Fixed ⟨" LIMIT 1", []⟩ :=
    Query.fixed_nil (clean_literal _ (by decide +kernel))
  cases call with
  | collectArtifact clientId artifacts =>
    exact Query.Fixed.cons (clean_literal _ (by decide +kernel))
      (Query.Fixed.cons (clean_literal _ (by decide +kernel))
        (Query.fixed_nil (clean_literal _ (by decide +kernel))))
  | getHuntStatus huntId => exact Query.Fixed.cons (clean_literal _ (by decide +kernel)) hlimit
  | getHunt huntId => exact Query.Fixed.cons (clean_literal _ (by decide +kernel)) hlimit
  | listClientFlows clientId limit =>
    refine Query.Fixed.cons (clean_append (clean_append (clean_append (clean_append ?_ ?_) ?_) ?_) ?_)
      (Query.fixed_nil (clean_append ?_ (clean_toString limit)))
    all_goals exact clean_literal _ (by decide +kernel)
  | getClientMetadata clientId =>
    exact Query.Fixed.cons (clean_append (clean_literal _ (by decide +kernel))
      (clean_literal _ (by decide +kernel))) hlimit
  | getFlowDetails clientId flowId =>
    exact Query.Fixed.cons (clean_literal _ (by decide +kernel))
      (Query.Fixed.cons (clean_literal _ (by decide +kernel)) hlimit)
  | getTable clientId flowId artifact rows =>
    exact Query.Fixed.cons (clean_literal _ (by decide +kernel))
      (Query.Fixed.cons (clean_literal _ (by decide +kernel))
        (Query.Fixed.cons (clean_literal _ (by decide +kernel))
          (Query.fixed_nil (clean_append (clean_literal _ (by decide +kernel)) (clean_toString rows)))))

theorem toList_quotationMark : "\"".toList = ['"'] := by decide

theorem render_one (head value text : String) :
    head ++ "\"" ++ value ++ "\"" ++ text = Query.render ⟨head, [(.raw value, text)]⟩ := by
  apply String.toList_injective
  simp [Query.render, renderParams, Param.render, toList_quotationMark]

theorem render_two (head a middle b text : String) :
    head ++ "\"" ++ a ++ "\"" ++ middle ++ "\"" ++ b ++ "\"" ++ text =
      Query.render ⟨head, [(.raw a, middle), (.raw b, text)]⟩ := by
  apply String.toList_injective
  simp [Query.render, renderParams, Param.render, toList_quotationMark]

theorem render_three (head a first b second c text : String) :
    head ++ "\"" ++ a ++ "\"" ++ first ++ "\"" ++ b ++ "\"" ++ second ++ "\"" ++ c ++ "\"" ++ text =
      Query.render ⟨head, [(.raw a, first), (.raw b, second), (.raw c, text)]⟩ := by
  apply String.toList_injective
  simp [Query.render, renderParams, Param.render, toList_quotationMark]

theorem render_escaped (head a middle b text : String) :
    head ++ vqlStrLiteral a ++ middle ++ vqlStrLiteral b ++ text =
      Query.render ⟨head, [(.escaped a, middle), (.escaped b, text)]⟩ := by
  apply String.toList_injective
  simp [Query.render, renderParams, Param.render, toList_vqlStrLiteral]

theorem vql_eq {call : Call} {vql : String} (h : call.vql = .ok vql) : vql = call.query.render := by
  cases call with
  | collectArtifact clientId artifacts =>
    cases artifacts with
    | nil => exact absurd h nofun
    | cons artifact rest => exact (Except.ok.inj h).symm.trans (render_escaped _ _ _ _ _)
  | getHuntStatus huntId => exact (Except.ok.inj h).symm.trans (render_one _ _ _)
  | getHunt huntId => exact (Except.ok.inj h).symm.trans (render_one _ _ _)
  | listClientFlows clientId limit => exact (Except.ok.inj h).symm.trans (render_one _ _ _)
  | getClientMetadata clientId => exact (Except.ok.inj h).symm.trans (render_one _ _ _)
  | getFlowDetails clientId flowId => exact (Except.ok.inj h).symm.trans (render_two _ _ _ _ _)
  | getTable clientId flowId artifact rows =>
    exact (Except.ok.inj h).symm.trans (render_three _ _ _ _ _ _ _)

/-! ## What they say -/

theorem rawValues_query (call : Call) : rawValues call.query.params = call.unescaped := by
  cases call <;> rfl

theorem exists_vql {call : Call} {s : String} (h : s ∈ call.unescaped) :
    ∃ vql, call.vql = .ok vql := by
  cases call with
  | collectArtifact clientId artifacts => exact absurd h List.not_mem_nil
  | _ => exact ⟨_, rfl⟩

/-- **The text of a query is read as its fixed tokens with one literal for each argument exactly when** the
arguments that are not escaped are plain. -/
theorem lex_vql_iff (e : Escapes) (call : Call) :
    (∀ vql, call.vql = .ok vql → lex e vql = some (call.query.tokens e)) ↔
      ∀ s ∈ call.unescaped, Plain e s.toList := by
  constructor
  · intro h s hs
    obtain ⟨vql, hvql⟩ := exists_vql hs
    have hlex := h vql hvql
    rw [vql_eq hvql, lex_render_iff (fixed_query call), rawValues_query] at hlex
    exact hlex s hs
  · intro h vql hvql
    rw [vql_eq hvql, lex_render_iff (fixed_query call), rawValues_query]
    exact h

/-- A backslash escapes backslashes and double quotes, and stands for itself otherwise. -/
def plainEscapes : Escapes where
  unescape c := if c = '\\' ∨ c = '"' then some c else none
  unescape_backslash := by decide
  unescape_quote := by decide

example : lex plainEscapes (getHunt "H") = some [.word "SELECT", .symbol '*', .word "FROM", .word "hunts",
    .symbol '(', .symbol ')', .word "WHERE", .word "hunt_id", .symbol '=', .literal "H", .word "LIMIT",
    .word "1"] := by
  decide +kernel

theorem getHunt_injects : ¬ ∀ (e : Escapes) (call : Call) (vql : String), call.vql = .ok vql →
      lex e vql = some (call.query.tokens e) := by
  intro h
  have hhunt := h plainEscapes (.getHunt "H\" OR hunt_id != \"") _ rfl
  revert hhunt
  decide +kernel

end AssetInventory.Velociraptor
