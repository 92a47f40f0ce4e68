/-
  File:      MessageNexus/Mcp/Adapter.lean
  Subject:   THE MCP ADAPTER (`message-mcp-send`): which lines of stdin it takes for calls, and
             what it answers by itself.

  * `McpCodec` -- what the adapter uses of the JSON parser and the datom codec;
  * `Adapter.callRequest`, `threadQuery` -- the checks on a `tools/call`;
  * `Adapter.synchronous` -- every other request and notification;
  * `Adapter.after` -- the adapter after a line, whatever else the line does.
-/
import MessageNexus.Lib.Json
import MessageNexus.Signal

namespace MessageNexus

open SignalFlow SignalMessage Json

/-! ## 1. The parts outside the repository -/

/-- `serde_json::from_str`, `Potential::<Query>::actualize` under the adapter's budget (its error
    as `{:?}` prints it), the compact datom of a response, and the crate's version. -/
class McpCodec where
  fromStr : String → Option Value
  actualize : String → Except String SignalMessage.Query
  compact : SignalMessage.Response → String
  version : String

/-! ## 2. Calls -/

structure CallRequest where
  id : Value
  key : String
  progressToken : Value
  query : SignalMessage.Query

/-- `Adapter`; `seenIds` is the set of the keys of the calls so far, without repetition. -/
structure Adapter where
  initialized : Bool
  ready : Bool
  seenIds : List String
  deriving DecidableEq, Repr

/-- `Adapter::new`. -/
def Adapter.new : Adapter := ⟨false, false, []⟩

def maxSeenCalls : Nat := 65536

/-- `BuildsRpcErrors::rpc_error`. -/
def rpcError (id : Value) (code : Int) (message : String) : Value :=
  .object [("jsonrpc", .string "2.0"), ("id", id),
    ("error", .object [("code", .number (.int code)), ("message", .string message)])]

/-- A response with a result. -/
def rpcResult (id result : Value) : Value :=
  .object [("jsonrpc", .string "2.0"), ("id", id), ("result", result)]

/-- The method of a message. -/
def methodOf (input : Value) : Option String := (input.get "method").bind Value.asStr

/-- A string or a number. -/
def isScalar (v : Value) : Bool := v.isString || v.isNumber

/-- `char::is_control`. -/
def isControl (c : Char) : Bool := decide (c.toNat < 32) || decide (127 ≤ c.toNat ∧ c.toNat < 160)

/-- A thread id as the harness may stamp it. -/
def validThread (s : String) : Bool :=
  !s.isEmpty && decide (s.utf8ByteSize ≤ 256) && !s.toList.any isControl

/-- The native thread of a call's parameters. -/
def threadOf (params : Value) : Option String :=
  ((params.pointer ["_meta", "threadId"]).bind Value.asStr).filter validThread

section Queries

variable [McpCodec]

/-- The query of the tool `send`. -/
def sendQuery (args : List (String × Value)) (thread : String) :
    Except String SignalMessage.Query := do
  if args.length ≠ 1 ∨ (Value.object args).get "query" = none then
    throw "Send accepts only query; sender, process and thread are transport-owned"
  match ((Value.object args).get "query").bind Value.asStr with
  | none => throw "query must be a Send datom"
  | some text =>
    match McpCodec.actualize text with
    | .error e => throw ("Invalid Send datom: " ++ e)
    | .ok (.send request) => return .sendThread request thread
    | .ok _ => throw "Tool accepts Send only; no Configure or caller-supplied SendThread"

/-- The query of the tool `observe_sends`. -/
def observeQuery (args : List (String × Value)) (thread : String) :
    Except String SignalMessage.Query := do
  if args.length > 1 ∨ args.any fun entry => entry.1 != "cursor" then
    throw "observe_sends accepts only an optional cursor"
  match (Value.object args).get "cursor" with
  | none => return .observeThread none thread
  | some value =>
    match value.asI64 with
    | none => throw "cursor must be an integer"
    | some cursor => return .observeThread (some cursor) thread

/-- `Adapter::thread_query`. -/
def threadQuery (params : Value) : Except String SignalMessage.Query := do
  match (params.get "name").bind Value.asStr with
  | none => throw "Missing tool name"
  | some name =>
  match (params.get "arguments").bind Value.asObject with
  | none => throw "Missing arguments"
  | some args =>
  match threadOf params with
  | none => throw "Missing or invalid harness-stamped _meta.threadId"
  | some thread =>
    if name = "send" then sendQuery args thread
    else if name = "observe_sends" then observeQuery args thread
    else throw "Unknown tool"

/-- The parameters of a message. -/
def paramsOf (input : Value) : Value := (input.get "params").getD .null

/-- `Adapter::call_request`: the call and the adapter that has seen it, or the error to answer,
    which leaves the adapter as it is. -/
def Adapter.callRequest (adapter : Adapter) (input : Value) :
    Except Value (CallRequest × Adapter) := do
  match (input.get "id").filter isScalar with
  | none => throw (rpcError .null (-32600) "Invalid request id")
  | some id =>
    let key := id.text
    if key ∈ adapter.seenIds then
      throw (rpcError id (-32600) "Request id has already been used")
    else if adapter.seenIds.length ≥ maxSeenCalls then
      throw (rpcError id (-32000) "Session request-id limit reached; restart this MCP process")
    else if !adapter.ready then
      throw (rpcError id (-32002) "MCP initialization is incomplete")
    else
      match ((paramsOf input).pointer ["_meta", "progressToken"]).filter isScalar with
      | none =>
        throw (rpcError id (-32602)
          "Send requires _meta.progressToken so delivery status can be streamed")
      | some progressToken =>
        match threadQuery (paramsOf input) with
        | .error message => throw (rpcError id (-32602) message)
        | .ok query =>
          return (⟨id, key, progressToken, query⟩,
            { adapter with seenIds := key :: adapter.seenIds })

/-! ## 3. Everything else -/

/-- The result of `initialize`. -/
def initializeResult : Value :=
  .object [("protocolVersion", .string "2025-06-18"),
    ("capabilities", .object [("tools", .object [("listChanged", .bool false)])]),
    ("serverInfo", .object [("name", .string "message-mcp-send"),
      ("version", .string McpCodec.version)])]

/-- The result of `tools/list`. -/
def toolsListResult : Value :=
  .object [("tools", .array [
    .object [("name", .string "send"),
      ("description", .string
        "Submit a Send and stream durable delivery status until terminal state. Cancellation stops observation, not the queued delivery."),
      ("inputSchema", .object [("type", .string "object"),
        ("properties", .object [("query", .object [("type", .string "string")])]),
        ("required", .array [.string "query"]), ("additionalProperties", .bool false)])],
    .object [("name", .string "observe_sends"),
      ("description", .string
        "Resume this authenticated sender's durable delivery stream from an optional cursor. The harness supplies threadId."),
      ("inputSchema", .object [("type", .string "object"),
        ("properties", .object [("cursor", .object [("type", .string "integer")])]),
        ("additionalProperties", .bool false)])]])]

/-- `Adapter::synchronous`: the answer, if there is one, and the adapter after it. -/
def Adapter.synchronous (adapter : Adapter) (input : Value) : Option Value × Adapter :=
  if (input.get "jsonrpc").bind Value.asStr ≠ some "2.0" then
    (some (rpcError ((input.get "id").getD .null) (-32600) "Invalid Request"), adapter)
  else
    match input.get "id" with
    | none =>
      if methodOf input = some "notifications/initialized" ∧ adapter.initialized = true then
        (none, { adapter with ready := true })
      else (none, adapter)
    | some id =>
      if !isScalar id then
        (some (rpcError .null (-32600) "Invalid request id"), adapter)
      else if methodOf input = some "initialize" ∧ adapter.initialized = false then
        (some (rpcResult id initializeResult), { adapter with initialized := true })
      else if methodOf input = some "ping" then
        (some (rpcResult id (.object [])), adapter)
      else if !adapter.ready then
        (some (rpcError id (-32002) "MCP initialization is incomplete"), adapter)
      else if methodOf input = some "tools/list" then
        (some (rpcResult id toolsListResult), adapter)
      else if methodOf input = some "tools/call" then (none, adapter)
      else (some (rpcError id (-32601) "Method not found"), adapter)

/-- What a line does to the adapter. -/
def Adapter.after (adapter : Adapter) (line : String) : Adapter :=
  match McpCodec.fromStr line with
  | none => adapter
  | some input =>
    if methodOf input = some "notifications/cancelled" then adapter
    else if methodOf input = some "tools/call" then
      match adapter.callRequest input with
      | .error _ => adapter
      | .ok (_, adapter') => adapter'
    else (adapter.synchronous input).2

/-- The adapter after these lines. -/
def adapterAfter (lines : List String) : Adapter := lines.foldl Adapter.after .new

end Queries

end MessageNexus
