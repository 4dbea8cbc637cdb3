/-
# The bounded transport

`bounded_review_transport.py` and the lexical guard of `single_review_resources.py`: what the
gateway does with the bytes of a response before it believes them.  Nothing here asks the
environment; the workers that fetch the bytes are in `Gateway.Exchange`.

The guard counts containers and scalars without building a tree.  A form feed or a vertical tab
is neither white space nor a scalar to it: it counts the same position again until the node
budget is spent.
-/
import Supplementary.Python.Json
import Supplementary.Python.Text
import Supplementary.Review.Kernel

namespace Supplementary.Gateway

open Supplementary Review

/-! ## 1. The lexical guard -/

/-- `MAX_JSON_NODES`. -/
def maxJsonNodes : Int := 16384

/-- `NODE_BYTES`. -/
def nodeBytes : Int := 1024

/-- `ENVELOPE_NODES`. -/
def envelopeNodes : Int := 64

/-- `MAX_JSON_DEPTH`. -/
def maxJsonDepth : Int := 64

/-- `COPIES`. -/
def copies : Int := 32

/-- The pair `json_limits`. -/
structure JsonLimits where
  nodes : Int
  depth : Int

/-- The text after the end of a string; `slashes` backslashes stand in a row before it.  A quote
after an odd number of them is escaped. -/
def afterString : (slashes : Nat) → Bytes → Option Bytes
  | _, [] => none
  | slashes, c :: rest =>
    if c = 34 then if slashes % 2 = 0 then some rest else afterString 0 rest
    else if c = 92 then afterString (slashes + 1) rest
    else afterString 0 rest

/-- `[\s,\]}:]` of a bytes pattern. -/
def isDelimiter (c : UInt8) : Bool := (9 ≤ c && c ≤ 13) || c ∈ ([32, 44, 93, 125, 58] : List UInt8)

/-- The loop of `preflight_json`, with `nodes` and `depth` so far. -/
def preflightFrom (limits : JsonLimits) : (fuel : Nat) → (nodes depth : Int) → Bytes → Py Unit
  | _, _, depth, [] => raiseUnless (.valueError "single-json-depth") (depth = 0)
  | 0, _, _, _ => .error (.valueError "single-json-depth")
  | fuel + 1, nodes, depth, c :: rest =>
    if c ∈ ([32, 9, 10, 13, 44, 58] : List UInt8) then preflightFrom limits fuel nodes depth rest
    else if c = 125 ∨ c = 93 then do
      raiseUnless (.valueError "single-json-depth") (0 ≤ depth - 1)
      preflightFrom limits fuel nodes (depth - 1) rest
    else do
      raiseUnless (.valueError "single-json-node-budget") (nodes + 1 ≤ limits.nodes)
      if c = 123 ∨ c = 91 then do
        raiseUnless (.valueError "single-json-depth") (depth + 1 ≤ limits.depth)
        preflightFrom limits fuel (nodes + 1) (depth + 1) rest
      else if c = 34 then
        match afterString 0 rest with
        | none => .error (.valueError "single-json-string")
        | some rest => preflightFrom limits fuel (nodes + 1) depth rest
      else if isDelimiter c then .error (.valueError "single-json-node-budget")
      else preflightFrom limits fuel (nodes + 1) depth (rest.dropWhile fun c => !isDelimiter c)

/-- `preflight_json(payload, node_limit, depth_limit)` on bytes. -/
def preflightJson (payload : Bytes) (limits : JsonLimits) : Py Unit :=
  preflightFrom limits payload.length 0 0 payload

/-! ## 2. JSON of a response -/

/-- The hooks of `strict_json`. -/
def strictHooks : Json.Hooks :=
  ⟨.reviewError "transport-duplicate-key", some (.reviewError "transport-json-constant")⟩

/-- `json.loads` under `except (json.JSONDecodeError, UnicodeError)`. -/
def strictLoads (rt : Runtime) (text : PyStr) : Py Value :=
  match Json.loads rt strictHooks text with
  | .error .jsonDecodeError | .error .unicodeError => .error (.reviewError "transport-invalid-json")
  | r => r

/-- `strict_json(payload, json_limits=...)` of bytes. -/
def strictJson (rt : Runtime) (limits : JsonLimits) (payload : Bytes) : Py Value :=
  match utf8Decode payload with
  | none => .error .unicodeError
  | some points => do
    preflightJson payload limits
    strictLoads rt ⟨points⟩

/-- `strict_json(text, json_limits=...)` of a string. -/
def strictJsonText (rt : Runtime) (limits : JsonLimits) (text : PyStr) : Py Value :=
  match text.utf8Encode with
  | none => .error .unicodeError
  | some payload => do
    preflightJson payload limits
    strictLoads rt text

/-- `MAX_RESPONSE_BYTES`. -/
def maxResponseBytes : Int := 8000000

/-- `response_limit(response_byte_limit)` for a limit that is not `None`. -/
def responseLimit (limit : Int) : Py {n : Int // 1 ≤ n ∧ n ≤ maxResponseBytes} :=
  integer (.int limit) 1 maxResponseBytes "transport-response-limit"

/-- `bounded_response(payload, response_byte_limit)`. -/
def boundedResponse (payload : Bytes) (limit : Int) : Py Bytes := do
  let maximum ← responseLimit limit
  require (0 < payload.length ∧ payload.length ≤ maximum.1) "transport-response-size"
  .ok payload

/-! ## 3. Event streams -/

/-- What the loop over the lines of a block has read: the event's name and its data lines. -/
structure Block where
  eventName : Option PyStr := none
  data : List PyStr := []

/-- One line of a block. -/
def blockLine (block : Block) (line : PyStr) : Py Block :=
  if line.startsWith ":" then .ok block
  else
    match line.partitionColon with
    | none => .error (.reviewError "transport-sse-field")
    | some (field, value) =>
      let value := if value.startsWith " " then ⟨value.codePoints.drop 1⟩ else value
      if field = "event" then do
        require (block.eventName.isNone = true) "transport-sse-event"
        .ok { block with eventName := some value }
      else if field = "data" then .ok { block with data := block.data ++ [value] }
      else .error (.reviewError "transport-sse-field")

/-- The variables of the loop over the blocks. -/
structure Stream where
  result : Option Value := none
  identity : Option PyStr := none
  sequence : Int := -1
  count : Nat := 0

/-- `identity = response.get("id")` and the check on it. -/
def responseIdentity : Value → Py PyStr
  | .str identity => do
    require (0 < identity.length ∧ identity.length ≤ 256) "transport-response-identity"
    .ok identity
  | _ => .error (.reviewError "transport-response-identity")

/-- `type(kind) is str and kind.startswith("response.")`. -/
def eventKind : Value → Py PyStr
  | .str kind => do
    require (kind.startsWith "response." = true) "transport-sse-event"
    .ok kind
  | _ => .error (.reviewError "transport-sse-event")

/-- The identity after an event of a kind: the first event creates the response. -/
def streamIdentity (stream : Stream) (kind : PyStr) (count : Nat) (event : Value) : Py PyStr :=
  if kind = "response.created" then do
    require (stream.identity.isNone = true ∧ count = 1) "transport-response-identity"
    let response := event.get "response"
    require (response.isDict = true) "transport-response-shape"
    responseIdentity (response.get "id")
  else
    match stream.identity with
    | some identity => .ok identity
    | none => .error (.reviewError "transport-response-identity")

/-- The check on the response that an event carries, if it carries one. -/
def sameIdentity (identity : PyStr) : Option Value → Py Unit
  | none => .ok ()
  | some response => require (response.isDict = true ∧ (response.get "id").isText identity = true)
      "transport-response-identity"

/-- One event of the stream. -/
def streamEvent (stream : Stream) (eventName : Option PyStr) (event : Value) : Py Stream := do
  require (event.isDict = true) "transport-sse-event"
  let kind ← eventKind (event.get "type")
  require (eventName = none ∨ eventName = some kind) "transport-event-mismatch"
  let _ ← integer (event.get "sequence_number") (stream.sequence + 1) (stream.sequence + 1)
    "transport-sequence"
  require (stream.count + 1 ≤ 100000) "transport-event-budget"
  require (kind ∉ ([("response.failed" : String), "response.incomplete", "response.cancelled"] :
    List PyStr)) "transport-incomplete"
  let identity ← streamIdentity stream kind (stream.count + 1) event
  sameIdentity identity (event.find? "response")
  let stream := { stream with
    identity := some identity, sequence := stream.sequence + 1, count := stream.count + 1 }
  if kind = "response.completed" then do
    require ((event.get "response").isDict = true) "transport-response-shape"
    .ok { stream with result := some (event.get "response") }
  else .ok stream

/-- One block of the stream. -/
def streamBlock (rt : Runtime) (limits : JsonLimits) (stream : Stream) (text : PyStr) : Py Stream :=
  if text.length = 0 then .ok stream
  else do
    let block ← (text.segments "\n").foldlM blockLine {}
    if block.data = [] then do
      require (block.eventName.isNone = true) "transport-sse-data"
      .ok stream
    else do
      require (stream.result.isNone = true) "transport-after-completion"
      let event ← strictJsonText rt limits (PyStr.join "\n" block.data)
      streamEvent stream block.eventName event

/-- The response of a complete event stream. -/
def streamedResponse (rt : Runtime) (limits : JsonLimits) (payload : Bytes) : Py Value :=
  match utf8Decode payload with
  | none => .error .unicodeError
  | some points => do
    let text := (PyStr.mk points).replace "\r\n" "\n"
    require (13 ∉ text.codePoints ∧ text.endsWith "\n\n" = true) "transport-incomplete-stream"
    let stream ← (text.segments "\n\n").foldlM (streamBlock rt limits) {}
    match stream.result with
    | none => .error (.reviewError "transport-incomplete-stream")
    | some response => .ok response

/-- `completed_response(payload, streaming=..., json_limits=..., response_byte_limit=...)`. -/
def completedResponse (rt : Runtime) (payload : Bytes) (streaming : Bool) (limits : JsonLimits)
    (byteLimit : Int) : Py Value := do
  let _ ← boundedResponse payload byteLimit
  if streaming then streamedResponse rt limits payload
  else do
    let response ← strictJson rt limits payload
    require (response.isDict = true) "transport-response-shape"
    .ok response

/-! ## 4. The count request -/

/-- `COUNT_FIELDS`. -/
def countFields : List PyStr := ["model", "input", "instructions", "tools", "tool_choice",
  "parallel_tool_calls", "reasoning", "text", "truncation", "conversation", "previous_response_id"]

/-- `count_request(request, json_limits=...)`. -/
def countRequest (rt : Runtime) (request : Value) (limits : JsonLimits) : Py Value := do
  let text ← canonical rt (.dict (request.entries.filter fun e => e.1 ∈ countFields))
  strictJson rt limits text

end Supplementary.Gateway
