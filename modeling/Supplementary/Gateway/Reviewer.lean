/-
# The exact-revision reviewer

`exact_revision_gateway.Reviewer` reviews one revision with one model request.  `submit` admits a
request that carries the whole prompt, exchanges it with the provider and reads the result packet
out of the response; `fail` ends the review.  Whatever `submit` raises, it has called `fail`.

A response that only calls tools leaves the reviewer neither done nor failed, with its budget
spent.
-/
import Supplementary.Gateway.Exchange

namespace Supplementary.Gateway

open Supplementary Review Provider Effects

/-! ## 1. Resource limits -/

/-- `resources.VERSION`. -/
def resourcesVersion : PyStr := "single-json-working-set/v2"

/-- `reserved_bytes` as a number; a float is taken exactly. -/
def numberOf (value : Value) : Py ℚ :=
  match value.number? with
  | some q => .ok q
  | none => .error .typeError

/-- `state_limit(state)`: the wire limit of the contract, and its node limit. -/
def stateLimit (contract : Value) : Py (Int × Int) := do
  require ((← allOf [do .ok ((← contract.item "version").isText resourcesVersion),
    do .ok ((← contract.item "working_set_multiplier").pyEq (.int copies))]) = true)
    "single-resource-contract"
  let nodes ← integer (← contract.item "max_json_nodes") envelopeNodes maxJsonNodes
    "single-json-node-limit"
  require ((← allOf [do .ok ((← contract.item "node_bytes").pyEq (.int nodeBytes)),
    do .ok ((← contract.item "envelope_nodes").pyEq (.int envelopeNodes)),
    do .ok ((← contract.item "max_json_depth").pyEq (.int maxJsonDepth))]) = true)
    "single-json-resource-contract"
  let limit ← integer (← contract.item "max_wire_bytes") 1 maxInt "single-resource-limit"
  let reserved ← numberOf (← contract.item "reserved_bytes")
  let room : ℚ := (reserved - ((nodes.1 + envelopeNodes) * nodeBytes : Int)) / (copies : ℚ)
  require (limit.1 = room.floor) "single-resource-binding"
  .ok (limit.1, nodes.1)

/-- `admission_limits(state, current)`. -/
def admissionLimits (state current : Value) : Py (Int × Int) := do
  let (limit, nodes) ← stateLimit (← state.item "resource_contract")
  let (limit', nodes') ← stateLimit current
  .ok (min limit limit', min nodes nodes')

/-! ## 2. The prompt and the packet -/

/-- The occurrences of the prompt in one part of a message. -/
def promptInPart (prompt : PyStr) (part : Value) : Nat :=
  if part.isDict = true ∧ (part.get "type").isText "input_text" = true then
    match part.get "text" with
    | .str text => text.count prompt
    | _ => 0
  else 0

/-- The occurrences of the prompt in one input item. -/
def promptInItem (prompt : PyStr) (item : Value) : Nat :=
  if item.isDict = true ∧ (item.getD "type" (.str "message")).isText "message" = true ∧
      (item.get "role").isText "user" = true then
    match item.get "content" with
    | .str content => content.count prompt
    | .list parts => (parts.map (promptInPart prompt)).sum
    | _ => 0
  else 0

/-- `contains_prompt(request, prompt)`. -/
def containsPrompt (request : Value) (prompt : PyStr) : Bool :=
  match request.get "input" with
  | .str value => value.count prompt = 1
  | .list items => (items.map (promptInItem prompt)).sum = 1
  | _ => false

/-- The variables `messages` and `calls` of `final_packet`. -/
structure Outputs where
  messages : List Value := []
  calls : Bool := false

/-- One item of the output. -/
def outputItem (outputs : Outputs) (item : Value) : Py Outputs := do
  require (item.isDict = true) "runtime-output"
  let kind := item.get "type"
  if kind.isTextOf ["function_call", "custom_tool_call"] then .ok { outputs with calls := true }
  else if kind.isText "message" then do
    require ((item.get "role").isText "assistant" = true ∧
      (item.get "status").isText "completed" = true) "runtime-message"
    if (item.get "phase").isText "commentary" then .ok outputs
    else do
      require ((item.get "phase").isNone = true ∨ (item.get "phase").isText "final_answer" = true)
        "runtime-message-phase"
      .ok { outputs with messages := outputs.messages ++ [item] }
  else do
    require (kind.isText "reasoning" = true) "runtime-output-kind"
    .ok outputs

/-- The text of a message's only part. -/
def packetText : Value → Py PyStr
  | .list [part] => do
    require (part.isDict = true ∧ (part.get "type").isText "output_text" = true)
      "runtime-refused-output"
    match part.get "text" with
    | .str text =>
      match text.utf8Encode with
      | none => .error .unicodeError
      | some encoded => do
        require (0 < encoded.length ∧ encoded.length ≤ maxResponseBytes) "runtime-final-size"
        .ok text
    | _ => .error (.reviewError "runtime-final-size")
  | _ => .error (.reviewError "runtime-final-content")

/-- `final_packet(response, json_limits=...)`. -/
def finalPacket (rt : Runtime) (response : Value) (limits : JsonLimits) : Py Value :=
  match response.get "output" with
  | .list output => do
    require (output.length ≤ 128) "runtime-output"
    let outputs ← output.foldlM outputItem {}
    if outputs.calls then do
      require (outputs.messages = []) "runtime-mixed-final-output"
      .ok .none
    else
      match outputs.messages with
      | [message] => do
        let text ← packetText (message.get "content")
        strictJsonText rt limits text
      | _ => .error (.reviewError "runtime-missing-final-output")
  | _ => .error (.reviewError "runtime-output")

/-- `BINDINGS`. -/
def bindings : List PyStr :=
  ["base_sha", "head_sha", "merge_base_sha", "integration_tree_sha", "diff_sha256", "input_sha256"]

/-- `type(value) is str and bool(value.strip())`. -/
def isProse : Value → Bool
  | .str s => s.hasText
  | _ => false

/-- One finding of a result. -/
def validateFinding (finding : Value) : Py Unit := do
  keys finding ["severity", "path", "line", "title", "body"] "single-finding"
  require ((← finding.item "severity").isTextOf ["critical", "high", "medium", "low"] = true)
    "single-severity"
  (["path", "title", "body"] : List PyStr).forM fun key => do
    require (isProse (← finding.item key) = true) "single-finding-text"
  match ← finding.item "line" with
  | .none => .ok ()
  | .int line => require (1 ≤ line) "single-finding-line"
  | _ => .error (.reviewError "single-finding-line")

/-- `require(value[key] == metadata[key], "single-result-binding")`. -/
def sameBinding (value metadata : Value) (key : PyStr) : Py Unit := do
  require ((← value.item key).pyEq (← metadata.item key) = true) "single-result-binding"

/-- `validate_result(value, metadata)`. -/
def validateResult (value metadata : Value) : Py Unit := do
  keys value (bindings ++ (["verdict", "summary", "findings"] : List PyStr)) "single-result"
  bindings.forM (sameBinding value metadata)
  require ((← value.item "verdict").isTextOf ["PASS", "FAIL"] = true) "single-verdict"
  require (isProse (← value.item "summary") = true) "single-summary"
  match ← value.item "findings" with
  | .list findings => do
    findings.forM validateFinding
    require ((← value.item "verdict").isText "PASS" = false ∨ findings = []) "single-pass-findings"
  | _ => .error (.reviewError "single-findings")

/-! ## 3. The protected profile -/

/-- `CAPACITY`. -/
def capacity : Value := .dict [
  ("source", .str "https://developers.openai.com/api/docs/models/gpt-5.4-mini"),
  ("observed_on", .str "2026-10-05"),
  ("model", .str "gpt-5.4-mini-2026-03-17"),
  ("context_tokens", .int 400000),
  ("maximum_input_tokens", .int 272000),
  ("maximum_output_tokens", .int 128000)]

/-- `PRICING`. -/
def pricing : Value := .dict [
  ("source", .str "https://developers.openai.com/api/docs/models/gpt-5.4-mini"),
  ("pricing_reference", .str "https://developers.openai.com/api/docs/pricing#text-tokens"),
  ("observed_on", .str "2026-10-02"),
  ("service_tier", .str "default"),
  ("endpoint", .str "https://api.openai.com/v1/responses"),
  ("input_microusd_per_million_tokens", .int 750000),
  ("output_microusd_per_million_tokens", .int 4500000),
  ("accounting", .str "all input charged as uncached; no cached-input discount assumed")]

/-- `config.profile()`. -/
def profile (rt : Runtime) : Py Value := do
  let capacityText ← canonical rt capacity
  let pricingText ← canonical rt pricing
  .ok (.dict [
    ("version", .str "responses-budget/v2"),
    ("model", .str "gpt-5.4-mini-2026-03-17"),
    ("context_tokens", .int 400000),
    ("max_input_tokens", .int 272000),
    ("max_output_tokens", .int 8192),
    ("input_microusd_per_million_tokens", .int 750000),
    ("output_microusd_per_million_tokens", .int 4500000),
    ("capacity_evidence_sha256", .str (rt.sha256 capacityText)),
    ("pricing_evidence_sha256", .str (rt.sha256 pricingText))])

/-! ## 4. The reviewer -/

/-- `VERSION`. -/
def gatewayVersion : PyStr := "exact-revision-gateway/v3"

/-- The attributes of a `Reviewer`. -/
structure Reviewer where
  state : Value
  prompt : PyStr
  startupDeadline : Int
  budget : Option ResponseBudget := none
  started : Int := 0
  admission : Value := .none
  done : Bool := false
  failed : Bool := false

namespace Reviewer

/-- `Reviewer(state, prompt, destination)` at a reading of the two clocks. -/
def init (state : Value) (prompt : PyStr) (monotonicMs unixMs : Int) : Py Reviewer := do
  match ← state.item "expires_unix_ms" with
  | .int expires =>
    .ok { state, prompt, startupDeadline := monotonicMs + max 0 (expires - unixMs) }
  | _ => .error .typeError

/-- The property `deadline`. -/
def deadline (r : Reviewer) : Int :=
  match r.budget with
  | some b => b.deadline
  | none => r.startupDeadline

/-- The failure record of a reviewer that had the attributes `r`. -/
def recordFailure (rt : Runtime) (r : Reviewer) : GatewayAct Reviewer Unit := do
  let settled := r.budget.all fun b => b.active.isNone
  let stateText ← canonical rt r.state
  writeOnce rt "failure.json" (.dict [
    ("version", .str gatewayVersion),
    ("state_sha256", .str (rt.sha256 stateText)),
    ("provider_state", .str (if settled then "settled" else "unknown")),
    ("request_sha256", .list ((PyStr.sorted (r.budget.elim [] (·.requests))).map .str)),
    ("reserved_cost_microusd", .int (r.budget.elim 0 (·.charged)))])

/-- `fail()`. -/
def fail (rt : Runtime) : GatewayAct Reviewer Unit := do
  let r ← Act.read
  if r.done then pure ()
  else do
    Act.update fun r => { r with
      done := true, failed := true, budget := r.budget.map fun b => b.abandon.1 }
    recordFailure rt r

/-- `if self.budget is None: ...`. -/
def openBudget (rt : Runtime) (current : Value) (wireLimit nodeLimit responseWireLimit : Int) :
    GatewayAct Reviewer Unit := do
  let r ← Act.read
  if r.budget.isSome then pure ()
  else do
    Act.update fun r => { r with admission := .dict [
      ("observed_contract", current),
      ("wire_limit", .int wireLimit),
      ("node_limit", .int nodeLimit),
      ("response_wire_limit", .int responseWireLimit)] }
    let started ← monotonicMs
    Act.update fun r => { r with started := started }
    let budget ← ResponseBudget.init rt (← profile rt) (.int 1000000) (.int started)
      (.int (min 100000 (r.startupDeadline - started))) (.int 1) (.int wireLimit)
    Act.update fun r => { r with budget := some budget }

/-- A method of the budget, called through the reviewer. -/
def onBudget {α : Type} (x : GatewayAct ResponseBudget α) : GatewayAct Reviewer α := fun r =>
  match r.budget with
  | none => .ret (.error .attributeError, r)
  | some b => (x b).bind fun (result, b) => .ret (result, { r with budget := some b })

/-- The receipt of an accepted packet. -/
def writeReceipt (rt : Runtime) (packet : Value) : GatewayAct Reviewer Unit := do
  let r ← Act.read
  validateResult packet (← r.state.item "metadata")
  let stateText ← canonical rt r.state
  let model ← (← profile rt).item "model"
  let now ← monotonicMs
  writeOnce rt "receipt.json" (.dict [
    ("version", .str gatewayVersion),
    ("state_sha256", .str (rt.sha256 stateText)),
    ("result", packet),
    ("admission_resources", r.admission),
    ("provider", .dict [
      ("model", model),
      ("request_count", .int (r.budget.elim 0 (·.requests.length))),
      ("response_ids", .list ((PyStr.sorted (r.budget.elim [] (·.responses))).map .str)),
      ("request_sha256", .list ((PyStr.sorted (r.budget.elim [] (·.requests))).map .str)),
      ("max_output_tokens", .int (r.budget.elim 0 (·.profile.maxOutputTokens.1))),
      ("cost_microusd", .int (r.budget.elim 0 (·.charged))),
      ("elapsed_ms", .int (now - r.started))])])

/-- `resources.memory_contract() if admission is None else admission`. -/
def observed : Option Value → GatewayAct Reviewer Value
  | some current => pure current
  | none => memoryContract

/-- What `submit` checks before it touches the budget: the limits it works with. -/
def admitRequest (rt : Runtime) (request : Value) (admission : Option Value) :
    GatewayAct Reviewer (Value × Int × Int) := do
  let r ← Act.read
  require (r.done = false) "single-terminal"
  require ((← monotonicMs) < r.deadline) "single-terminal"
  require (request.isDict = true ∧ containsPrompt request r.prompt = true) "single-full-input"
  let current ← observed admission
  let (wireLimit, nodeLimit) ← admissionLimits r.state current
  let text ← canonical rt request
  preflightJson text ⟨nodeLimit, maxJsonDepth⟩
  pure (current, wireLimit, nodeLimit)

/-- The body of `submit`. -/
def submitBody (rt : Runtime) (request credential : Value) (admission : Option Value) :
    GatewayAct Reviewer Bytes := do
  let (current, wireLimit, nodeLimit) ← admitRequest rt request admission
  let responseWireLimit := min wireLimit maxResponseBytes
  openBudget rt current wireLimit nodeLimit responseWireLimit
  let envelope ← canonical rt (workerMessage (.dict []) credential 100000 false)
  let wire ← onBudget (exchange rt request credential {
    workerInputLimit := wireLimit + envelope.length, limits := ⟨nodeLimit, maxJsonDepth⟩,
    responseByteLimit := responseWireLimit })
  let response ←
    completedResponse rt wire (streaming request) ⟨nodeLimit, maxJsonDepth⟩ responseWireLimit
  let packet ← finalPacket rt response ⟨nodeLimit, maxJsonDepth⟩
  if packet.isNone then pure wire
  else do
    writeReceipt rt packet
    Act.update fun r => { r with done := true }
    pure wire

/-- `submit(request, credential, admission=...)`. -/
def submit (rt : Runtime) (request credential : Value) (admission : Option Value) :
    GatewayAct Reviewer Bytes :=
  (submitBody rt request credential admission).catching fun e => do
    fail rt
    Act.raise e

/-- A call on a reviewer, with whatever arguments. -/
inductive Call
  | submit (request credential : Value) (admission : Option Value)
  | fail

/-- The method a call runs; what `submit` returns is kept, `fail` returns nothing. -/
def call (rt : Runtime) : Call → GatewayAct Reviewer (Option Bytes)
  | .submit request credential admission => do
    let wire ← submit rt request credential admission
    pure (some wire)
  | .fail => do
    fail rt
    pure none

end Reviewer

end Supplementary.Gateway
