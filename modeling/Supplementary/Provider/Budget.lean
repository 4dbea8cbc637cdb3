/-
# The response budget

`bounded_review_provider.ResponseBudget` admits the model requests of one review.  `reserve`
validates a request and charges for a full context and the output cap; `admit_tokens` binds the
provider's input count to it; `complete` settles the reservation down to the actual usage;
`abandon` and every rejected call end the review for good, with the reservation kept.

Prices and capacity come from a validated profile.  As with the review policy, the model's
`Profile` carries its bounds, and `cost_le` is the one fact about money that needs them.
-/
import Supplementary.Review.Kernel

namespace Supplementary.Provider

open Supplementary Review

/-! ## 1. The profile -/

/-- `PROFILE_KEYS`. -/
def profileKeys : List PyStr := ["version", "model", "context_tokens", "max_input_tokens",
  "max_output_tokens", "input_microusd_per_million_tokens", "output_microusd_per_million_tokens",
  "capacity_evidence_sha256", "pricing_evidence_sha256"]

/-- A profile that `validate_profile` accepted: what the budget reads out of it. -/
structure Profile where
  model : PyStr
  contextTokens : {n : Int // 1 ≤ n ∧ n ≤ 10000000}
  maxInputTokens : {n : Int // 1 ≤ n ∧ n ≤ contextTokens.1}
  maxOutputTokens : {n : Int // 1 ≤ n ∧ n ≤ contextTokens.1}
  inputPrice : {n : Int // 1 ≤ n ∧ n ≤ 1000000000}
  outputPrice : {n : Int // 1 ≤ n ∧ n ≤ 1000000000}

/-- The evidence entries: 64 lower-case hexadecimal digits. -/
def isDigest (s : PyStr) : Bool :=
  s.length = 64 && s.codePoints.all fun c => (48 ≤ c && c ≤ 57) || (97 ≤ c && c ≤ 102)

/-- `type(profile["model"]) is str and 0 < len(profile["model"]) <= 128`. -/
def modelName : Value → Py PyStr
  | .str s => do
    require (0 < s.length ∧ s.length ≤ 128) "provider-model"
    .ok s
  | _ => .error (.reviewError "provider-model")

/-- `validate_profile(profile)`. -/
def validateProfile (profile : Value) : Py Profile := do
  keys profile profileKeys "provider-profile-shape"
  require ((← profile.item "version").isText "responses-budget/v2" = true) "provider-profile-version"
  let model ← modelName (← profile.item "model")
  let contextTokens ← integer (← profile.item "context_tokens") 1 10000000 "provider-context"
  let maxInputTokens ←
    integer (← profile.item "max_input_tokens") 1 contextTokens.1 "provider-input-bound"
  let maxOutputTokens ←
    integer (← profile.item "max_output_tokens") 1 contextTokens.1 "provider-output-bound"
  let inputPrice ←
    integer (← profile.item "input_microusd_per_million_tokens") 1 1000000000 "provider-price"
  let outputPrice ←
    integer (← profile.item "output_microusd_per_million_tokens") 1 1000000000 "provider-price"
  (["capacity_evidence_sha256", "pricing_evidence_sha256"] : List PyStr).forM fun name => do
    require (isStrWith isDigest (← profile.item name) = true) "provider-evidence"
  .ok { model, contextTokens, maxInputTokens, maxOutputTokens, inputPrice, outputPrice }

/-- `cost(profile, input_tokens, output_tokens)`, rounded up once. -/
def cost (profile : Profile) (inputTokens outputTokens : Int) : Int :=
  (inputTokens * profile.inputPrice.1 + outputTokens * profile.outputPrice.1 + 999999) / 1000000

/-- **Rounding up keeps the order**: usage within the reserved tokens costs no more than the
reservation. -/
theorem cost_le (profile : Profile) {i o i' o' : Int} (hi : i ≤ i') (ho : o ≤ o') :
    cost profile i o ≤ cost profile i' o' := by
  have hin : i * profile.inputPrice.1 ≤ i' * profile.inputPrice.1 :=
    Int.mul_le_mul_of_nonneg_right hi (by have := profile.inputPrice.2.1; omega)
  have hout : o * profile.outputPrice.1 ≤ o' * profile.outputPrice.1 :=
    Int.mul_le_mul_of_nonneg_right ho (by have := profile.outputPrice.2.1; omega)
  exact Int.ediv_le_ediv (by decide) (by omega)

theorem cost_nonneg (profile : Profile) {i o : Int} (hi : 0 ≤ i) (ho : 0 ≤ o) :
    0 ≤ cost profile i o := by
  have hzero : cost profile 0 0 = 0 := by simp [cost]
  exact hzero ▸ cost_le profile hi ho

/-! ## 2. The ledger -/

/-- The tuple `self.active`. -/
structure Active where
  digest : PyStr
  reserved : Int
  outputCap : Int

/-- The attributes of a `ResponseBudget`. -/
structure ResponseBudget where
  profile : Profile
  limit : Int
  deadline : Int
  lastMs : Int
  requestByteLimit : Int
  maxRequests : Int
  requests : List PyStr := []
  responses : List PyStr := []
  charged : Int := 0
  active : Option Active := none
  failed : Bool := false
  admitted : Option PyStr := none

/-- `2**63 - 1`. -/
def maxInt : Int := 2 ^ 63 - 1

/-- `REQUEST_KEYS`. -/
def requestKeys : List PyStr := ["model", "input", "instructions", "tools", "tool_choice",
  "parallel_tool_calls", "max_output_tokens", "reasoning", "text", "temperature", "top_p", "stream",
  "stream_options", "store", "background", "truncation", "service_tier", "previous_response_id",
  "conversation", "include", "metadata", "prompt_cache_key", "safety_identifier", "client_metadata"]

/-- `_tools(tools, depth)`, with the nesting levels that are left instead of the depth. -/
def tools : (levels : Nat) → Value → Py Unit
  | levels + 1, .list items => do
    require (items.length ≤ 64) "provider-tools"
    items.forM fun tool => do
      require (tool.isDict = true) "provider-tools"
      if (tool.get "type").isText "namespace" then tools levels (tool.get "tools")
      else require ((tool.get "type").isTextOf ["function", "custom"] = true) "provider-hosted-tool"
  | _, _ => .error (.reviewError "provider-tools")

/-- A message's content: text, or a list of text parts. -/
def messageContent : Value → Py Unit
  | .str _ => .ok ()
  | .list parts => do
    require (parts.length ≤ 1024) "provider-input"
    parts.forM fun part => require (part.isDict = true ∧
      (part.get "type").isTextOf ["input_text", "output_text"] = true ∧
      (part.get "text").isStr = true) "provider-nontext-input"
  | _ => .error (.reviewError "provider-input")

/-- `_text_input(value)`. -/
def textInput : Value → Py Unit
  | .str _ => .ok ()
  | .list items => do
    require (items.length ≤ 1024) "provider-input"
    items.forM fun item => do
      require (item.isDict = true) "provider-input"
      let kind := item.getD "type" (.str "message")
      if kind.isText "message" then messageContent (item.get "content")
      else do
        require (kind.isTextOf ["reasoning", "function_call", "function_call_output",
          "custom_tool_call", "custom_tool_call_output"] = true) "provider-unbound-input"
        if kind.isTextOf ["function_call_output", "custom_tool_call_output"] then
          require ((item.get "output").isStr = true) "provider-nontext-input"
        else .ok ()
  | _ => .error (.reviewError "provider-input")

/-- The client telemetry of a request, if it has any: a small map of strings. -/
def clientMetadata (rt : Runtime) : Option Value → Py Unit
  | none => .ok ()
  | some (.dict entries) => do
    require (entries.length ≤ 64 ∧ ∀ e ∈ entries, e.2.isStr = true) "provider-client-metadata"
    let text ← canonical rt (.dict entries)
    require (text.length ≤ 16384) "provider-client-metadata"
  | some _ => .error (.reviewError "provider-client-metadata")

/-- The normalised request: a copy without the client metadata, with the fields that bound it. -/
def boundedRequest (rt : Runtime) (request : Value) (outputCap : Int) : Py Value := do
  let entries := request.reload.entries
  clientMetadata rt ((Value.dict entries).find? "client_metadata")
  .ok (.dict (update (entries.filter fun e => e.1 ≠ "client_metadata")
    [("max_output_tokens", .int outputCap), ("store", .bool false), ("background", .bool false),
      ("truncation", .str "disabled"), ("service_tier", .str "default")]))

namespace ResponseBudget

/-- `ResponseBudget(profile, ...)`.  The copy of the profile goes through JSON, which can only
change the model's name. -/
def init (rt : Runtime) (profile maxCostMicrousd startMs timeoutMs maxRequests
    requestByteLimit : Value) : Py ResponseBudget := do
  let checked ← validateProfile profile
  let limit ← integer maxCostMicrousd 1 1000000 "provider-cost-budget"
  let start ← integer startMs 0 maxInt "provider-clock"
  let timeout ← integer timeoutMs 1 100000 "provider-time-budget"
  let maxRequests ← integer maxRequests 1 16 "provider-request-budget"
  let _ ← canonical rt profile
  let requestByteLimit ← integer requestByteLimit 1 maxInt "provider-resource-bound"
  .ok { profile := { checked with model := checked.model.reload }, limit := limit.1,
        deadline := start.1 + timeout.1, lastMs := start.1,
        requestByteLimit := requestByteLimit.1, maxRequests := maxRequests.1 }

/-- `_clock(now_ms)`. -/
def clock (b : ResponseBudget) (nowMs : Value) : Py ResponseBudget := do
  let now ← integer nowMs b.lastMs maxInt "provider-clock"
  require (now.1 < b.deadline) "provider-timeout"
  .ok { b with lastMs := now.1 }

/-- What `reserve` checks after the clock: the request's digest, its normal form and the output
cap. -/
def checkRequest (rt : Runtime) (b : ResponseBudget) (request : Value) :
    Py (PyStr × Value × Int) := do
  require (request.isDict = true) "provider-request-size"
  require ((← canonical rt request).length ≤ b.requestByteLimit) "provider-request-size"
  require (request.keySet ⊆ requestKeys) "provider-request-feature"
  require ((request.get "model").isText b.profile.model = true) "provider-model-drift"
  let tier := request.getD "service_tier" (.str "default")
  require (tier.isNone = true ∨ tier.isText "default" = true) "provider-service-tier"
  require ((request.getD "background" (.bool false)).isFalse = true) "provider-background"
  require ((request.getD "store" (.bool false)).isFalse = true) "provider-storage"
  require ((request.getD "truncation" (.str "disabled")).isText "disabled" = true)
    "provider-truncation"
  require ((request.get "previous_response_id").isNone = true ∧
    (request.get "conversation").isNone = true) "provider-unbound-state"
  require ((request.getD "stream" (.bool false)).isBool = true) "provider-stream"
  require ((request.get "instructions").isNone = true ∨ (request.get "instructions").isStr = true)
    "provider-instructions"
  tools 3 (request.getD "tools" (.list []))
  textInput (request.get "input")
  let outputCap ← integer (request.getD "max_output_tokens" (.int b.profile.maxOutputTokens.1)) 1
    b.profile.maxOutputTokens.1 "provider-output-bound"
  let bounded ← boundedRequest rt request outputCap.1
  let text ← canonical rt bounded
  require (text.length ≤ b.requestByteLimit) "provider-request-size"
  let digest := rt.sha256 text
  require (digest ∉ b.requests) "provider-request-replay"
  require (b.requests.length < b.maxRequests) "provider-request-budget"
  require (b.charged + cost b.profile b.profile.contextTokens.1 outputCap.1 ≤ b.limit)
    "provider-cost-admission"
  .ok (digest, bounded, outputCap.1)

/-- What `admit_tokens` checks after the clock. -/
def checkCount (rt : Runtime) (b : ResponseBudget) (active : Active) (digest request count : Value) :
    Py Unit := do
  require (digest.isText active.digest = true) "provider-substituted-count"
  require (active.digest = rt.sha256 (← canonical rt request)) "provider-substituted-count"
  keys count ["object", "input_tokens"] "provider-token-count-shape"
  require ((← count.item "object").isText "response.input_tokens" = true)
    "provider-token-count-object"
  let inputTokens ← integer (← count.item "input_tokens") 0 b.profile.maxInputTokens.1
    "provider-input-admission"
  require (inputTokens.1 + active.outputCap ≤ b.profile.contextTokens.1) "provider-context-admission"

/-- The response id of a completed response. -/
def responseId (b : ResponseBudget) : Value → Py PyStr
  | .str identity => do
    require (0 < identity.length ∧ identity.length ≤ 256 ∧ identity ∉ b.responses)
      "provider-response-replay"
    .ok identity
  | _ => .error (.reviewError "provider-response-replay")

/-- What `complete` checks after the clock: the response's id and the actual cost. -/
def checkResponse (b : ResponseBudget) (active : Active) (digest response : Value) :
    Py (PyStr × Int) := do
  require (b.admitted = some active.digest) "provider-token-count-required"
  require (digest.isText active.digest = true) "provider-substituted-response"
  require (response.isDict = true ∧ (response.get "status").isText "completed" = true)
    "provider-incomplete"
  require ((response.get "error").isNone = true ∧
    (response.get "incomplete_details").isNone = true) "provider-incomplete"
  require ((response.get "model").isText b.profile.model = true) "provider-model-drift"
  require ((response.getD "service_tier" (.str "default")).isText "default" = true)
    "provider-service-tier"
  let identity ← b.responseId (response.get "id")
  let usage := response.get "usage"
  require (usage.isDict = true) "provider-missing-usage"
  let inputTokens ← integer (usage.get "input_tokens") 0 b.profile.maxInputTokens.1
    "provider-input-overrun"
  require (inputTokens.1 + active.outputCap ≤ b.profile.contextTokens.1) "provider-context-overrun"
  let outputTokens ← integer (usage.get "output_tokens") 0 active.outputCap
    "provider-output-overrun"
  let totalTokens ← integer (usage.get "total_tokens") 0
    (b.profile.contextTokens.1 + active.outputCap) "provider-usage"
  require (totalTokens.1 = inputTokens.1 + outputTokens.1) "provider-usage"
  let actual := cost b.profile inputTokens.1 outputTokens.1
  require (actual ≤ active.reserved) "provider-cost-overrun"
  .ok (identity, actual)

/-! ## 3. Calls -/

/-- What a call returns. -/
inductive Returned
  | reserved (digest : PyStr) (bounded : Value)
  | admitted
  | settled (actual : Int)
  | abandoned

/-- A call, with whatever arguments. -/
inductive Call
  | reserve (request nowMs : Value)
  | admitTokens (digest request count nowMs : Value)
  | complete (digest response nowMs : Value)
  | abandon

/-- `except (ReviewError, TypeError, ValueError, OverflowError, RecursionError)`. -/
def Caught : PyError → Prop
  | .typeError | .overflowError | .recursionError => True
  | e => e.isValueError = true

instance : DecidablePred Caught := fun e => by
  unfold Caught
  split <;> infer_instance

/-- The handler of each method: `self.failed = True; raise`. -/
def fail (b : ResponseBudget) (e : PyError) : ResponseBudget × Py Returned :=
  (if Caught e then { b with failed := true } else b, .error e)

/-- `reserve(request, now_ms=...)`.  What follows the clock may fail after the clock moved. -/
def reserve (rt : Runtime) (b : ResponseBudget) (request nowMs : Value) :
    ResponseBudget × Py Returned :=
  if b.failed = false ∧ b.active.isNone = true then
    match b.clock nowMs with
    | .error e => b.fail e
    | .ok b => match b.checkRequest rt request with
      | .error e => b.fail e
      | .ok (digest, bounded, outputCap) =>
        let reserved := cost b.profile b.profile.contextTokens.1 outputCap
        ({ b with charged := b.charged + reserved, requests := b.requests ++ [digest],
                  active := some { digest, reserved, outputCap } }, .ok (.reserved digest bounded))
  else b.fail (.reviewError "provider-active-or-terminal")

/-- `admit_tokens(digest, request, count, now_ms=...)`. -/
def admitTokens (rt : Runtime) (b : ResponseBudget) (digest request count nowMs : Value) :
    ResponseBudget × Py Returned :=
  match b.active with
  | none => b.fail (.reviewError "provider-active-or-terminal")
  | some active =>
    if b.failed = false ∧ b.admitted = none then
      match b.clock nowMs with
      | .error e => b.fail e
      | .ok b => match b.checkCount rt active digest request count with
        | .error e => b.fail e
        | .ok () => ({ b with admitted := some active.digest }, .ok .admitted)
    else b.fail (.reviewError "provider-active-or-terminal")

/-- `complete(digest, response, now_ms=...)`. -/
def complete (b : ResponseBudget) (digest response nowMs : Value) : ResponseBudget × Py Returned :=
  match b.active with
  | none => b.fail (.reviewError "provider-active-or-terminal")
  | some active =>
    if b.failed = false then
      match b.clock nowMs with
      | .error e => b.fail e
      | .ok b => match b.checkResponse active digest response with
        | .error e => b.fail e
        | .ok (identity, actual) =>
          ({ b with charged := b.charged - (active.reserved - actual),
                    responses := b.responses ++ [identity], active := none, admitted := none },
            .ok (.settled actual))
    else b.fail (.reviewError "provider-active-or-terminal")

/-- `abandon()`. -/
def abandon (b : ResponseBudget) : ResponseBudget × Py Returned :=
  ({ b with failed := true }, .ok .abandoned)

def step (rt : Runtime) (b : ResponseBudget) : Call → ResponseBudget × Py Returned
  | .reserve request nowMs => b.reserve rt request nowMs
  | .admitTokens digest request count nowMs => b.admitTokens rt digest request count nowMs
  | .complete digest response nowMs => b.complete digest response nowMs
  | .abandon => b.abandon

end ResponseBudget

end Supplementary.Provider
