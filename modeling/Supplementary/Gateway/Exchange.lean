/-
# One exchange with the provider

`bounded_review_transport.run_worker` and `exchange`.  A worker is a process of its own that makes
one request; the gateway asks the environment to start it, to wait for it and to clean up after
it, and every one of these may raise, whatever the class of the exception.

The gateway always passes byte, node and depth limits, so the branches for a missing limit are
left out, and the response is always read back from a temporary file.
-/
import Supplementary.Gateway.Transport
import Supplementary.Lib.Effects
import Supplementary.Provider.Budget

namespace Supplementary.Gateway

open Supplementary Review Provider Effects

/-! ## 1. The environment -/

/-- A worker process: the message it is sent and the limits on its command line. -/
structure Worker where
  request : Value
  credential : Value
  timeoutMs : Int
  counting : Bool
  inputLength : Nat
  limits : JsonLimits
  responseByteLimit : Int

/-- What the gateway asks its environment. -/
inductive GatewayOp
  /-- `transport.monotonic_ms()`. -/
  | monotonicMs
  /-- `resources.memory_contract()`. -/
  | memoryContract
  /-- `tempfile.TemporaryFile(mode="w+b")`. -/
  | openOutput
  /-- `subprocess.Popen(...)`. -/
  | startWorker (w : Worker)
  /-- `child.communicate(message, timeout=...)`, and the return code. -/
  | communicate (timeoutMs : Int)
  /-- `os.fstat(output.fileno()).st_size`. -/
  | outputSize
  /-- `output.seek(0)` and `output.read(maximum + 1)`. -/
  | readOutput (limit : Int)
  /-- What `finally` does to a child: kill it if it still runs, close its pipes, wait for it. -/
  | reap
  /-- `output.close()`. -/
  | closeOutput
  /-- The file operations of `write_once(destination / name, value)`. -/
  | writeOnce (name : String) (encoded : Bytes)

/-- What an operation returns. -/
abbrev GatewayOp.Result : GatewayOp → Type
  | .monotonicMs | .communicate _ | .outputSize => Int
  | .memoryContract => Value
  | .readOutput _ => Bytes
  | _ => Unit

/-- The gateway's signature: every operation may raise anything. -/
abbrev GatewayAns : GatewayOp → Type := Fallible PyError GatewayOp.Result

/-- A method of the gateway on an object with attributes `σ`. -/
abbrev GatewayAct (σ α : Type) : Type := Act GatewayAns σ PyError α

section

variable {σ : Type}

def monotonicMs : GatewayAct σ Int := Act.call GatewayOp.monotonicMs

def memoryContract : GatewayAct σ Value := Act.call GatewayOp.memoryContract

def openOutput : GatewayAct σ Unit := Act.call GatewayOp.openOutput

def startWorker (w : Worker) : GatewayAct σ Unit := Act.call (GatewayOp.startWorker w)

def communicate (timeoutMs : Int) : GatewayAct σ Int := Act.call (GatewayOp.communicate timeoutMs)

def outputSize : GatewayAct σ Int := Act.call GatewayOp.outputSize

def readOutput (limit : Int) : GatewayAct σ Bytes := Act.call (GatewayOp.readOutput limit)

def reap : GatewayAct σ Unit := Act.call GatewayOp.reap

def closeOutput : GatewayAct σ Unit := Act.call GatewayOp.closeOutput

/-- `write_once(destination / name, value)`. -/
def writeOnce (rt : Runtime) (name : String) (value : Value) : GatewayAct σ Unit := do
  let encoded ← canonical rt value
  Act.call (GatewayOp.writeOnce name encoded)

/-! ## 2. One worker -/

/-- The limits that a call of `exchange` passes on. -/
structure Options where
  workerInputLimit : Int
  limits : JsonLimits
  responseByteLimit : Int

/-- `type(credential) is str and 1 <= len(credential) <= 4096`. -/
def isCredential : Value → Bool
  | .str s => 1 ≤ s.length && s.length ≤ 4096
  | _ => false

/-- The message for a worker. -/
def workerMessage (request credential : Value) (timeoutMs : Int) (counting : Bool) : Value := .dict [
  ("request", request), ("credential", credential), ("timeout_ms", .int timeoutMs),
  ("counting", .bool counting)]

/-- What happens between the start of a worker and the end of it. -/
def converse (deadline maximum : Int) : GatewayAct σ Bytes := do
  let remaining := deadline - (← monotonicMs)
  require (0 < remaining) "provider-timeout"
  let returncode ← communicate remaining
  require (returncode = 0) "transport-upstream-failure"
  let size ← outputSize
  require (0 < size ∧ size ≤ maximum) "transport-response-size"
  let payload ← readOutput (maximum + 1)
  boundedResponse payload maximum

/-- `run_worker(request, credential, deadline, counting=..., ...)`.  The last steps are its
`finally`: there is a child to reap only if it was started. -/
def runWorker (rt : Runtime) (request credential : Value) (deadline : Int) (counting : Bool)
    (options : Options) : GatewayAct σ Bytes := do
  let maximum ← responseLimit options.responseByteLimit
  require (isCredential credential = true) "transport-credential"
  let remaining := deadline - (← monotonicMs)
  require (0 < remaining) "provider-timeout"
  let message ← canonical rt (workerMessage request credential remaining counting)
  let inputLimit ← integer (.int options.workerInputLimit) 1 maxInt "transport-resource-limit"
  require (message.length ≤ inputLimit.1) "transport-request-size"
  openOutput
  let started ← Act.attempt (startWorker
    { request, credential, timeoutMs := remaining, counting, inputLength := message.length,
      limits := ⟨options.limits.nodes + envelopeNodes, options.limits.depth + 1⟩,
      responseByteLimit := maximum.1 })
  match started with
  | .error e => do
    closeOutput
    Act.raise e
  | .ok () => do
    let payload ← Act.attempt (converse deadline maximum.1)
    reap
    closeOutput
    Act.ofExcept payload

end

/-! ## 3. The exchange -/

/-- A call of a method of the budget. -/
def ledger (rt : Runtime) (call : ResponseBudget.Call) :
    GatewayAct ResponseBudget ResponseBudget.Returned := fun b =>
  .ret ((b.step rt call).2, (b.step rt call).1)

/-- `ledger.reserve(request, now_ms=...)`. -/
def reserve (rt : Runtime) (request : Value) (nowMs : Int) :
    GatewayAct ResponseBudget (PyStr × Value) := do
  match ← ledger rt (.reserve request (.int nowMs)) with
  | .reserved digest bounded => pure (digest, bounded)
  | _ => Act.raise .typeError

/-- `streaming=request.get("stream", False)`; the budget has required a `bool`. -/
def streaming (request : Value) : Bool := (request.getD "stream" (.bool false)).isTrue

/-- The body of `exchange`. -/
def exchangeBody (rt : Runtime) (request credential : Value) (options : Options) :
    GatewayAct ResponseBudget Bytes := do
  let (digest, bounded) ← reserve rt request (← monotonicMs)
  let maximum ← responseLimit options.responseByteLimit
  let counted ← countRequest rt bounded options.limits
  let payload ← runWorker rt counted credential (← Act.read).deadline true options
  let payload ← boundedResponse payload maximum.1
  let count ← strictJson rt options.limits payload
  let _ ← ledger rt (.admitTokens (.str digest) bounded count (.int (← monotonicMs)))
  let payload ← runWorker rt bounded credential (← Act.read).deadline false options
  let response ← completedResponse rt payload (streaming bounded) options.limits maximum.1
  let _ ← ledger rt (.complete (.str digest) response (.int (← monotonicMs)))
  pure payload

/-- `exchange(ledger, request, credential, ...)`: whatever the body raises, the budget is
abandoned. -/
def exchange (rt : Runtime) (request credential : Value) (options : Options) :
    GatewayAct ResponseBudget Bytes :=
  (exchangeBody rt request credential options).catching fun e => do
    let _ ← ledger rt .abandon
    Act.raise e

end Supplementary.Gateway
