/-
# The phases of a validation

`dispatch_if_absent`, `poll_window`, `download_and_verify_receipt` and `main` of
`modulix-validation-receipt.py`.  A validation is one process, or a process that dispatches and
others that poll for a bounded time each; what a process prints is all that the next one is given.

The controller is whatever answers the calls of `ControllerClient`; so are the clock and the file
system, and every call may raise anything.  `validate_nexus_manifest` is one of these calls here: it
may return any manifest.  A clock reading is an exact number.

`while True` of `poll_window` is counted down on `rounds`; `none` is a loop that needs more rounds.
-/
import Supplementary.Receipt.Request
import Supplementary.Lib.Effects
import Mathlib.Data.Rat.Defs

namespace Supplementary.Receipt

open Supplementary Effects

/-! ## 1. The environment -/

/-- The output directory and the request: they determine the temporary directory beside it,
`output_directory.parent / f".{output_directory.name}-{request_id}"`. -/
structure Place where
  directory : PyStr
  requestId : PyStr

inductive ReceiptOp
  /-- `validate_nexus_manifest(args.nexus_manifest)`. -/
  | manifest
  /-- `GhControllerClient()`. -/
  | client
  | installation
  | installationRepositories
  | controllerSha
  | workflow
  | dispatch (requestJson : Bytes) (requestId : PyStr)
  | workflowRuns
  | jobs (runId : Int)
  | artifacts (runId : Int)
  /-- The temporary directory or the output directory is there. -/
  | outputPresent (place : Place)
  /-- `temporary.mkdir(parents=True)`. -/
  | makeTemporary (place : Place)
  | download (runId : Int) (artifact : PyStr) (place : Place)
  /-- `[path.name for path in temporary.iterdir()]`. -/
  | entries (place : Place)
  /-- The receipt or the bundle is a link, or the bundle is no regular file. -/
  | unsafeFile (place : Place)
  /-- The bytes of the receipt, if it is a regular file. -/
  | receiptBytes (place : Place)
  | verifySignature (place : Place) (controllerSha : PyStr)
  /-- `temporary.rename(output_directory)`. -/
  | rename (place : Place)
  /-- `temporary.exists() and not temporary.is_symlink()`. -/
  | temporaryPresent (place : Place)
  /-- `shutil.rmtree(temporary)`. -/
  | removeTemporary (place : Place)
  /-- `file_sha256(receipt_path)`. -/
  | digest (place : Place)
  /-- `datetime.now(UTC).strftime(...)`. -/
  | now
  | monotonic
  | sleep (seconds : ℚ)
  | print (text : Bytes)

/-- What an operation returns. -/
abbrev ReceiptOp.Result : ReceiptOp → Type
  | .manifest | .installation | .workflow => Value
  | .installationRepositories | .entries _ => List PyStr
  | .controllerSha | .digest _ | .now => PyStr
  | .workflowRuns | .jobs _ | .artifacts _ => List Value
  | .outputPresent _ | .unsafeFile _ | .temporaryPresent _ => Bool
  | .receiptBytes _ => Option Bytes
  | .monotonic => ℚ
  | _ => Unit

abbrev ReceiptAns : ReceiptOp → Type := Fallible PyError ReceiptOp.Result

/-- A step of a process. -/
abbrev ReceiptAct (α : Type) : Type := Act ReceiptAns Unit PyError α

def call (op : ReceiptOp) : ReceiptAct op.Result := Act.call op

/-! ## 2. The controller -/

/-- `validate_installation(client, app_slug, installation_id)`. -/
def validateInstallation (slug : PyStr) (installationId : Int) : ReceiptAct Unit := do
  require (slug = appSlug ∧ installationId = appInstallationId)
    "GitHub App action outputs do not identify the approved installation"
  let installation ← call .installation
  let account := installation.get "account"
  let permissions := installation.get "permissions"
  require (account.isDict = true ∧ permissions.isDict = true)
    "GitHub App installation response is incomplete"
  require ((installation.get "id").pyEq (.int appInstallationId) = true ∧
      (installation.get "app_slug").isText appSlug = true ∧
      (installation.get "repository_selection").isText "selected" = true ∧
      (installation.get "target_type").isText "Organization" = true ∧
      (account.get "login").isText "lightning-it" = true ∧ permissions.pyEq appPermissions = true)
    "GitHub App installation identity or permissions differ"
  let repositories ← call .installationRepositories
  require (repositories = [controllerRepository])
    "GitHub App token is not scoped exclusively to ModuLix"

/-- `validate_workflow(payload, controller_sha)`. -/
def validateWorkflow (payload : Value) (controllerSha : PyStr) : Py Unit := do
  require (PyStr.isHex 40 controllerSha = true) "controller main SHA is invalid"
  require ((payload.get "path").isText controllerWorkflow = true ∧
      (payload.get "state").isText "active" = true ∧
      (payload.get "name").isText "MLX-90 collection candidate validation" = true)
    "ModuLix controller workflow identity differs"

/-- The runs that match, in the order they are listed. -/
def matchingRuns (requestId controllerSha : PyStr) (runs : List Value) : List Value :=
  runs.filter fun run => matchingRun requestId controllerSha run

/-- `dispatch_if_absent(client, request_json, request_id, controller_sha)`. -/
def dispatchIfAbsent (rt : Runtime) (request : Request) (controllerSha : PyStr) :
    ReceiptAct (Bool × Option RunId) := do
  require (PyStr.isHex 64 request.id = true ∧ rt.sha256 request.json = request.id)
    "ModuLix request ID is not the SHA-256 of the canonical request"
  let runs ← call .workflowRuns
  match matchingRuns request.id controllerSha runs with
  | [] => do
    call (.dispatch request.json request.id)
    pure (true, none)
  | [run] => do
    let bound ← identity run
    require (bound.2 = 1) "existing ModuLix validation run is not on attempt one"
    pure (false, some bound)
  | _ => Act.raise (.valueError "multiple ModuLix runs already match the exact validation request")

/-! ## 3. Polling -/

/-- What a run that matches is held against: the run that is bound, or attempt one of a run that was
just dispatched. -/
def bindRun (bound : Option RunId) (initialOne : Bool) (run : Value) : Py RunId := do
  let id ← identity run
  match bound with
  | none =>
    require (¬ (initialOne = true ∧ id.2 ≠ 1)) "new ModuLix validation run is not on attempt one"
  | some b => require (id = b) "bound ModuLix validation run identity changed"
  pure id

/-- Whether a run is over. -/
def isOver (run : Value) : Py Bool :=
  match run.get "status" with
  | .list _ | .dict _ => .error .typeError
  | status =>
    if status.isText "completed" then do
      require ((run.get "conclusion").isText "success" = true)
        "exact ModuLix validation run did not succeed"
      pure true
    else do
      require (status.isTextOf ["queued", "in_progress", "pending", "requested", "waiting"] = true)
        "exact ModuLix validation run has an unknown status"
      pure false

/-- One poll: the run, if it is over, and what is bound then. -/
def judge (bound : Option RunId) (initialOne : Bool) (matching : List Value) :
    Py (Option Value × Option RunId) :=
  match matching with
  | [] => do
    require (bound = none) "bound ModuLix validation run disappeared"
    pure (none, none)
  | [run] => do
    let id ← bindRun bound initialOne run
    let ended ← isOver run
    pure (if ended then some run else none, some id)
  | _ => .error (.valueError "multiple ModuLix runs match the exact validation request")

/-- `DEFAULT_POLL_SECONDS`. -/
def pollSeconds : ℚ := 10

/-- The loop of `poll_window`. -/
def pollRounds (requestId controllerSha : PyStr) (initialOne : Bool) (deadline : ℚ) :
    (rounds : Nat) → Option RunId → ReceiptAct (Option (Option Value × Option RunId))
  | 0, _ => pure none
  | rounds + 1, bound => do
    let runs ← call .workflowRuns
    let (ended, bound) ← judge bound initialOne (matchingRuns requestId controllerSha runs)
    match ended with
    | some run => pure (some (some run, bound))
    | none => do
      let now ← call .monotonic
      if deadline - now ≤ 0 then pure (some (none, bound))
      else do
        call (.sleep (min pollSeconds (deadline - now)))
        pollRounds requestId controllerSha initialOne deadline rounds bound

/-- The two numbers of a bound run, checked again. -/
def checkBound : Option RunId → Py (Option RunId)
  | none => .ok none
  | some (id, attempt) => do
    let id ← positiveInteger (.int id) "bound controller run ID"
    let attempt ← positiveInteger (.int attempt) "bound controller run attempt"
    pure (some (id, attempt))

theorem checkBound_eq_ok {bound bound' : Option RunId} (h : checkBound bound = .ok bound') :
    bound' = bound := by
  cases bound with
  | none => exact (Except.ok.inj h).symm
  | some b =>
    simp only [checkBound, bind_eq_ok, positiveInteger_eq_ok, Value.int.injEq, pure, Except.pure,
      Except.ok.injEq] at h
    obtain ⟨_, ⟨rfl, -⟩, _, ⟨rfl, -⟩, rfl⟩ := h
    rfl

/-- `poll_window(client, request_id, controller_sha, timeout_seconds, ...)`. -/
def pollWindow (rounds : Nat) (requestId controllerSha : PyStr) (timeout : Int)
    (bound : Option RunId) (initialOne : Bool) :
    ReceiptAct (Option (Option Value × Option RunId)) := do
  let _ ← positiveInteger (.int timeout) "ModuLix polling window"
  let bound ← checkBound bound
  require (bound = none ∨ initialOne = false)
    "a newly dispatched ModuLix run cannot have a prior binding"
  let start ← call .monotonic
  pollRounds requestId controllerSha initialOne (start + timeout) rounds bound

/-- `require_bound_success(client, request_id, controller_sha, bound_run)`. -/
def requireBoundSuccess (requestId controllerSha : PyStr) (bound : RunId) : ReceiptAct Unit := do
  let runs ← call .workflowRuns
  match matchingRuns requestId controllerSha runs with
  | [run] => do
    let id ← identity run
    require (id = bound ∧ succeeded run = true)
      "bound ModuLix validation run changed before receipt acceptance"
  | _ => Act.raise (.valueError "bound ModuLix validation run is missing or ambiguous")

/-! ## 4. The receipt -/

/-- `artifact.get("name") == name and artifact.get("expired") is False`. -/
def isArtifact (name : PyStr) (artifact : Value) : Bool :=
  (artifact.get "name").isText name && (artifact.get "expired").isFalse

/-- The body of the `try` statement of `download_and_verify_receipt`. -/
def fetchReceipt (rt : Runtime) (request : Request) (run : Value) (runId : Int) (place : Place) :
    ReceiptAct Unit := do
  call (.download runId (artifactPrefix ++ request.id) place)
  let entries ← call (.entries place)
  require (PyStr.sorted entries = [receiptName, receiptBundleName])
    "ModuLix receipt artifact contains an unexpected file set"
  let irregular ← call (.unsafeFile place)
  require (irregular = false) "ModuLix receipt artifact contains an unsafe file"
  let payload ← call (.receiptBytes place)
  let receipt ← loadReceipt rt payload
  validateReceipt rt receipt request run
  let sha ← string (run.get "head_sha") "controller run SHA"
  call (.verifySignature place sha)
  let id ← identity run
  requireBoundSuccess request.id sha id
  call (.rename place)

/-- The `except` clause of `download_and_verify_receipt`. -/
def discardTemporary (place : Place) (e : PyError) : ReceiptAct Unit :=
  if e = .interrupted then Act.raise e
  else do
    if ← call (.temporaryPresent place) then call (.removeTemporary place)
    Act.raise e

/-- `download_and_verify_receipt(client, request, request_id, run, output_directory)`. -/
def downloadAndVerifyReceipt (rt : Runtime) (request : Request) (run : Value) (directory : PyStr) :
    ReceiptAct Unit := do
  let runId ← positiveInteger (run.get "id") "controller run ID"
  let artifacts ← call (.artifacts runId)
  require ((artifacts.filter (isArtifact (artifactPrefix ++ request.id))).length = 1)
    "exact ModuLix validation receipt artifact is missing or ambiguous"
  let place := { directory, requestId := request.id }
  let present ← call (.outputPresent place)
  require (present = false) "validation receipt output must start absent"
  call (.makeTemporary place)
  (fetchReceipt rt request run runId place).catching (discardTemporary place)

/-! ## 5. `main` -/

inductive Phase
  | single
  | dispatch
  | window
  deriving DecidableEq

/-- The command line; `none` is an argument that is not given. -/
structure Args where
  phase : Phase
  candidate : Candidate
  appSlug : PyStr
  installationId : Int
  outputDirectory : Option PyStr
  timeoutSeconds : Option Int
  controllerSha : Option PyStr
  requestId : Option PyStr
  boundRunId : Option Int
  boundRunAttempt : Option Int
  finalWindow : Bool

/-- What a process is to do. -/
inductive Task
  | dispatch
  | window (directory : PyStr) (timeout : Int) (controllerSha requestId : PyStr)
      (bound : Option RunId) (finalWindow : Bool)
  | single (directory : PyStr) (timeout : Int)

def maxWindowSeconds : Int := 4800

def defaultTimeoutSeconds : Int := 16200

/-- The run that a window is told to follow. -/
def boundRun : Option Int → Option Int → Option (Option RunId)
  | none, none => some none
  | some id, some attempt => some (some (id, attempt))
  | _, _ => none

/-- The arguments of a window. -/
def windowTask (args : Args) : Py Task :=
  match args.outputDirectory, args.controllerSha, args.requestId, args.timeoutSeconds,
      boundRun args.boundRunId args.boundRunAttempt with
  | some directory, some sha, some requestId, some timeout, some bound => do
    require (0 < timeout ∧ timeout ≤ maxWindowSeconds)
      "window exceeds the bounded 80-minute contract"
    pure (.window directory timeout sha requestId bound args.finalWindow)
  | _, _, _, _, _ => .error (.valueError "window phase lacks an exact continuation binding")

/-- The checks of the command line. -/
def checkArguments (args : Args) : Py Task :=
  match args.phase with
  | .dispatch => do
    require (args.outputDirectory = none ∧ args.timeoutSeconds = none ∧ args.controllerSha = none ∧
        args.requestId = none ∧ args.boundRunId = none ∧ args.boundRunAttempt = none ∧
        args.finalWindow = false) "dispatch phase has unrelated continuation arguments"
    pure .dispatch
  | .window => windowTask args
  | .single => match args.outputDirectory with
    | none => .error (.valueError "single phase requires a receipt output directory")
    | some directory => do
      require (args.controllerSha = none ∧ args.requestId = none ∧ args.boundRunId = none ∧
          args.boundRunAttempt = none ∧ args.finalWindow = false)
        "single phase has unrelated continuation arguments"
      let timeout := args.timeoutSeconds.getD defaultTimeoutSeconds
      require (0 < timeout ∧ timeout ≤ defaultTimeoutSeconds)
        "validation timeout is outside the bounded contract"
      pure (.single directory timeout)

/-- What a process prints that leaves the validation unfinished. -/
structure Pending where
  bound : Option RunId
  controllerSha : PyStr
  requestId : PyStr
  state : PyStr

def Pending.toValue (p : Pending) : Value := .dict [
  ("controllerRunAttempt", (p.bound.map fun b => .int b.2).getD .none),
  ("controllerRunId", (p.bound.map fun b => .int b.1).getD .none),
  ("controllerSha", .str p.controllerSha), ("requestId", .str p.requestId), ("state", .str p.state)]

/-- How a process that succeeds leaves the validation. -/
inductive Output
  | pending (p : Pending)
  | complete (requestId : PyStr)

/-- The request that a process printed. -/
def Output.requestId : Output → PyStr
  | .pending p => p.requestId
  | .complete requestId => requestId

def printPending (rt : Runtime) (p : Pending) : ReceiptAct (Option Output) := do
  let text ← canonical rt p.toValue
  call (.print text)
  pure (some (.pending p))

/-- The steps of `main` once the run is over. -/
def accept (rt : Runtime) (request : Request) (controllerSha : PyStr) (run : Value)
    (directory : PyStr) (state : List (PyStr × Value)) : ReceiptAct (Option Output) := do
  let bound ← identity run
  requireBoundSuccess request.id controllerSha bound
  let jobs ← call (.jobs bound.1)
  validateRunJobs jobs
  downloadAndVerifyReceipt rt request run directory
  let digest ← call (.digest { directory, requestId := request.id })
  let now ← call .now
  let result : List (PyStr × Value) := [
    ("controllerRunAttempt", ← run.item "run_attempt"), ("controllerRunId", ← run.item "id"),
    ("receipt", .str (directory ++ "/" ++ receiptName)), ("receiptSha256", .str digest),
    ("requestId", .str ("sha256:" ++ request.id)), ("verifiedAt", .str now)]
  let text ← canonical rt (.dict (result ++ state))
  call (.print text)
  pure (some (.complete ("sha256:" ++ request.id)))

/-- The steps of a window once the request is built. -/
def windowPhase (rt : Runtime) (rounds : Nat) (request : Request) (controllerSha : PyStr)
    (directory : PyStr) (timeout : Int) (requestId : PyStr) (bound : Option RunId)
    (finalWindow : Bool) : ReceiptAct (Option Output) := do
  require (requestId = "sha256:" ++ request.id)
    "window request ID differs from the exact staged request"
  let bound ← checkBound bound
  let polled ← pollWindow rounds request.id controllerSha timeout bound bound.isNone
  match polled with
  | none => pure none
  | some (none, bound) => do
    require (finalWindow = false) "final ModuLix window expired without an exact successful run"
    printPending rt
      { bound, controllerSha, requestId := "sha256:" ++ request.id, state := "pending" }
  | some (some run, _) =>
    accept rt request controllerSha run directory
      [("controllerSha", .str controllerSha), ("state", .str "complete")]

/-- The steps of a validation in one process, `wait_for_run` among them. -/
def singlePhase (rt : Runtime) (rounds : Nat) (request : Request) (controllerSha : PyStr)
    (directory : PyStr) (timeout : Int) : ReceiptAct (Option Output) := do
  let (dispatched, bound) ← dispatchIfAbsent rt request controllerSha
  let polled ← pollWindow rounds request.id controllerSha timeout bound dispatched
  match polled with
  | none => pure none
  | some (none, _) =>
    Act.raise (.valueError "timed out waiting for the exact ModuLix validation run")
  | some (some run, _) => accept rt request controllerSha run directory []

/-- The steps of the process that only dispatches. -/
def dispatchPhase (rt : Runtime) (request : Request) (controllerSha : PyStr) :
    ReceiptAct (Option Output) := do
  let (dispatched, bound) ← dispatchIfAbsent rt request controllerSha
  printPending rt
    { bound, controllerSha, requestId := "sha256:" ++ request.id,
      state := if dispatched then "dispatched" else "found" }

/-- The commit of the controller: a window is told it, the other phases ask for it. -/
def controllerCommit : Task → ReceiptAct PyStr
  | .window _ _ controllerSha _ _ _ => pure controllerSha
  | _ => call .controllerSha

/-- What `main` does before the phases differ: the commit of the controller and the request. -/
def prepare (rt : Runtime) (args : Args) (task : Task) : ReceiptAct (PyStr × Request) := do
  let manifest ← call .manifest
  call .client
  validateInstallation args.appSlug args.installationId
  let controllerSha ← controllerCommit task
  let workflow ← call .workflow
  validateWorkflow workflow controllerSha
  let request ← buildRequest rt manifest args.candidate controllerSha
  pure (controllerSha, request)

/-- `main()`; every exception, a `ReceiptError` among them, ends the process with a failure. -/
def main (rt : Runtime) (rounds : Nat) (args : Args) : ReceiptAct (Option Output) := do
  let task ← checkArguments args
  let (controllerSha, request) ← prepare rt args task
  match task with
  | .dispatch => dispatchPhase rt request controllerSha
  | .window directory timeout _ requestId bound finalWindow =>
    windowPhase rt rounds request controllerSha directory timeout requestId bound finalWindow
  | .single directory timeout => singlePhase rt rounds request controllerSha directory timeout

/-! ## 6. A validation -/

/-- The command line of the window after a process that printed `p`. -/
def Args.continuing (args : Args) (p : Pending) : Args :=
  { args with
    phase := .window
    controllerSha := some p.controllerSha
    requestId := some p.requestId
    boundRunId := p.bound.map Prod.fst
    boundRunAttempt := p.bound.map Prod.snd }

/-- The windows after a process that printed `p`, until one of them completes the validation. -/
def windows (rt : Runtime) (rounds : Nat) : Pending → List Args → ReceiptAct (Option Output)
  | p, [] => pure (some (.pending p))
  | p, args :: rest => do
    let output ← main rt rounds (args.continuing p)
    match output with
    | some (.pending p) => windows rt rounds p rest
    | output => pure output

/-- A first process and the windows after it. -/
def validation (rt : Runtime) (rounds : Nat) (first : Args) (rest : List Args) :
    ReceiptAct (Option Output) := do
  let output ← main rt rounds first
  match output with
  | some (.pending p) => windows rt rounds p rest
  | output => pure output

end Supplementary.Receipt
