/-
# The validation request

`modulix-validation-receipt.py` asks the controller repository to validate one release candidate.
The request names the candidate, the run that asks and the commit of the controller; its identity
is the digest of its canonical JSON, and a run of the controller matches by its title, which ends
in that identity.

`ReceiptError` is a `ValueError` of the script's own.  The error of `exact_keys` is kept without
the two lists of names at its end.
-/
import Supplementary.Python.Access
import Supplementary.Python.Json
import Supplementary.Python.Token

namespace Supplementary.Receipt

open Supplementary

/-! ## 1. Checks -/

/-- The text inside a message. -/
def shown (s : PyStr) : String := String.ofList (s.codePoints.map Char.ofNat)

/-- `if not condition: raise ReceiptError(message)`. -/
def require (condition : Prop) [Decidable condition] (message : String) : Py Unit :=
  raiseUnless (.valueError message) condition

@[simp] theorem require_eq_ok {condition : Prop} [Decidable condition] {message : String}
    {u : Unit} : require condition message = .ok u ↔ condition := raiseUnless_eq_ok

/-- `exact_keys(value, expected, label)`. -/
def exactKeys (value : Value) (expected : List PyStr) (label : String) : Py Unit :=
  require (value.hasKeys expected = true) s!"{label} fields differ"

/-- `value == value.strip()`. -/
def isTrimmed (s : PyStr) : Bool :=
  s.codePoints.head?.all (fun c => !PyStr.isSpace c) &&
    s.codePoints.getLast?.all fun c => !PyStr.isSpace c

/-- `string(value, label)`. -/
def string (value : Value) (label : String) : Py PyStr :=
  match value with
  | .str s => do
    require (s.codePoints ≠ [] ∧ isTrimmed s = true) s!"{label} must be a non-empty trimmed string"
    pure s
  | _ => .error (.valueError s!"{label} must be a non-empty trimmed string")

theorem string_eq_ok {value : Value} {label : String} {s : PyStr} (h : string value label = .ok s) :
    value = .str s := by
  cases value with
  | str t =>
    simp only [string, bind_eq_ok, pure, Except.pure, Except.ok.injEq] at h
    obtain ⟨_, -, rfl⟩ := h
    rfl
  | _ => cases h

/-- `positive_integer(value, label)`. -/
def positiveInteger (value : Value) (label : String) : Py Int :=
  match value with
  | .int n => do
    require (0 < n) s!"{label} must be a positive integer"
    pure n
  | _ => .error (.valueError s!"{label} must be a positive integer")

theorem positiveInteger_eq_ok {value : Value} {label : String} {n : Int} :
    positiveInteger value label = .ok n ↔ value = .int n ∧ 0 < n := by
  cases value with
  | int m =>
    simp only [positiveInteger, bind_eq_ok, require_eq_ok, pure, Except.pure, Except.ok.injEq,
      Value.int.injEq]
    constructor
    · rintro ⟨_, hpos, rfl⟩
      exact ⟨rfl, hpos⟩
    · rintro ⟨rfl, hpos⟩
      exact ⟨(), hpos, rfl⟩
  | _ => simp [positiveInteger]

/-! ## 2. Grammars -/

/-- `VERSION_RE`. -/
def isVersion : PyStr → Bool := PyStr.isSemver

/-- `EVIDENCE_ID_RE`. -/
def isEvidenceId : PyStr → Bool := PyStr.isEvidence 121

/-! ## 3. The request -/

def sourceRepository : PyStr := "lightning-it/ansible-collection-supplementary"
def sourceWorkflow : PyStr := ".github/workflows/collection-publish.yml"
def controllerRepository : PyStr := "lightning-it/modulix-validation"
def controllerRef : PyStr := "refs/heads/main"
def controllerBranch : PyStr := "main"
def controllerWorkflow : PyStr := ".github/workflows/mlx90-collection-candidate-validation.yml"
def appSlug : PyStr := "lightning-it-release-automation"
def appInstallationId : Int := 148019054
def appActor : PyStr := appSlug ++ "[bot]"
def appActorId : Int := 307565056

def appPermissions : Value := .dict [
  ("actions", .str "write"), ("checks", .str "read"), ("contents", .str "write"),
  ("metadata", .str "read"), ("pull_requests", .str "write")]

def runTitlePrefix : PyStr := "MLX-90 collection candidate / "
def artifactPrefix : PyStr := "mlx90-collection-validation-"

/-- What the command line says about the candidate. -/
structure Candidate where
  sourceSha : PyStr
  sourceRunId : Int
  sourceRunAttempt : Int
  evidenceId : PyStr
  version : PyStr

/-- The request, its canonical JSON, and its identity. -/
structure Request where
  value : Value
  json : Bytes
  id : PyStr

/-- The source section of the request. -/
def requestSource (c : Candidate) : Value := .dict [
  ("actor", .str appActor), ("actorId", .int appActorId), ("actorType", .str "Bot"),
  ("event", .str "workflow_dispatch"), ("ref", .str "refs/heads/main"),
  ("repository", .str sourceRepository), ("runAttempt", .int c.sourceRunAttempt),
  ("runId", .int c.sourceRunId), ("sha", .str c.sourceSha), ("workflow", .str sourceWorkflow)]

/-- The candidate section of the request. -/
def requestCandidate (c : Candidate) (manifest artifact : Value) : Py Value := do
  let repository ← manifest.item "repository"
  pure (.dict [
    ("name", ← artifact.item "name"), ("sha256", ← artifact.item "sha256"),
    ("size", ← artifact.item "size"), ("version", .str c.version),
    ("nexus", .dict [("repository", ← repository.item "name"),
      ("repositoryUrl", ← repository.item "url"), ("url", ← artifact.item "url")])])

/-- `build_request(...)`. -/
def buildRequest (rt : Runtime) (manifest : Value) (c : Candidate) (controllerSha : PyStr) :
    Py Request := do
  require (PyStr.isHex 40 c.sourceSha = true ∧ PyStr.isHex 40 controllerSha = true)
    "source and controller SHAs must be full lowercase commit IDs"
  require (isEvidenceId c.evidenceId = true) "Security evidence ID is invalid"
  require (isVersion c.version = true) "Security release version must be stable semantic versioning"
  let _ ← positiveInteger (.int c.sourceRunId) "source run ID"
  let _ ← positiveInteger (.int c.sourceRunAttempt) "source run attempt"
  let artifact ← manifest.item "artifact"
  let name ← artifact.item "name"
  require (name.isText ("lit-supplementary-" ++ c.version ++ ".tar.gz") = true)
    "Nexus artifact name differs from the Security release version"
  let value := Value.dict [
    ("apiVersion", .str "lit.mlx90.collection-validation-request/v2"),
    ("kind", .str "CollectionValidationRequest"),
    ("source", requestSource c),
    ("security", .dict [("evidenceId", .str c.evidenceId), ("humanActions", .int 0)]),
    ("candidate", ← requestCandidate c manifest artifact),
    ("controller", .dict [("ref", .str controllerRef), ("repository", .str controllerRepository),
      ("sha", .str controllerSha), ("workflow", .str controllerWorkflow)])]
  let json ← canonical rt value
  pure { value, json, id := rt.sha256 json }

/-! ## 4. Runs of the controller -/

/-- `isinstance(actor, dict)` and the three fields of an actor. -/
def isApp (actor : Value) : Bool :=
  actor.isDict && (actor.get "login").isText appActor &&
    (actor.get "id").pyEq (.int appActorId) && (actor.get "type").isText "Bot"

/-- `isinstance(repository, dict)` and its full name. -/
def isController (repository : Value) : Bool :=
  repository.isDict && (repository.get "full_name").isText controllerRepository

/-- `matching_run(run, request_id, controller_sha)`. -/
def matchingRun (requestId controllerSha : PyStr) (run : Value) : Bool :=
  isController (run.get "repository") && isController (run.get "head_repository") &&
    isApp (run.get "actor") && isApp (run.get "triggering_actor") &&
    (run.get "display_title").isText (runTitlePrefix ++ requestId) &&
    (run.get "event").isText "workflow_dispatch" && (run.get "path").isText controllerWorkflow &&
    (run.get "head_branch").isText controllerBranch && (run.get "head_sha").isText controllerSha

theorem headSha_of_matching {requestId controllerSha : PyStr} {run : Value}
    (h : matchingRun requestId controllerSha run = true) : run.get "head_sha" = .str controllerSha := by
  simp only [matchingRun, Bool.and_eq_true, Value.isText_iff] at h
  exact h.2

/-- The identity of a run: its number and its attempt. -/
abbrev RunId := Int × Int

/-- `(positive_integer(run.get("id"), ...), positive_integer(run.get("run_attempt"), ...))`. -/
def identity (run : Value) : Py RunId := do
  let id ← positiveInteger (run.get "id") "controller run ID"
  let attempt ← positiveInteger (run.get "run_attempt") "controller run attempt"
  pure (id, attempt)

/-- `run.get("status") == "completed" and run.get("conclusion") == "success"`. -/
def succeeded (run : Value) : Bool :=
  (run.get "status").isText "completed" && (run.get "conclusion").isText "success"

/-- One job of a run: its name, when it succeeded. -/
def jobName (job : Value) : Py PyStr := do
  let name ← string (job.get "name") "controller job name"
  let _ ← positiveInteger (job.get "id") s!"controller job {shown name} ID"
  require (succeeded job = true) s!"ModuLix validation job did not succeed: {shown name}"
  pure name

/-- `validate_run_jobs(jobs)`. -/
def validateRunJobs (jobs : List Value) : Py Unit := do
  require (jobs ≠ []) "ModuLix validation run has no jobs"
  let names ← jobs.mapM jobName
  ["Validate immutable request", "Nexus exact-byte readback", "Sign validation receipt"].forM
    fun exact => require (names.count (PyStr.ofString exact) = 1)
      s!"ModuLix validation run lacks the exact required job: {exact}"
  [("Heavy / ", "Heavy /"), ("Application Acceptance / ", "Application Acceptance /")].forM
    fun (start, stripped) => require (names.any (fun name => name.startsWith start) = true)
      s!"ModuLix validation run lacks a successful {stripped} job"

/-! ## 5. The receipt -/

def receiptName : PyStr := "mlx90-collection-validation-receipt.json"
def receiptBundleName : PyStr := receiptName ++ ".sigstore.json"

/-- What `json.loads` calls back: a repeated key and a constant are `ReceiptError`s; the message
is kept without the key and the constant. -/
def hooks : Json.Hooks where
  duplicate := .valueError "duplicate JSON key"
  constant := some (.valueError "non-JSON numeric constant")

/-- `load_receipt(path)`: `none` stands for a path that is no regular file. -/
def loadReceipt (rt : Runtime) (payload : Option Bytes) : Py Value := do
  match payload with
  | none => .error (.valueError "ModuLix validation receipt must be a regular non-symlink file")
  | some octets => match utf8Decode octets with
    | none => .error .unicodeError
    | some source => do
      let value ← match Json.loads rt hooks ⟨source⟩ with
        | .error .jsonDecodeError =>
          .error (.valueError "ModuLix validation receipt is not valid JSON")
        | outcome => outcome
      require (value.isDict = true) "ModuLix validation receipt must be a JSON object"
      require (octets = (← canonical rt value) ++ [10])
        "ModuLix validation receipt bytes are not canonical receiver JSON"
      pure value

/-- `canonical_json(left) != canonical_json(right)` raises. -/
def sameJson (rt : Runtime) (left right : Value) (message : String) : Py Unit := do
  require ((← canonical rt left) = (← canonical rt right)) message

/-- The validation section that the receipt must have. -/
def expectedValidation (request : Request) (run : Value) : Py Value := do
  let digest ← (← request.value.item "candidate").item "sha256"
  pure (.dict [
    ("actor", .str appActor), ("actorId", .int appActorId), ("actorType", .str "Bot"),
    ("conclusion", .str "success"), ("event", .str "workflow_dispatch"), ("humanActions", .int 0),
    ("receiptArtifact", .str (artifactPrefix ++ request.id)), ("ref", .str controllerRef),
    ("repository", .str controllerRepository), ("runAttempt", ← run.item "run_attempt"),
    ("runId", ← run.item "id"), ("sha", ← run.item "head_sha"), ("workflow", .str controllerWorkflow),
    ("observations", .dict [
      ("applicationAcceptance", .str "passed"), ("candidateDigest", digest),
      ("heavy", .str "passed"), ("nexusReadback", digest),
      ("sourceRun", ← request.value.item "source")])])

/-- `validate_receipt(receipt, request, request_id, run)`. -/
def validateReceipt (rt : Runtime) (receipt : Value) (request : Request) (run : Value) : Py Unit := do
  exactKeys receipt ["apiVersion", "kind", "request", "requestId", "validation", "decision"] "receipt"
  require ((receipt.get "apiVersion").isText "lit.mlx90.collection-validation-receipt/v2" = true ∧
      (receipt.get "kind").isText "CollectionValidationReceipt" = true)
    "ModuLix validation receipt schema is unsupported"
  sameJson rt (receipt.get "request") request.value
    "ModuLix validation receipt is not bound to the exact request"
  require ((receipt.get "requestId").isText ("sha256:" ++ request.id) = true)
    "ModuLix validation receipt request ID differs"
  let validation := receipt.get "validation"
  let decision := receipt.get "decision"
  require (validation.isDict = true ∧ decision.isDict = true)
    "ModuLix validation receipt sections must be objects"
  exactKeys validation ["actor", "actorId", "actorType", "conclusion", "event", "humanActions",
    "observations", "receiptArtifact", "ref", "repository", "runAttempt", "runId", "sha",
    "workflow"] "receipt.validation"
  sameJson rt validation (← expectedValidation request run)
    "ModuLix receipt validation is incomplete or substituted"
  exactKeys decision ["candidateUnchanged", "galaxyPublicationAuthorized", "releaseEligible"]
    "receipt.decision"
  sameJson rt decision (.dict [("candidateUnchanged", .bool true),
      ("galaxyPublicationAuthorized", .bool true), ("releaseEligible", .bool true)])
    "ModuLix validation receipt does not authorize exact-byte publication"

end Supplementary.Receipt
