/-
# The preparation receipt

`verify_preparation_receipt` holds a receipt against itself, against the Security binding of the
base checkout and against the identities that its caller expects.  It reads neither the fragments
nor `galaxy.yml`.
-/
import Supplementary.Release.Version

namespace Supplementary.Release

open Supplementary PyStr

/-! ## 1. Constants and forms -/

def requiredFields : List PyStr :=
  ["schema_version", "repository", "repository_id", "base_sha", "release_mode", "chain_id",
    "security", "current_version", "impact", "next_version", "fragments", "preparer", "workflow"]

def normalFields : List PyStr := ["content_base", "publication"]

def securityReceiptKeys : List PyStr :=
  ["evidence_id", "metadata_path", "metadata_sha256", "intake_receipt_path",
    "intake_receipt_sha256", "candidate_diff_sha256", "human_actions"]

def workflowKeys : List PyStr :=
  ["path", "ref", "source_sha", "run_id", "run_attempt", "event", "git_ref", "actor"]

/-- `[0-9a-f]{40}`. -/
def isRevision : PyStr → Bool := PyStr.isHex 40

def isAlnum (c : Nat) : Bool := isUpper c || isLower c || PyStr.isDigit c

/-- `[A-Za-z0-9_.-]+`. -/
def isNamePart (s : PyStr) : Bool :=
  s.codePoints ≠ [] && s.codePoints.all fun c => isAlnum c || c = 95 || c = 46 || c = 45

/-- Two name parts with a slash between them. -/
def isRepository (s : PyStr) : Bool :=
  let parts := s.split '/'
  parts.length = 2 && parts.all isNamePart

/-- `[1-9][0-9]*`. -/
def isPositive (s : PyStr) : Bool := isNumeral s.codePoints && s ≠ "0"

/-- A text of the given form. -/
def isForm (form : PyStr → Bool) : Value → Bool
  | .str s => form s
  | _ => false

/-- The text of a value that is one. -/
def str? : Value → Option PyStr
  | .str s => some s
  | _ => none

/-- An `int` that is no `bool`. -/
def int? : Value → Option Int
  | .int n => some n
  | _ => none

/-! ## 2. The parts of the receipt -/

/-- The fields, with those of schema 3. -/
def checkFields (receipt : Value) : Py Unit :=
  let required := if Value.pyEq (receipt.get "schema_version") (.int 3) then
    requiredFields ++ normalFields else requiredFields
  require (receipt.hasKeys required) "release preparation receipt has missing or unknown fields"

def checkIdentity (tools : Tools) (receipt : Value)
    (expectedRepository expectedRepositoryId expectedBaseSha : PyStr) : Py Unit := do
  require ((receipt.get "repository").isText expectedRepository ∧ isRepository expectedRepository)
    "release preparation receipt repository differs"
  require ((receipt.get "repository_id").isText expectedRepositoryId ∧
    tools.isdigit expectedRepositoryId) "release preparation receipt repository id differs"
  require ((receipt.get "base_sha").isText expectedBaseSha ∧ isRevision expectedBaseSha)
    "release preparation receipt base SHA differs"

/-- What schema 3 says besides: the normal two-stage route. -/
def checkNormalRoute (receipt : Value) (expectedBaseSha : PyStr) : Py Unit := do
  require ((receipt.get "release_mode").isText "normal")
    "schema 3 is exclusively the normal two-stage release route"
  require (Value.pyEq (receipt.get "content_base")
    (.dict [("ref", .str "refs/heads/develop"), ("sha", .str expectedBaseSha)]))
    "release preparation content base differs from protected develop"
  let publication := receipt.get "publication"
  require (publication.isDict ∧ publication.hasKeys ["github_release", "galaxy"] ∧
      publication.entries.all fun e => e.2.isBool)
    "release preparation publication policy is malformed"

def checkSchema (receipt : Value) (schemaVersion : Int) (expectedBaseSha : PyStr) : Py Unit :=
  if schemaVersion = 3 then checkNormalRoute receipt expectedBaseSha else .ok ()

/-- The version is the current one, advanced by the impact; all three are the receipt's own. -/
def checkVersion (receipt : Value) (expectedVersion : PyStr) : Py Unit := do
  let current ← parseStableVersion (str? (receipt.get "current_version")) "receipt current version"
  match str? (receipt.get "impact") with
  | none => .error (.valueError "unsupported release impact")
  | some impact => do
    let next ← nextVersion current impact
    let calculated ← renderVersion next
    let nextValue := str? (receipt.get "next_version")
    let _ ← parseStableVersion nextValue "receipt next version"
    require (nextValue = some calculated ∧ nextValue = some expectedVersion)
      "release preparation receipt next version is not fragment-derived"

/-- The `security` entry that the binding asks for. -/
def expectedSecurity (binding : Binding) : Value :=
  .dict [("evidence_id", .str binding.evidenceId), ("metadata_path", .str binding.metadataPath),
    ("metadata_sha256", .str binding.metadataSha256),
    ("intake_receipt_path", .str binding.intakeReceiptPath),
    ("intake_receipt_sha256", .str binding.intakeReceiptSha256),
    ("candidate_diff_sha256", .str binding.candidateDiffSha256), ("human_actions", .int 0)]

def producerRepository : PyStr := "lightning-it/ansible-collection-supplementary"

def producerRepositoryId : PyStr := "1103407173"

def checkMode (receipt : Value) (binding : Option Binding)
    (expectedRepository expectedRepositoryId : PyStr) : Py Unit :=
  match binding with
  | none => do
    require ((receipt.get "release_mode").isText "normal")
      "release preparation receipt mode differs from immutable Security markers"
    require ((receipt.get "chain_id").isNone ∧ (receipt.get "security").isNone)
      "normal release preparation receipt contains partial Security markers"
  | some binding => do
    require ((receipt.get "release_mode").isText "security")
      "release preparation receipt mode differs from immutable Security markers"
    let security := receipt.get "security"
    require (security.isDict ∧ security.hasKeys securityReceiptKeys)
      "Security release preparation receipt binding is malformed"
    require (int? (security.get "human_actions")).isSome
      "Security release preparation human_actions must be an integer"
    require (Value.pyEq security (expectedSecurity binding) ∧
        (receipt.get "chain_id").isText binding.chainId)
      "Security release preparation receipt differs from the immutable intake binding"
    require (expectedRepository = producerRepository ∧
        expectedRepositoryId = producerRepositoryId)
      "Security release preparation repository identity is unauthorized"

/-- One entry of `fragments`: its name and its digest. -/
def readFragment (fragment : Value) : Py (PyStr × PyStr) := do
  require (fragment.isDict ∧ fragment.hasKeys ["path", "sha256"])
    "release preparation receipt has a malformed fragment digest"
  match fragment.get "path", fragment.get "sha256" with
  | .str name, .str digest => do
    require (¬ name.contains "/" ∧ hasYamlSuffix name ∧ PyStr.isHex 64 digest)
      "release preparation receipt has an unsafe fragment digest"
    return (name, digest)
  | _, _ => .error (.valueError "release preparation receipt has an unsafe fragment digest")

/-- The fragments of the receipt. -/
def readFragments (receipt : Value) : Py (List (PyStr × PyStr)) :=
  match receipt.get "fragments" with
  | .list values => do
    require (values ≠ [] ∧ values.length ≤ 256)
      "release preparation receipt has no reviewed fragment digests"
    let fragments ← values.mapM readFragment
    require (fragments.map Prod.fst = sorted (fragments.map Prod.fst).dedup)
      "release preparation receipt fragment digests are duplicate or unsorted"
    return fragments
  | _ => .error (.valueError "release preparation receipt has no reviewed fragment digests")

/-- `PurePath(path).name`. -/
def baseName (path : PyStr) : PyStr := path.lastSegment "/"

/-- `digest.removeprefix("sha256:")`. -/
def bareDigest (digest : PyStr) : PyStr :=
  if digest.startsWith "sha256:" then ⟨digest.codePoints.drop 7⟩ else digest

/-- The fragment of the binding is among those of the receipt, with its digest. -/
def checkBoundFragment (binding : Option Binding) (fragments : List (PyStr × PyStr)) : Py Unit :=
  match binding with
  | none => .ok ()
  | some binding =>
    require (lookup fragments (baseName binding.changelogFragmentPath) =
        some (bareDigest binding.changelogFragmentSha256))
      "Security release preparation fragments do not contain the immutable intake fragment digest"

def releaseAppAccountId : PyStr := "307565056"

def releaseAppLogin : PyStr := "lightning-it-release-automation[bot]"

def releaseAppEmail : PyStr :=
  releaseAppAccountId ++ "+" ++ releaseAppLogin ++ "@users.noreply.github.com"

def releasePreparer : Value :=
  .dict [("login", .str releaseAppLogin), ("account_id", .str releaseAppAccountId),
    ("email", .str releaseAppEmail)]

def checkWorkflow (receipt : Value) (binding : Option Binding) (schemaVersion : Int)
    (expectedRepository expectedBaseSha : PyStr) : Py Unit := do
  require (Value.pyEq (receipt.get "preparer") releasePreparer)
    "release preparation receipt preparer is unauthorized"
  let workflow := receipt.get "workflow"
  require (workflow.isDict ∧ workflow.hasKeys workflowKeys)
    "release preparation receipt workflow identity is malformed"
  let expectedWorkflowRef : PyStr :=
    expectedRepository ++ "/.github/workflows/release-prepare.yml@refs/heads/main"
  require ((workflow.get "path").isText ".github/workflows/release-prepare.yml" ∧
      (workflow.get "ref").isText expectedWorkflowRef ∧
      isForm isRevision (workflow.get "source_sha") ∧
      (schemaVersion = 2 → (workflow.get "source_sha").isText expectedBaseSha) ∧
      (workflow.get "git_ref").isText "refs/heads/main" ∧
      (workflow.get "event").isTextOf ["push", "workflow_dispatch"] ∧
      isForm (fun s => s ≠ "") (workflow.get "actor") ∧
      isForm isPositive (workflow.get "run_id") ∧
      isForm isPositive (workflow.get "run_attempt"))
    "release preparation receipt does not identify an authorized workflow run"
  require (binding.isSome → (workflow.get "event").isText "push" ∧
      (workflow.get "actor").isText releaseAppLogin)
    "Security release preparation must be an App-authored protected-main push"

/-! ## 3. The check -/

/-- `verify_preparation_receipt(receipt, ...)`: the binding it found and the fragments it read. -/
def verifyPreparationReceipt (tools : Tools) (bindings : Bindings) (receipt : Value)
    (expectedRepository expectedRepositoryId expectedBaseSha expectedVersion : PyStr) :
    Py (Option Binding × List (PyStr × PyStr)) := do
  checkFields receipt
  match int? (receipt.get "schema_version") with
  | none => .error (.valueError "release preparation receipt schema is unsupported")
  | some schemaVersion => do
    require (schemaVersion = 2 ∨ schemaVersion = 3)
      "release preparation receipt schema is unsupported"
    checkIdentity tools receipt expectedRepository expectedRepositoryId expectedBaseSha
    checkSchema receipt schemaVersion expectedBaseSha
    checkVersion receipt expectedVersion
    let binding ← bindings ((str? (receipt.get "current_version")).getD "") expectedVersion
    checkMode receipt binding expectedRepository expectedRepositoryId
    let fragments ← readFragments receipt
    checkBoundFragment binding fragments
    checkWorkflow receipt binding schemaVersion expectedRepository expectedBaseSha
    return (binding, fragments)

end Supplementary.Release
