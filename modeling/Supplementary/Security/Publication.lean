/-
# What the stages of the publication accept

`load_metadata` of `generate-security-release-evidence.py` and `validate_binding` of
`release-stage-handoff.py`.  Each script declares its own forms of the same fields.  The files that
`load_metadata` reads are regular, and the errors of `require_exact` and of the profile are kept
without the names in them.
-/
import Supplementary.Security.Intake

namespace Supplementary.Security

open Supplementary PyStr

/-! ## 1. The evidence generator -/

namespace Evidence

/-- `EVIDENCE_ID`. -/
def isEvidenceId : PyStr → Bool := isToken "" isCapital isEvidenceChar 2 (some 127)

/-- `[a-z0-9]`. -/
def isLowerAlnum (c : Nat) : Bool := isLower c || PyStr.isDigit c

/-- `[-a-z0-9._/]`. -/
def isLowerPathChar (c : Nat) : Bool := isLowerAlnum c || c = 46 || c = 95 || c = 47 || c = 45

/-- `PROFILE_ID`. -/
def isProfileId : PyStr → Bool := isToken "" isLowerAlnum isLowerPathChar 1 none

/-- `require_string(value, label)`. -/
def requireString (value : Value) (label : String) : Py PyStr :=
  match value with
  | .str s => do
    require (isTrimmed s = true) s!"{label} must be a non-empty trimmed string"
    pure s
  | _ => .error (.valueError s!"{label} must be a non-empty trimmed string")

/-- `timestamp(value, label)`. -/
def timestamp (value : Value) (label : String) : Py Int := do
  readInstant (← requireString value label) s!"{label} must be a canonical UTC RFC3339 timestamp"
    s!"{label} must be a valid timestamp"

/-- `load_profiles(path, profile_id)`, for the registry that the path holds. -/
def loadProfiles (registry : Value) (profileId : PyStr) : Py Unit := do
  exactKeys registry ["schemaVersion", "profiles"] "security release profile registry"
  let profiles := registry.get "profiles"
  require ((registry.get "schemaVersion").pyEq (.int 1) = true ∧ profiles.isDict = true)
    "security release profile registry is unsupported"
  let profile := profiles.get profileId
  require (profile.isDict = true) "acceptance profile is not in the fixed producer allowlist"
  exactKeys profile ["releaseEligible", "description"] "acceptance profile"
  require ((profile.get "releaseEligible").isTrue = true)
    "acceptance profile is explicitly non-releaseable"
  let _ ← requireString (profile.get "description") "acceptance profile description"

/-- The last three parts of a path. -/
structure Location where
  grandparent : PyStr
  parent : PyStr
  name : PyStr
  deriving DecidableEq

/-- `.lit/security-releases/<version>.json`. -/
def canonicalLocation (version : PyStr) : Location :=
  { grandparent := ".lit", parent := "security-releases", name := version ++ ".json" }

/-- The validity of the metadata. -/
def checkValidity (metadata validity : Value) (checkedAt : Int) : Py Unit := do
  exactKeys validity validityKeys "validity"
  let created ← timestamp (metadata.get "createdAt") "createdAt"
  let notBefore ← timestamp (validity.get "notBefore") "validity.notBefore"
  let expires ← timestamp (validity.get "expiresAt") "validity.expiresAt"
  require ((validity.get "revoked").isFalse = true) "security release metadata is revoked"
  require (notBefore < expires) "security release validity interval is empty"
  require (notBefore ≤ created ∧ created < expires)
    "createdAt is outside the security release validity interval"
  require (isWithin checkedAt notBefore expires = true)
    "security release metadata is not currently valid"

/-- `load_metadata(path, profiles, checked_at)`, for the metadata and the registry that the paths
hold. -/
def loadMetadata (path : Location) (metadata registry : Value) (checkedAt : Int) : Py Unit := do
  exactKeys metadata metadataKeys "security release metadata"
  require ((metadata.get "schemaVersion").pyEq (.int 1) = true)
    "security release metadata schemaVersion must be 1"
  let evidenceId ← requireString (metadata.get "evidenceId") "evidenceId"
  require (isEvidenceId evidenceId = true) "evidenceId is invalid"
  require (areIdentifiers (metadata.get "securityIdentifiers") = true)
    "securityIdentifiers must be a non-empty unique list of canonical Security IDs"
  let affected ← requireString (metadata.get "affectedVersion") "affectedVersion"
  let fixed ← requireString (metadata.get "fixedVersion") "fixedVersion"
  require (isSemver affected = true) "affectedVersion must be a stable semantic version"
  require (isSemver fixed = true) "fixedVersion must be a stable semantic version"
  require (affected ≠ fixed) "affectedVersion must differ from fixedVersion"
  require (path = canonicalLocation fixed)
    "security metadata path must be .lit/security-releases/<fixedVersion>.json"
  require ((metadata.get "consumers").pyEq (.list [.str consumerRepository]) = true)
    "consumers must contain exactly the approved repository"
  let profileId ← requireString (metadata.get "acceptanceProfile") "acceptanceProfile"
  require (isProfileId profileId = true) "acceptanceProfile is invalid"
  loadProfiles registry profileId
  let validity := metadata.get "validity"
  require (validity.isDict = true) "validity must be an object"
  checkValidity metadata validity checkedAt

end Evidence

/-! ## 2. The hand-off -/

namespace Handoff

/-- `EVIDENCE`. -/
def isEvidence : PyStr → Bool := PyStr.isEvidence 127

/-- `VERSION`. -/
def isVersion : PyStr → Bool := isSemver

/-- `[-A-Za-z0-9._]`. -/
def isNameChar (c : Nat) : Bool := isAlnum c || c = 46 || c = 95 || c = 45

/-- `NAME`. -/
def isName : PyStr → Bool := isToken "" isAlnum isNameChar 0 (some 199)

def bindingKeys : List PyStr := ["candidateName", "ciRunAttempt", "ciRunId", "galaxyRequired",
  "releaseVersion", "securityEvidenceId", "securityRelease", "sourceRunAttempt", "sourceRunId",
  "sourceSha"]

/-- A text of a form. -/
def isForm (form : PyStr → Bool) : Value → Bool
  | .str s => form s
  | _ => false

/-- `positive(value, label)`. -/
def positive (value : Value) (label : String) : Py Unit :=
  match value with
  | .int n => require (0 < n) s!"{label} must be a positive integer"
  | _ => .error (.valueError s!"{label} must be a positive integer")

/-- The name of the archive of a version. -/
def archiveName (version : PyStr) : PyStr := "lit-supplementary-" ++ version ++ ".tar.gz"

/-- `validate_binding(binding)`. -/
def validateBinding (binding : Value) : Py Unit := do
  require (binding.isDict = true ∧ binding.hasKeys bindingKeys = true)
    "handoff binding shape differs"
  require (isForm (PyStr.isHex 40) (binding.get "sourceSha") = true) "source SHA is invalid"
  ["sourceRunId", "sourceRunAttempt", "ciRunId", "ciRunAttempt"].forM fun key =>
    positive (binding.get key) key
  require (isForm isVersion (binding.get "releaseVersion") = true) "release version is invalid"
  require (isForm isName (binding.get "candidateName") = true) "candidate name is invalid"
  require (isForm (fun version => (binding.get "candidateName").isText (archiveName version))
      (binding.get "releaseVersion") = true) "candidate name does not match release version"
  require ((binding.get "securityRelease").isBool = true ∧
      (binding.get "galaxyRequired").isBool = true) "release flags must be boolean"
  if (binding.get "securityRelease").isTrue then
    require (isForm isEvidence (binding.get "securityEvidenceId") = true)
      "security release evidence binding is invalid"
  else
    require ((binding.get "securityEvidenceId").isNone = true)
      "ordinary release must not carry security evidence ID"

end Handoff

end Supplementary.Security
