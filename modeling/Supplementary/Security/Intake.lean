/-
# What the Security intake approves

The checks of `security_release_contract.py` on a request, on the reviewed metadata and on the
registry of acceptance profiles.  Instants are counted in seconds, and the time of a check in
microseconds.  A `ContractError` is a `ValueError`; the error of `exact_keys` is kept without its two
lists of names.
-/
import Supplementary.Python.Access
import Supplementary.Python.Clock
import Supplementary.Python.Token

namespace Supplementary.Security

open Supplementary PyStr

/-! ## 1. Checks -/

/-- `if not condition: fail(message)`. -/
def require (condition : Prop) [Decidable condition] (message : String) : Py Unit :=
  raiseUnless (.valueError message) condition

@[simp] theorem require_eq_ok {condition : Prop} [Decidable condition] {message : String}
    {u : Unit} : require condition message = .ok u ↔ condition := raiseUnless_eq_ok

theorem require_of {condition : Prop} [Decidable condition] {message : String} (h : condition) :
    require condition message = .ok () := raiseUnless_of h

/-- `exact_keys(value, expected, label)`. -/
def exactKeys (value : Value) (expected : List PyStr) (label : String) : Py Unit :=
  require (value.hasKeys expected = true) s!"{label} fields mismatch"

/-- `is_exact_int(value) and value == n`. -/
def isInt (value : Value) (n : Int) : Bool :=
  match value with
  | .int m => m = n
  | _ => false

/-- `value and value == value.strip()`. -/
def isTrimmed (s : PyStr) : Bool :=
  s.codePoints ≠ [] && s.codePoints.head?.all (fun c => !isSpace c) &&
    s.codePoints.getLast?.all fun c => !isSpace c

/-- No character that ends a line, and no null character. -/
def isSingleLine (s : PyStr) : Bool := s.codePoints.all fun c => c ≠ 10 && c ≠ 13 && c ≠ 0

/-- `require_string(value, label)`. -/
def requireString (value : Value) (label : String) : Py PyStr :=
  match value with
  | .str s => do
    require (isTrimmed s = true) s!"{label} must be a non-empty trimmed string"
    require (isSingleLine s = true) s!"{label} must be a single-line string"
    pure s
  | _ => .error (.valueError s!"{label} must be a non-empty trimmed string")

/-- `datetime.strptime(text, "%Y-%m-%dT%H:%M:%SZ")` of a text of the canonical form. -/
def instant (text : PyStr) : Option Int :=
  match Clock.fields text.codePoints with
  | some (y, m, d, h, n, s) =>
    if 1 ≤ y ∧ 1 ≤ d ∧ d ≤ Clock.daysInMonth y m ∧ h < 24 ∧ n < 60 ∧ s < 60 then
      some (86400 * ((Clock.ordinal y m d : Int) - 719163) + 3600 * h + 60 * n + s)
    else none
  | none => none

/-- The instant of a text that must have the canonical form and be a date. -/
def readInstant (text : PyStr) (form date : String) : Py Int := do
  require ((Clock.fields text.codePoints).isSome = true) form
  match instant text with
  | some seconds => .ok seconds
  | none => .error (.valueError date)

/-- `timestamp(value, label)`. -/
def timestamp (value : Value) (label : String) : Py Int := do
  readInstant (← requireString value label) s!"{label} must be canonical UTC RFC3339"
    s!"{label} is not a valid timestamp"

/-- `now < start or now >= end`, of a time in microseconds. -/
def isWithin (now start stop : Int) : Bool := 1000000 * start ≤ now && now < 1000000 * stop

/-! ## 2. Forms -/

/-- `EVIDENCE_ID`. -/
def isEvidenceId : PyStr → Bool := isEvidence 127

/-- `SEMVER`. -/
def isVersion : PyStr → Bool := isSemver

/-- `[A-Za-z0-9]`. -/
def isAlnum (c : Nat) : Bool := isUpper c || isLower c || PyStr.isDigit c

/-- `[-A-Za-z0-9._/]`. -/
def isPathChar (c : Nat) : Bool := isAlnum c || c = 46 || c = 95 || c = 47 || c = 45

/-- `PROFILE`. -/
def isProfile : PyStr → Bool := isToken "" isAlnum isPathChar 2 (some 127)

/-- `REF`. -/
def isRef : PyStr → Bool := isToken "" isAlnum isPathChar 0 (some 199)

/-- `DIGEST`. -/
def isDigest (s : PyStr) : Bool := s.startsWith "sha256:" && PyStr.isHex 64 ⟨s.codePoints.drop 7⟩

/-- `CVE-[0-9]{4}-[0-9]{4,}`. -/
def isCve (s : PyStr) : Bool :=
  match s.split '-' with
  | [start, year, number] => start = "CVE" && (year.length = 4 && year.codePoints.all PyStr.isDigit) &&
      (4 ≤ number.length && number.codePoints.all PyStr.isDigit)
  | _ => false

/-- `[23456789cfghjmpqrvwx]{4}`. -/
def isGhsaPart (s : PyStr) : Bool :=
  s.length = 4 && s.codePoints.all fun c => (ofString "23456789cfghjmpqrvwx").codePoints.contains c

/-- `GHSA-` and three parts. -/
def isGhsa (s : PyStr) : Bool :=
  match s.split '-' with
  | [start, a, b, c] => start = "GHSA" && isGhsaPart a && isGhsaPart b && isGhsaPart c
  | _ => false

/-- `SECURITY_ID`. -/
def isSecurityId (s : PyStr) : Bool :=
  isCve s || isGhsa s || isToken "LIT-SEC-" isEvidenceChar isEvidenceChar 0 none s

/-- A list of distinct Security identifiers that is not empty. -/
def areIdentifiers : Value → Bool
  | .list items => items ≠ [] && (items.all fun item => match item with
      | .str s => isSecurityId s
      | _ => false) && (items.filterMap fun item => match item with
      | .str s => some s
      | _ => none).Nodup
  | _ => false

/-! ## 3. The request -/

def producerRepository : PyStr := "lightning-it/ansible-collection-supplementary"
def producerRepositoryId : PyStr := "1103407173"
def consumerRepository : PyStr := "lightning-it/container-ee-wunder-ansible-ubi9"
def recoveryEvent : PyStr := "mlx90-security-release-recovery"

def requestKeys : List PyStr := ["schemaVersion", "event", "repository", "repositoryId", "baseSha",
  "candidateRef", "candidateBaseSha", "candidateHeadSha", "candidateDiffSha256", "evidenceId",
  "fixedVersion", "acceptanceProfile", "metadataSha256", "chainId", "issuedAt", "expiresAt",
  "humanActions"]

/-- The nine fields of the one approved recovery. -/
def recoveryBinding : List (PyStr × PyStr) := [
  ("candidateBaseSha", "cde8e5544d8d787448ff456d51e08deb71c03880"),
  ("candidateHeadSha", "3e1423dc19465d1233196905ef3f48fd6c04f2f1"),
  ("candidateDiffSha256", "sha256:bd72aa7a6a382ff1537e3223e65552af5ffa24588c09a5596f8e9130ba6a6f23"),
  ("evidenceId", "MLX90-KEYCLOAK-26.7.1-3.2.4"),
  ("fixedVersion", "3.2.4"),
  ("acceptanceProfile", "lit.supplementary/keycloak-26.7.1-security-v1"),
  ("metadataSha256", "sha256:66d523781eaa82c496d6c8774f5af1e95bb2991f9d604fc1e29db837bb0dd38f"),
  ("issuedAt", "2026-08-08T22:48:24Z"),
  ("expiresAt", "2026-09-07T22:48:24Z")]

/-- `is_recovery_request(request)`. -/
def isRecoveryRequest (request : Value) : Bool := (request.get "event").isText recoveryEvent

/-- One field of a request that must be a text of a form. -/
def requireForm (request : Value) (name : PyStr) (label : String) (form : PyStr → Bool)
    (message : String) : Py PyStr := do
  let s ← requireString (request.get name) label
  require (form s = true) message
  pure s

/-- A field that must be a full commit. -/
def requireCommit (request : Value) (name : PyStr) (label : String) : Py PyStr :=
  requireForm request name label (PyStr.isHex 40) s!"{label} must be a full lowercase commit SHA"

/-- `compute_chain_id(...)`: the digest of the binding; what it is called with was checked. -/
def computeChainId (rt : Runtime) (baseSha headSha digest evidenceId version profile : PyStr) :
    Py PyStr := do
  let encoded ← canonical rt (.dict [
    ("repository", .str producerRepository), ("repositoryId", .str producerRepositoryId),
    ("baseSha", .str baseSha), ("candidateHeadSha", .str headSha),
    ("candidateDiffSha256", .str digest), ("evidenceId", .str evidenceId),
    ("fixedVersion", .str version), ("acceptanceProfile", .str profile)])
  pure ("sha256:" ++ rt.sha256 encoded)

/-- The event of a request; an unhashable one is a `TypeError`. -/
def requireEvent (event : Value) : Py Unit :=
  match event with
  | .list _ | .dict _ => .error .typeError
  | _ => require (event.isTextOf ["mlx90-security-release", recoveryEvent] = true)
      "Security intake event is unsupported"

/-- The first checks of `validate_request`: what the request is, and for whom. -/
def validateEnvelope (request : Value) (repository : PyStr) : Py Unit := do
  exactKeys request requestKeys "Security intake request"
  require (isInt (request.get "schemaVersion") 2 = true) "Security intake schemaVersion must be 2"
  require (repository = producerRepository ∧ (request.get "repository").isText repository = true)
    "Security intake repository does not match the exact producer repository"
  require ((request.get "repositoryId").isText producerRepositoryId = true)
    "Security intake repositoryId does not match the exact producer repository"
  requireEvent (request.get "event")
  require (isInt (request.get "humanActions") 0 = true)
    "Security Zero-Touch intake must declare humanActions=0"

/-- The validity interval of the request. -/
def validateInterval (request : Value) (now : Int) : Py Unit := do
  let issued ← timestamp (request.get "issuedAt") "issuedAt"
  let expires ← timestamp (request.get "expiresAt") "expiresAt"
  require (issued < expires) "Security intake validity interval is empty"
  require (isWithin now issued expires = true) "Security intake request is not currently valid"

/-- What the request approves. -/
structure Approved where
  evidenceId : PyStr
  version : PyStr
  profile : PyStr
  deriving DecidableEq

/-- `validate_request(request, repository, now)`. -/
def validateRequest (rt : Runtime) (request : Value) (repository : PyStr) (now : Int) :
    Py Approved := do
  validateEnvelope request repository
  let recovery := isRecoveryRequest request
  let baseSha ← requireCommit request "baseSha" "baseSha"
  let candidateBaseSha ← requireCommit request "candidateBaseSha" "candidateBaseSha"
  let headSha ← requireCommit request "candidateHeadSha" "candidateHeadSha"
  require (candidateBaseSha ≠ headSha) "candidate source range must not be empty"
  require (recovery = true ∨ candidateBaseSha = baseSha)
    "candidate source range must start at the authorized protected-main SHA"
  let digest ← requireForm request "candidateDiffSha256" "candidateDiffSha256" isDigest
    "candidateDiffSha256 must be a canonical SHA-256 digest"
  let _ ← requireForm request "metadataSha256" "metadataSha256" isDigest
    "metadataSha256 must be a canonical SHA-256 digest"
  let evidenceId ← requireForm request "evidenceId" "evidenceId" isEvidenceId "evidenceId is invalid"
  let version ← requireForm request "fixedVersion" "fixedVersion" isVersion
    "fixedVersion must be stable SemVer"
  let profile ← requireForm request "acceptanceProfile" "acceptanceProfile" isProfile
    "acceptanceProfile is invalid"
  let ref ← requireForm request "candidateRef" "candidateRef" (fun s => isRef s && !s.startsWith "/")
    "candidateRef is invalid"
  require (ref = "develop") "candidateRef must be the protected develop integration branch"
  validateInterval request now
  require (recovery = false ∨ (recoveryBinding.all fun e => (request.get e.1).isText e.2) = true)
    "Security recovery request differs from the one-time approved binding"
  let chainId ← computeChainId rt baseSha headSha digest evidenceId version profile
  require ((request.get "chainId").isText chainId = true)
    "Security intake chainId does not match its canonical binding"
  pure { evidenceId, version, profile }

/-! ## 4. The metadata and the registry -/

def metadataKeys : List PyStr := ["schemaVersion", "evidenceId", "createdAt", "securityIdentifiers",
  "affectedVersion", "fixedVersion", "consumers", "acceptanceProfile", "validity"]

def validityKeys : List PyStr := ["notBefore", "expiresAt", "revoked"]

/-- `validate_metadata_payload(metadata, ...)`. -/
def validateMetadataPayload (metadata : Value) (approved : Approved) (checkedAt : Int) :
    Py Unit := do
  exactKeys metadata metadataKeys "Security release metadata"
  require (isInt (metadata.get "schemaVersion") 1 = true)
    "Security release metadata schemaVersion must be 1"
  require ((metadata.get "evidenceId").isText approved.evidenceId = true)
    "Security metadata evidenceId does not match the intake"
  require ((metadata.get "fixedVersion").isText approved.version = true)
    "Security metadata fixedVersion does not match the intake"
  require ((metadata.get "acceptanceProfile").isText approved.profile = true)
    "Security metadata acceptanceProfile does not match the intake"
  require (areIdentifiers (metadata.get "securityIdentifiers") = true)
    "Security metadata identifiers are invalid"
  let affected ← requireString (metadata.get "affectedVersion") "affectedVersion"
  require (isVersion affected = true ∧ affected ≠ approved.version)
    "Security metadata affectedVersion is invalid"
  require ((metadata.get "consumers").pyEq (.list [.str consumerRepository]) = true)
    "Security metadata consumer allowlist must contain only the exact MLX-90 consumer"
  let validity := metadata.get "validity"
  require (validity.isDict = true) "Security metadata validity must be an object"
  exactKeys validity validityKeys "Security release validity"
  require ((validity.get "revoked").isFalse = true) "Security release metadata is revoked"
  let created ← timestamp (metadata.get "createdAt") "createdAt"
  let notBefore ← timestamp (validity.get "notBefore") "validity.notBefore"
  let expires ← timestamp (validity.get "expiresAt") "validity.expiresAt"
  require (notBefore ≤ created ∧ created < expires)
    "Security metadata createdAt is outside its validity interval"
  require (isWithin checkedAt notBefore expires = true)
    "Security release metadata is not currently valid"

def profileKeys : List PyStr := ["description", "releaseEligible"]

/-- One profile of the registry.  The messages are kept without the name of the profile. -/
def validateProfile (name : PyStr) (profile : Value) : Py Unit := do
  require (isProfile name = true) "acceptance-profile registry contains an invalid profile id"
  require (profile.isDict = true) "acceptance profile must be an object"
  exactKeys profile profileKeys "acceptance profile"
  let _ ← requireString (profile.get "description") "acceptance profile description"
  require ((profile.get "releaseEligible").isBool = true)
    "acceptance profile releaseEligible must be boolean"

/-- `validate_profile_registry(registry, profile_id)`. -/
def validateProfileRegistry (registry : Value) (profileId : PyStr) : Py Unit := do
  exactKeys registry ["schemaVersion", "profiles"] "acceptance-profile registry"
  require (isInt (registry.get "schemaVersion") 1 = true)
    "acceptance-profile registry is unsupported"
  let profiles := registry.get "profiles"
  require (profiles.isDict = true ∧ profiles.entries ≠ [])
    "acceptance-profile registry profiles must be a non-empty object"
  profiles.entries.forM fun e => validateProfile e.1 e.2
  let selected := profiles.get profileId
  require (selected.isDict = true ∧ (selected.get "releaseEligible").isTrue = true)
    "acceptance profile was not pre-approved on protected main"

end Supplementary.Security
