/-
# The vocabulary of the role registry, and its test-application policy

`validate-role-coverage.py` reads `meta/role-coverage.yml`.  Here are its constants, the forms of
names it accepts, the checks it shares between fields, and `validate_test_application_policy`, which
looks at one entry of one scenario.
-/
import Supplementary.Lib.Ledger
import Supplementary.Python.Yaml
import Mathlib.Data.List.Dedup

namespace Supplementary.Roles

open Supplementary PyStr Ledger

/-! ## 1. Constants -/

def profiles : List PyStr := ["tiny", "heavy", "application_acceptance"]

def requiredProfileStates : List PyStr :=
  ["supported", "experimental", "not-applicable", "blocked-external-service",
    "blocked-external-license", "blocked-external-infrastructure", "deprecated"]

def requiredRoleFields : List PyStr :=
  ["component", "classification", "maturity", "supported_targets", "candidate_targets", "tiny",
    "heavy", "application_acceptance", "acceptance_surface", "dependencies",
    "external_dependencies", "known_limitations", "deprecation_state", "scenario_support"]

def requiredScenarioFields : List PyStr :=
  ["profile", "state", "implementation", "roles", "junit", "allure", "evidence",
    "test_application"]

def implementations : List PyStr := ["real", "partial", "stub", "skip", "deprecation-contract"]

def maturities : List PyStr := ["production", "experimental", "deprecated"]

def deprecationStates : List PyStr := ["active", "deprecated"]

def testApplicationModes : List PyStr :=
  ["runtime-container", "declared-evidence", "not-applicable"]

def testApplicationTypes : List PyStr :=
  ["application", "external-api", "host-package", "host-service"]

def testApplicationPolicyFields : List PyStr := ["mode", "reason", "dependencies"]

def testApplicationDependencyFields : List PyStr := ["type", "name", "version", "evidence_path"]

def testApplicationDependencyOptionalFields : List PyStr := ["digest"]

def mutableTestApplicationVersions : List PyStr :=
  ["latest", "n/a", "not-applicable", "unknown", "unversioned", "unspecified"]

def governanceMarkers : List PyStr :=
  ["<!-- role-quality-governance:start -->", "<!-- role-quality-governance:end -->"]

def governanceTokens : List PyStr :=
  ["meta/role-coverage.yml", "tiny", "heavy", "application acceptance", "evidence", "release"]

def galaxyTargets : List (PyStr × PyStr × PyStr) :=
  [("rhel-8", "EL", "8"), ("rhel-9", "EL", "9"), ("rhel-10", "EL", "10"),
    ("ubuntu-22.04", "Ubuntu", "jammy"), ("ubuntu-24.04", "Ubuntu", "noble")]

def approvedRunnerSets : List (List PyStr) :=
  [["self-hosted", "linux", "x64", "incus"],
    ["self-hosted", "linux", "x64", "incus", "keycloak-test"]]

def targetFields : List PyStr := ["supported_targets", "candidate_targets"]

def evidenceFields : List PyStr := ["junit", "allure", "evidence"]

/-! ## 2. Forms of names -/

def isAlnum (c : Nat) : Bool := isUpper c || isLower c || PyStr.isDigit c

/-- The characters of a text. -/
def isOneOf (s : PyStr) (c : Nat) : Bool := s.codePoints.contains c

/-- `[A-Za-z0-9][A-Za-z0-9._-]{0,62}`. -/
def isSafeIdentifier : PyStr → Bool :=
  isToken "" isAlnum (fun c => isAlnum c || isOneOf "._-" c) 0 (some 62)

/-- `[a-z][a-z0-9_]{0,62}`. -/
def isSafeRole : PyStr → Bool :=
  isToken "" isLower (fun c => isLower c || PyStr.isDigit c || isOneOf "_" c) 0 (some 62)

/-- A letter or digit, then at most 511 letters, digits and `._:/@+-`. -/
def isSafeImage : PyStr → Bool :=
  isToken "" isAlnum (fun c => isAlnum c || isOneOf "._:/@+-" c) 0 (some 511)

/-- `[A-Z][A-Z0-9_]{0,127}`. -/
def isSafeImageVariable : PyStr → Bool :=
  isToken "" isUpper (fun c => isUpper c || PyStr.isDigit c || isOneOf "_" c) 0 (some 127)

/-- `[A-Za-z0-9][A-Za-z0-9._-]{0,62}`. -/
def isSafeRunnerLabel : PyStr → Bool := isSafeIdentifier

/-- A letter or digit, then at most 127 letters, digits and `._+:/@-`. -/
def isSafeApplicationVersion : PyStr → Bool :=
  isToken "" isAlnum (fun c => isAlnum c || isOneOf "._+:/@-" c) 0 (some 127)

/-- `sha256:[0-9a-f]{64}`. -/
def isSha256Digest (s : PyStr) : Bool :=
  s.startsWith "sha256:" && PyStr.isHex 64 ⟨s.codePoints.drop 7⟩

/-- `version.lower()` of ASCII characters. -/
def lowerAscii (s : PyStr) : PyStr := ⟨s.codePoints.map fun c => if isUpper c then c + 32 else c⟩

/-! ## 3. Shared checks -/

/-- A check of the registry: it raises, or appends to the list of errors. -/
abbrev Check (α : Type) := Ledger PyError PyStr α

def requireStringList (value : Yaml) (name : PyStr) : Check (List PyStr) :=
  match value.strings? with
  | some texts => do
    require texts.Nodup (name ++ " contains duplicate values")
    return texts
  | none => do
    report (name ++ " must be a list of strings")
    pure []

theorem clean_requireStringList {value : Yaml} {name : PyStr} {texts : List PyStr} :
    Clean (requireStringList value name) texts ↔ value = .list (texts.map .str) ∧ texts.Nodup := by
  unfold requireStringList
  split
  · next texts' h =>
    rw [clean_then, clean_require, clean_pure, ← Yaml.strings?_eq_some, h, Option.some.injEq]
    constructor
    · rintro ⟨hnodup, rfl⟩
      exact ⟨rfl, hnodup⟩
    · rintro ⟨rfl, hnodup⟩
      exact ⟨hnodup, rfl⟩
  · next h =>
    rw [← Yaml.strings?_eq_some, h]
    simp [clean_then, not_clean_report]

/-- The required fields that a mapping lacks. -/
def missingFields (required : List PyStr) (fields : Fields) : List PyStr :=
  sorted (required.filter fun name => !hasField fields name)

theorem missingFields_eq_nil {required : List PyStr} {fields : Fields} :
    missingFields required fields = [] ↔ ∀ name ∈ required, hasField fields name = true := by
  rw [missingFields, sorted, List.eq_nil_iff_forall_not_mem]
  simp [List.mem_insertionSort]

/-- The keys that are not among the allowed ones; `sorted` and `str.join` raise on a key that is not
a text. -/
def unexpectedFields (allowed : List PyStr) (fields : Fields) : Py (List PyStr) := do
  let unexpected ← ((items fields).filter fun e => e.1 ∉ allowed.map Key.str).mapM fun e => e.1.text
  return sorted unexpected

/-! ## 4. Test applications -/

/-- `PurePosixPath(text)`: its root and the parts below it. -/
def purePosixPath (s : PyStr) : PyStr × List PyStr :=
  let root : PyStr := if s.startsWith "//" && !s.startsWith "///" then "//"
    else if s.startsWith "/" then "/" else ""
  (root, (s.segments "/").filter fun part => part ≠ "" && part ≠ ".")

/-- `path.parts`. -/
def pathParts (path : PyStr × List PyStr) : List PyStr :=
  if path.1 = "" then path.2 else path.1 :: path.2

/-- `path / text`. -/
def pathJoin (path : PyStr × List PyStr) (s : PyStr) : PyStr × List PyStr :=
  let below := purePosixPath s
  if below.1 = "" then (path.1, path.2 ++ below.2) else below

/-- `path.as_posix()`. -/
def pathAsPosix (path : PyStr × List PyStr) : PyStr :=
  if pathParts path = [] then "." else path.1 ++ join "/" path.2

/-- `reason == reason.strip()`. -/
def isTrimmed (s : PyStr) : Bool :=
  s.codePoints.head?.all (fun c => !isSpace c) && s.codePoints.getLast?.all fun c => !isSpace c

/-- The path of a dependency's evidence is below the root of the scenario. -/
def isEvidencePath (root : PyStr × List PyStr) (s : PyStr) : Bool :=
  let path := purePosixPath s
  s ≠ "" && path.1 = "" && !path.2.contains ".." && path.2 ≠ [] &&
    path.2.take 2 = pathParts root && s.length ≤ 255

/-- One dependency claim; `identities` are those of the claims before it. -/
def validateDependency (scenarioName dependencyPrefix : PyStr) (dependency : Fields)
    (identities : List (PyStr × PyStr × PyStr)) : Check (List (PyStr × PyStr × PyStr)) := do
  let missing := missingFields testApplicationDependencyFields dependency
  let unexpected ← call (unexpectedFields
    (testApplicationDependencyFields ++ testApplicationDependencyOptionalFields) dependency)
  require (missing = []) (dependencyPrefix ++ " missing fields: " ++ join ", " missing)
  require (unexpected = []) (dependencyPrefix ++ " has unexpected fields: " ++ join ", " unexpected)
  let dependencyType := field dependency "type"
  let name := field dependency "name"
  let version := field dependency "version"
  let typed ← call (dependencyType.inTexts testApplicationTypes)
  require typed (dependencyPrefix ++ ".type has invalid value: " ++ dependencyType.repr)
  require (name.isStrOf isSafeIdentifier)
    (dependencyPrefix ++ ".name must be a safe identifier of at most 63 characters")
  require (version.isStrOf fun s =>
      isSafeApplicationVersion s && !mutableTestApplicationVersions.contains (lowerAscii s))
    (dependencyPrefix ++ ".version must be an immutable, explicit version")
  let root := pathJoin (purePosixPath "test-applications") scenarioName
  require ((field dependency "evidence_path").isStrOf (isEvidencePath root))
    (dependencyPrefix ++ ".evidence_path must be a safe path below " ++ pathAsPosix root)
  let digest := field dependency "digest"
  require (digest.isNone || digest.isStrOf isSha256Digest)
    (dependencyPrefix ++ ".digest must be a lowercase sha256 digest")
  match dependencyType, name, version with
  | .str t, .str n, .str v =>
    require ((t, n, v) ∉ identities)
      (dependencyPrefix ++ " duplicates dependency identity " ++ t ++ ":" ++ n ++ "@" ++ v)
    return (t, n, v) :: identities
  | _, _, _ => return identities

def validateDependencies (scenarioName testApplication : PyStr) :
    Nat → List (PyStr × PyStr × PyStr) → List Yaml → Check Unit
  | _, _, [] => pure ()
  | index, identities, dependency :: rest =>
    let dependencyPrefix := testApplication ++ ".dependencies[" ++ ofInt index ++ "]"
    match dependency with
    | .dict fields => do
      let identities ← validateDependency scenarioName dependencyPrefix fields identities
      validateDependencies scenarioName testApplication (index + 1) identities rest
    | _ => do
      report (dependencyPrefix ++ " must be a mapping")
      validateDependencies scenarioName testApplication (index + 1) identities rest

def validateTestApplicationPolicy (scenarioName : PyStr) (scenario : Fields) : Check Unit :=
  let testApplication : PyStr := "scenario " ++ scenarioName ++ ".test_application"
  match field scenario "test_application" with
  | .dict policy => do
    let missing := missingFields testApplicationPolicyFields policy
    let unexpected ← call (unexpectedFields testApplicationPolicyFields policy)
    require (missing = []) (testApplication ++ " missing fields: " ++ join ", " missing)
    require (unexpected = [])
      (testApplication ++ " has unexpected fields: " ++ join ", " unexpected)
    let mode := field policy "mode"
    let known ← call (mode.inTexts testApplicationModes)
    require known (testApplication ++ ".mode has invalid value: " ++ mode.repr)
    require ((field policy "reason").isStrOf fun reason =>
        isTrimmed reason && 20 ≤ reason.length && reason.length ≤ 500 &&
          reason.codePoints.all fun c => 32 ≤ c)
      (testApplication ++ ".reason must be a trimmed single-line string of 20 to 500 characters")
    let dependencies ← match field policy "dependencies" with
      | .list dependencies => pure dependencies
      | _ => do
        report (testApplication ++ ".dependencies must be a list")
        pure []
    require (¬ (mode.isText "declared-evidence" ∧ dependencies.isEmpty))
      (testApplication ++ " declared-evidence mode requires at least one dependency claim")
    require (¬ ((mode.isText "runtime-container" ∨ mode.isText "not-applicable") ∧
        ¬ dependencies.isEmpty))
      (testApplication ++ " " ++ mode.text ++ " mode must not declare dependency claims")
    let built ← if mode.isText "runtime-container" then
        call ((field scenario "implementation").inTexts ["real", "partial"])
      else pure true
    require built
      (testApplication ++ " runtime-container mode requires a real or partial implementation")
    require (¬ (mode.isText "not-applicable" ∧ (field scenario "state").isText "supported" ∧
        (field scenario "implementation").isText "real"))
      (testApplication ++ " supported real scenarios cannot declare not-applicable")
    validateDependencies scenarioName testApplication 0 [] dependencies
  | _ => report (testApplication ++ " must be a mapping")

end Supplementary.Roles
