/-
# `validate_registry`

The checks of the registry, one definition for each entry of a mapping that the source loops over.
What the checks find in the checkout around the registry is a `Checkout`: the files, and the three
parts that look at nothing but files and append their own errors (the structure of a supported
scenario, the AAP overlay, the freshness of what is generated).
-/
import Supplementary.Roles.Policy

namespace Supplementary.Roles

open Supplementary PyStr Ledger

/-- What `validate_registry` asks of the checkout, and of the interpreter. -/
structure Checkout where
  /-- The directories under `roles/`. -/
  discoveredRoles : Py (List PyStr)
  /-- The directories under `molecule/` that have a `molecule.yml`. -/
  discoveredScenarios : Py (List PyStr)
  roleLocalScenarios : Py (List PyStr)
  isFile : (path : PyStr) → Py Bool
  readText : (path : PyStr) → Py PyStr
  /-- `yaml.safe_load` of a file; the text of an `OSError` or `YAMLError`. -/
  load : (path : PyStr) → Py (Except PyStr Yaml)
  /-- The platforms that the Galaxy metadata of a role declares, read like `load`. -/
  declaredPlatforms : (role : PyStr) → Py (Except PyStr (List (PyStr × PyStr)))
  supportedScenarioStructureErrors : PyStr → (scenario : Fields) → Py (List PyStr)
  validateAapOverlay : (registry : Fields) → Py (List PyStr)
  generatedFreshnessErrors : (registry : Fields) → Py (List PyStr)
  /-- `NONPRODUCTION_SUPPORT_CLAIM.search(text)`. -/
  claimsSupport : PyStr → Bool
  /-- `text.lower()`. -/
  lower : PyStr → PyStr

/-! ## 1. Shared parts -/

def setDifferenceMessage (label : PyStr) (expected : List PyStr) (actual : List Key) :
    Py (List PyStr) := do
  let missing := sorted (expected.filter fun name => Key.str name ∉ actual).dedup
  let extra ← (actual.filter fun key => key ∉ expected.map Key.str).mapM Key.text
  let extra := sorted extra
  let missingErrors := if missing = [] then [] else
    [label ++ " missing entries: " ++ join ", " missing]
  let extraErrors := if extra = [] then [] else
    [label ++ " references missing filesystem entries: " ++ join ", " extra]
  return missingErrors ++ extraErrors

/-- `[target for target in roles[role_name].get(target_field, [])]`, each as a `str`. -/
def targetTexts (roles : Yaml) (targetField roleName : PyStr) : Py (List PyStr) := do
  let role ← roles.item roleName
  match role with
  | .dict fields =>
    let targets ← (fieldD fields targetField (.list [])).iterate
    return targets.map Yaml.text
  | _ => .error .attributeError

/-- The two lists have the same members. -/
def sameSet (xs ys : List PyStr) : Bool := xs.all (· ∈ ys) && ys.all (· ∈ xs)

/-- `f"{role_name}={sorted(targets)}"`. -/
def targetSetText (targetSet : PyStr × List PyStr) : PyStr :=
  targetSet.1 ++ "=" ++ (Yaml.list ((sorted targetSet.2.dedup).map .str)).repr

/-- `_shared_scenario_target_set`: the set that all the roles share, or the text of a `ValueError`.
The roles come sorted and without duplicates. -/
def sharedScenarioTargetSet (roles : Yaml) (scenarioName : PyStr) (productionRoles : List PyStr)
    (targetField : PyStr) : Py (Except PyStr (List PyStr)) := do
  let targetSets ← productionRoles.mapM (targetTexts roles targetField)
  match targetSets with
  | [] => return .ok []
  | first :: rest =>
    if rest.all (sameSet first) then return .ok first
    else return .error ("scenario " ++ scenarioName ++
      " production roles must declare identical " ++ targetField ++ "; " ++
      join ", " ((productionRoles.zip targetSets).map targetSetText))

/-- `filter` with a predicate that may raise. -/
def filterPy {α : Type} (p : α → Py Bool) : List α → Py (List α)
  | [] => .ok []
  | x :: rest => do
    let keep ← p x
    let kept ← filterPy p rest
    return if keep then x :: kept else kept

theorem filterPy_eq {α : Type} {p : α → Py Bool} {q : α → Bool} {xs : List α}
    (h : ∀ x ∈ xs, p x = .ok (q x)) : filterPy p xs = .ok (xs.filter q) := by
  induction xs with
  | nil => rfl
  | cons x rest ih =>
    have hx := h x (List.mem_cons_self ..)
    have hrest := ih fun y hy => h y (List.mem_cons_of_mem _ hy)
    simp only [filterPy, hx, hrest, ok_bind, List.filter_cons]
    rfl

/-- The mapping in a field of the registry. -/
def mappingOr (value : Yaml) (message : PyStr) : Check Fields :=
  match value with
  | .dict fields => pure fields
  | _ => do
    report message
    pure []

theorem clean_mappingOr {value : Yaml} {message : PyStr} {fields : Fields} :
    Clean (mappingOr value message) fields ↔ value = .dict fields := by
  unfold mappingOr
  split
  · simp [clean_pure]
  · next h =>
    rw [clean_then]
    simp only [not_clean_report, false_and, false_iff]
    rintro rfl
    exact h _ rfl

/-! ## 2. Targets -/

/-- The image fields of a target that are not empty. -/
def imageFields (target : Fields) : List PyStr :=
  (["image", "image_variable"] : List PyStr).filter fun name => (field target name).truthy

def validateImage (name : PyStr) (target : Fields) : Check Unit :=
  match imageFields target with
  | [imageField] =>
    let value := field target imageField
    if !value.isStr then
      report ("target " ++ name ++ "." ++ imageField ++ " must be a string")
    else if imageField = "image" then
      require (value.isStrOf isSafeImage)
        ("target " ++ name ++ ".image contains unsafe characters or is too long")
    else
      require (value.isStrOf isSafeImageVariable)
        ("target " ++ name ++ ".image_variable must be a safe uppercase variable name")
  | _ => report ("target " ++ name ++ " must declare exactly one of image or image_variable")

def validateTarget : Key × Yaml → Check Unit
  | (.str name, .dict target) => do
    require (isSafeIdentifier name)
      ("target " ++ name.repr ++ " must be a safe identifier of at most 63 characters")
    require ((field target "family").isStr && (field target "version").isStr)
      ("target " ++ name ++ " must declare string family and version")
    validateImage name target
    let placed ← call ((field target "instance_type").inTexts ["container", "vm"])
    require placed ("target " ++ name ++ ".instance_type must be container or vm")
    let runner ← requireStringList (field target "runner") ("target " ++ name ++ ".runner")
    require (runner.all isSafeRunnerLabel) ("target " ++ name ++ ".runner contains an unsafe label")
    require (runner ∈ approvedRunnerSets)
      ("target " ++ name ++ ".runner is not an approved protected Incus runner label set")
  | _ => report "every targets entry must be a named mapping"

/-! ## 3. Roles -/

/-- A scenario that a role maps under a profile. -/
def validateMappedScenario (scenarios : Fields) (roleName profile scenarioName : PyStr) :
    Check Unit :=
  match field scenarios scenarioName with
  | .dict scenario => do
    let scenarioProfile := field scenario "profile"
    require (scenarioProfile.isText profile)
      ("role " ++ roleName ++ " maps " ++ scenarioName ++ " under " ++ profile ++
        ", but scenario profile is " ++ scenarioProfile.repr)
    let reports ← call (((field scenario "roles").orElse (.list [])).contains roleName)
    require reports ("role " ++ roleName ++ " maps " ++ scenarioName ++
      ", but scenario does not report the role")
  | _ => report ("role " ++ roleName ++ " references unknown scenario " ++ scenarioName)

def validateRoleProfile (scenarios : Fields) (roleName : PyStr) (role support : Fields)
    (profile : PyStr) : Check Unit := do
  let state := field role profile
  let known ← call (state.inTexts requiredProfileStates)
  require known ("role " ++ roleName ++ "." ++ profile ++ " has invalid state: " ++ state.repr)
  let scenarioNames ← requireStringList (field support profile)
    ("role " ++ roleName ++ ".scenario_support." ++ profile)
  each scenarioNames (validateMappedScenario scenarios roleName profile)

/-- A scenario that a production role maps; its name is what the list holds. -/
def validateProductionScenario (scenarios : Fields) (roleName : PyStr) (scenarioName : Yaml) :
    Check Unit := do
  let scenario ← call ((Yaml.dict scenarios).get scenarioName)
  let scenario := scenario.orElse (.dict [])
  let opening : PyStr := "role " ++ roleName ++ " production scenario " ++ scenarioName.text
  let state ← call (scenario.get (.str "state"))
  require (state.isText "supported") (opening ++ " must be supported")
  let implementation ← call (scenario.get (.str "implementation"))
  require (implementation.isText "real") (opening ++ " must be real")
  each evidenceFields fun name => do
    let value ← call (scenario.get (.str name))
    require value.isTrue (opening ++ " requires " ++ name ++ ": true")

def validateProductionProfile (scenarios : Fields) (roleName : PyStr) (role support : Fields)
    (profile : PyStr) : Check Unit :=
  if !(field role profile).isText "supported" then
    report ("role " ++ roleName ++ " production maturity requires " ++ profile ++ ": supported")
  else do
    let scenarioNames := (field support profile).orElse (.list [])
    require scenarioNames.truthy
      ("role " ++ roleName ++ " production " ++ profile ++ " requires a scenario")
    let names ← call scenarioNames.iterate
    each names (validateProductionScenario scenarios roleName)

/-- `str(sorted(platforms))`. -/
def platformsText (platforms : List (PyStr × PyStr)) : PyStr :=
  let texts : List PyStr := platforms.dedup.map fun p => "(" ++ p.1.repr ++ ", " ++ p.2.repr ++ ")"
  "[" ++ join ", " (sorted texts) ++ "]"

def validatePlatforms (checkout : Checkout) (roleName : PyStr) (supportedTargets : List PyStr) :
    Check Unit := do
  let declared ← call (checkout.declaredPlatforms roleName)
  match declared with
  | .error message => report ("role " ++ roleName ++ " has unreadable Galaxy metadata: " ++ message)
  | .ok declared =>
    let expected := (galaxyTargets.filter fun t => t.1 ∈ supportedTargets).map fun t => t.2
    require (declared ⊆ expected ∧ expected ⊆ declared)
      ("role " ++ roleName ++ " Galaxy platforms " ++ platformsText declared ++
        " must exactly match registry-supported targets " ++ platformsText expected)

def validateProduction (checkout : Checkout) (scenarios : Fields) (roleName : PyStr)
    (role support : Fields) (supportedTargets : List PyStr) : Check Unit := do
  require (supportedTargets ≠ [])
    ("role " ++ roleName ++ " production maturity requires supported_targets")
  each profiles (validateProductionProfile scenarios roleName role support)
  validatePlatforms checkout roleName supportedTargets

/-- A text field that must not be empty. -/
def requireText (role : Fields) (opening name : PyStr) : Check Unit :=
  require ((field role name).isStrOf fun s => s ≠ "")
    (opening ++ "." ++ name ++ " must be a non-empty string")

def validateComponent (role : Fields) (opening : PyStr) : Check Unit :=
  if !(field role "component").isStrOf fun s => s ≠ "" then
    report (opening ++ ".component must be a non-empty string")
  else
    require ((field role "component").isStrOf isSafeIdentifier)
      (opening ++ ".component must be a safe identifier of at most 63 characters")

def validateMaturity (role : Fields) (opening : PyStr) : Check Unit := do
  let maturity := field role "maturity"
  let known ← call (maturity.inTexts maturities)
  require known (opening ++ " has invalid maturity: " ++ maturity.repr)
  let deprecationState := field role "deprecation_state"
  let known ← call (deprecationState.inTexts deprecationStates)
  require known (opening ++ " has invalid deprecation_state: " ++ deprecationState.repr)
  require (¬ (maturity.isText "deprecated" ∧ ¬ deprecationState.isText "deprecated"))
    (opening ++ " maturity deprecated requires deprecation_state deprecated")
  require (¬ (deprecationState.isText "deprecated" ∧ ¬ maturity.isText "deprecated"))
    (opening ++ " deprecation_state deprecated requires maturity deprecated")

/-- The targets that a role supports. -/
def validateRoleTargets (targets role : Fields) (opening : PyStr) : Check (List PyStr) := do
  let supportedTargets ← requireStringList (field role "supported_targets")
    (opening ++ ".supported_targets")
  let candidateTargets ← requireStringList (field role "candidate_targets")
    (opening ++ ".candidate_targets")
  let undefinedTargets :=
    sorted ((supportedTargets ++ candidateTargets).filter fun t => !hasField targets t).dedup
  require (undefinedTargets = [])
    (opening ++ " uses undefined targets: " ++ join ", " undefinedTargets)
  let overlap := sorted (supportedTargets.filter (· ∈ candidateTargets)).dedup
  require (overlap = [])
    (opening ++ " targets cannot be both supported and candidate: " ++ join ", " overlap)
  return supportedTargets

/-- `set(support) == set(PROFILES)`. -/
def mapsProfiles (support : Fields) : Bool :=
  profiles.all (hasField support) && support.all fun e => e.1 ∈ profiles.map Key.str

def scenarioSupport (role : Fields) (opening : PyStr) : Check Fields := do
  let message : PyStr := opening ++ ".scenario_support must map exactly " ++ join ", " profiles
  let support ← mappingOr (field role "scenario_support") message
  if mapsProfiles support then pure support else do
    -- a value that is no mapping has been reported already
    onlyIf (field role "scenario_support").isDict (report message)
    pure []

def validateRoleFields (checkout : Checkout) (targets scenarios : Fields) (roleName : PyStr)
    (role : Fields) : Check Unit := do
  let opening : PyStr := "role " ++ roleName
  let missing := missingFields requiredRoleFields role
  require (missing = []) (opening ++ " missing fields: " ++ join ", " missing)
  validateMaturity role opening
  let supportedTargets ← validateRoleTargets targets role opening
  each ["dependencies", "external_dependencies"] fun name => do
    let _ ← requireStringList (field role name) (opening ++ "." ++ name)
  let knownLimitations ← requireStringList (field role "known_limitations")
    (opening ++ ".known_limitations")
  require (knownLimitations ≠ [])
    (opening ++ ".known_limitations must explicitly describe support boundaries")
  validateComponent role opening
  requireText role opening "classification"
  requireText role opening "acceptance_surface"
  let support ← scenarioSupport role opening
  each profiles (validateRoleProfile scenarios roleName role support)
  onlyIf ((field role "maturity").isText "production")
    (validateProduction checkout scenarios roleName role support supportedTargets)

def validateRole (checkout : Checkout) (targets scenarios : Fields) (e : Key × Yaml) :
    Check Unit := do
  let roleName ← call e.1.text
  require (isSafeRole roleName)
    ("role " ++ roleName ++ " name must be a safe role identifier of at most 63 characters")
  match e.2 with
  | .dict role => validateRoleFields checkout targets scenarios roleName role
  | _ => report ("role " ++ roleName ++ " must be a mapping")

/-! ## 4. Scenarios -/

/-- A role that a scenario reports. -/
def validateReportedRole (roles : Fields) (scenarioName : PyStr) (scenarioProfile : Yaml)
    (roleName : PyStr) : Check Unit := do
  let role := (field roles roleName).orElse (.dict [])
  let support ← call (role.get (.str "scenario_support"))
  let support := support.orElse (.dict [])
  let names ← call (support.get scenarioProfile)
  let listed ← call ((names.orElse (.list [])).contains scenarioName)
  require listed ("scenario " ++ scenarioName ++ " reports " ++ roleName ++
    ", but role scenario_support." ++ scenarioProfile.text ++ " omits it")

/-- The role is one of production maturity that supports the profile. -/
def isProductionRole (roles : Fields) (scenarioProfile : Yaml) (roleName : PyStr) : Py Bool :=
  match field roles roleName with
  | .dict role =>
    if (field role "maturity").isText "production" then do
      let state ← (Yaml.dict role).get scenarioProfile
      return state.isText "supported"
    else .ok false
  | _ => .ok false

/-- The `ValueError` of `_shared_scenario_target_set` becomes an error of the registry. -/
def validateSharedTargets (roles : Fields) (scenarioName : PyStr) (productionRoles : List PyStr)
    (targetField : PyStr) : Check Unit := do
  let shared ← call
    (sharedScenarioTargetSet (.dict roles) scenarioName productionRoles targetField)
  match shared with
  | .ok _ => pure ()
  | .error message => report message

def scenarioHasVerify (checkout : Checkout) (scenarioName : PyStr) : Check Unit := do
  let present ← call (checkout.isFile ("molecule/" ++ scenarioName ++ "/verify.yml"))
  require present ("scenario " ++ scenarioName ++ " is missing verify.yml")
  let config ← call (checkout.load ("molecule/" ++ scenarioName ++ "/molecule.yml"))
  match config with
  | .error message =>
    report ("scenario " ++ scenarioName ++ " has unreadable molecule.yml: " ++ message)
  | .ok config => do
    let section' ← call ((config.orElse (.dict [])).get (.str "scenario"))
    let sequence ← call ((section'.orElse (.dict [])).get (.str "test_sequence"))
    require (sequence.listHas "verify")
      ("scenario " ++ scenarioName ++ " must include verify in scenario.test_sequence")

def validateImplementation (scenario : Fields) (opening : PyStr) : Check Unit := do
  let scenarioProfile := field scenario "profile"
  require (profiles.any scenarioProfile.isText)
    (opening ++ " has invalid profile: " ++ scenarioProfile.repr)
  let state := field scenario "state"
  let known ← call (state.inTexts requiredProfileStates)
  require known (opening ++ " has invalid state: " ++ state.repr)
  let implementation := field scenario "implementation"
  let known ← call (implementation.inTexts implementations)
  require known (opening ++ " has invalid implementation: " ++ implementation.repr)
  require (¬ (implementation.isText "deprecation-contract" ∧ ¬ state.isText "deprecated"))
    (opening ++ " deprecation-contract implementation requires deprecated state")
  require (¬ (state.isText "deprecated" ∧ ¬ implementation.isText "deprecation-contract"))
    (opening ++ " deprecated state requires deprecation-contract implementation")

/-- A scenario is supported and real. -/
def isReal (scenario : Fields) : Bool :=
  (field scenario "state").isText "supported" && (field scenario "implementation").isText "real"

def validateScenarioFields (checkout : Checkout) (roles : Fields) (scenarioName : PyStr)
    (scenario : Fields) : Check Unit := do
  let opening : PyStr := "scenario " ++ scenarioName
  let missing := missingFields requiredScenarioFields scenario
  require (missing = []) (opening ++ " missing fields: " ++ join ", " missing)
  validateImplementation scenario opening
  let scenarioRoles ← requireStringList (field scenario "roles") (opening ++ ".roles")
  require (scenarioRoles ≠ []) (opening ++ ".roles must report at least one role")
  let unknownRoles := sorted (scenarioRoles.filter fun name => !hasField roles name).dedup
  require (unknownRoles = []) (opening ++ " reports unknown roles: " ++ join ", " unknownRoles)
  each evidenceFields fun name =>
    require (field scenario name).isBool (opening ++ "." ++ name ++ " must be boolean")
  validateTestApplicationPolicy scenarioName scenario
  let exercised ← requireStringList (fieldD scenario "exercised_dependencies" (.list []))
    (opening ++ ".exercised_dependencies")
  let unknown := sorted (exercised.filter fun name => !hasField roles name).dedup
  require (unknown = []) (opening ++ " exercises unknown role dependencies: " ++ join ", " unknown)
  let scenarioProfile := field scenario "profile"
  each scenarioRoles (validateReportedRole roles scenarioName scenarioProfile)
  let productionRoles ← call (filterPy (isProductionRole roles scenarioProfile) scenarioRoles)
  let productionRoles := sorted productionRoles
  onlyIf (isReal scenario ∧ 1 < productionRoles.length)
    (each targetFields (validateSharedTargets roles scenarioName productionRoles))
  scenarioHasVerify checkout scenarioName
  let structureErrors ← call (if isReal scenario then
      checkout.supportedScenarioStructureErrors scenarioName scenario
    else .ok [])
  reports structureErrors

def validateScenario (checkout : Checkout) (roles : Fields) (e : Key × Yaml) : Check Unit := do
  let scenarioName ← call e.1.text
  require (isSafeIdentifier scenarioName)
    ("scenario " ++ scenarioName ++ " name must be a safe identifier of at most 63 characters")
  match e.2 with
  | .dict scenario => validateScenarioFields checkout roles scenarioName scenario
  | _ => report ("scenario " ++ scenarioName ++ " must be a mapping")

/-! ## 5. The registry -/

def validateGovernance (checkout : Checkout) : Check Unit := do
  let present ← call (checkout.isFile "AGENTS.md")
  let agents ← call (if present then checkout.readText "AGENTS.md" else .ok "")
  each governanceMarkers fun marker =>
    require (agents.contains marker) ("AGENTS.md missing governance marker: " ++ marker)
  each governanceTokens fun token =>
    require ((checkout.lower agents).contains token)
      ("AGENTS.md governance section missing token: " ++ token)

def validateReadme (checkout : Checkout) (e : Key × Yaml) : Check Unit := do
  let roleName ← call e.1.text
  let readme : PyStr := "roles/" ++ roleName ++ "/README.md"
  let present ← call (checkout.isFile readme)
  if !present then report ("role " ++ roleName ++ " is missing README.md")
  else do
    let content ← call (checkout.readText readme)
    let maturity ← call (e.2.get (.str "maturity"))
    require (¬ (¬ maturity.isText "production" ∧ checkout.claimsSupport content))
      ("role " ++ roleName ++ " README claims support but registry maturity is not production")
    let supportedTargets ← call (e.2.get (.str "supported_targets"))
    require (¬ (¬ supportedTargets.truthy ∧
        (checkout.lower content).contains "## supported platforms"))
      ("role " ++ roleName ++ " README has a supported-platform heading but registry has none")

/-- What the command line asks to be checked. -/
structure Scope where
  checkGenerated : Bool
  checkGovernance : Bool
  checkRoleLocal : Bool

def checkTargets (registry : Fields) : Check Fields := do
  let targets ← mappingOr (field registry "targets") "targets must be a non-empty mapping"
  require (¬ ((field registry "targets").isDict ∧ targets = []))
    "targets must be a non-empty mapping"
  each (items targets) validateTarget
  return targets

def checkRoleLocal (checkout : Checkout) : Check Unit := do
  let localScenarios ← call checkout.roleLocalScenarios
  require (localScenarios = []) ("role-local Molecule scenarios are forbidden; migrate/remove: " ++
    join ", " localScenarios)

def checkRegistry (checkout : Checkout) (registry : Fields) (scope : Scope) : Check Unit := do
  require (field registry "schema_version").isOne "schema_version must be 1"
  let states ← requireStringList (field registry "allowed_profile_states") "allowed_profile_states"
  require (sameSet states requiredProfileStates)
    ("allowed_profile_states must exactly equal: " ++ join ", " (sorted requiredProfileStates))
  let targets ← checkTargets registry
  let roles ← mappingOr (field registry "roles") "roles must be a mapping keyed by role name"
  let discovered ← call checkout.discoveredRoles
  let differences ← call
    (setDifferenceMessage "roles registry" discovered ((items roles).map Prod.fst))
  reports differences
  let scenarios ← mappingOr (field registry "scenarios")
    "scenarios must be a mapping keyed by root Molecule scenario"
  let discovered ← call checkout.discoveredScenarios
  let differences ← call
    (setDifferenceMessage "scenarios registry" discovered ((items scenarios).map Prod.fst))
  reports differences
  each (items roles) (validateRole checkout targets scenarios)
  each (items scenarios) (validateScenario checkout roles)
  let overlay ← call (checkout.validateAapOverlay registry)
  reports overlay
  onlyIf scope.checkRoleLocal (checkRoleLocal checkout)
  onlyIf scope.checkGovernance (validateGovernance checkout)
  each (items roles) (validateReadme checkout)
  onlyIf scope.checkGenerated do
    let stale ← call (checkout.generatedFreshnessErrors registry)
    reports stale

/-- `validate_registry(root, registry, ...)`: the errors it returns. -/
def validateRegistry (checkout : Checkout) (registry : Fields) (scope : Scope) : Py (List PyStr) :=
  complaints (checkRegistry checkout registry scope)

end Supplementary.Roles
