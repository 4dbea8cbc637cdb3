/-
# `build_matrix`

The generator of the test matrix reads the registry a second time, with its own filters, and
indexes where the validator asks with a default: what the validator has not made sure of raises
here.
-/
import Supplementary.Roles.Validate

namespace Supplementary.Roles

open Supplementary PyStr

/-- A cell of the matrix.  `image` is the last entry of the cell, under `image` or
`image_variable`. -/
structure Cell where
  scenario : PyStr
  component : PyStr
  profile : PyStr
  target : PyStr
  targetDisposition : PyStr
  releaseRequired : Bool
  instanceType : Yaml
  runner : Yaml
  roles : List PyStr
  junit : Yaml
  allure : Yaml
  evidence : Yaml
  image : PyStr × Yaml

def dispositions : List PyStr := ["supported", "candidate"]

/-- `sorted(value.items())` of a mapping whose keys are texts. -/
def sortedItems (value : Yaml) : Py (List (PyStr × Yaml)) :=
  match value with
  | .dict fields => do
    let entries ← (items fields).mapM fun e => e.1.text.map fun key => (key, e.2)
    return sortByKey entries
  | _ => .error .attributeError

/-- The name under which a table is indexed.  The keys of the tables are texts, so that any other
value misses them. -/
def asName : Yaml → Py PyStr
  | .str s => .ok s
  | _ => .error .keyError

/-- A production role that supports the profile. -/
def runsProfile (roles : Yaml) (profile roleName : PyStr) : Py Bool := do
  let role ← roles.item roleName
  allOf [(role.item "maturity").map fun value => value.isText "production",
    (role.item profile).map fun value => value.isText "supported"]

/-- The component of a role, which `str.join` requires to be a text. -/
def roleComponent (roles : Yaml) (roleName : PyStr) : Py PyStr := do
  let role ← roles.item roleName
  let component ← role.item "component"
  match component with
  | .str s => return s
  | _ => .error .typeError

/-- `"image"` if the target has the key, whatever its value. -/
def cellImage (target : Yaml) : Py (PyStr × Yaml) := do
  let imageKey : PyStr := if ← target.contains "image" then "image" else "image_variable"
  let value ← target.item imageKey
  return (imageKey, value)

def matrixCell (roles targets scenario : Yaml) (scenarioName profile targetDisposition : PyStr)
    (productionRoles : List PyStr) (target : PyStr) : Py Cell := do
  let targetDefinition ← targets.item target
  let components ← productionRoles.mapM (roleComponent roles)
  let instanceType ← targetDefinition.item "instance_type"
  let runner ← targetDefinition.item "runner"
  let junit ← scenario.item "junit"
  let allure ← scenario.item "allure"
  let evidence ← scenario.item "evidence"
  let image ← cellImage targetDefinition
  return {
    scenario := scenarioName
    component := join "+" (sorted components.dedup)
    profile := profile
    target := target
    targetDisposition := targetDisposition
    releaseRequired := targetDisposition = "supported"
    instanceType := instanceType
    runner := runner
    roles := productionRoles
    junit := junit
    allure := allure
    evidence := evidence
    image := image }

/-- The field of a role that lists the targets of a disposition. -/
def dispositionField (targetDisposition : PyStr) : PyStr :=
  if targetDisposition = "supported" then "supported_targets" else "candidate_targets"

/-- The targets that the production roles share. -/
def sharedTargets (roles : Yaml) (scenarioName : PyStr) (productionRoles : List PyStr)
    (targetField : PyStr) : Py (List PyStr) := do
  let shared ← sharedScenarioTargetSet roles scenarioName productionRoles targetField
  match shared with
  | .error _ => .error (.valueError "production roles must declare identical targets")
  | .ok shared => return shared

/-- `sorted(targets & set(registry["targets"]))`. -/
def knownTargets (targets : Yaml) (shared : List PyStr) : Py (List PyStr) :=
  match targets with
  | .dict fields => .ok (sorted (shared.dedup.filter (hasField fields)))
  | _ => .error .typeError

/-- The cells of a scenario with the given production roles. -/
def productionCells (registry : Fields) (roles scenario : Yaml)
    (scenarioName profile targetDisposition : PyStr) (productionRoles : List PyStr) :
    Py (List Cell) := do
  let shared ← sharedTargets roles scenarioName productionRoles (dispositionField targetDisposition)
  let targets ← (Yaml.dict registry).item "targets"
  let known ← knownTargets targets shared
  known.mapM (matrixCell roles targets scenario scenarioName profile targetDisposition
    productionRoles)

/-- The cells of a supported, real scenario of the profile. -/
def realScenarioCells (registry : Fields) (roles scenario : Yaml)
    (scenarioName profile targetDisposition : PyStr) : Py (List Cell) := do
  let values ← (← scenario.item "roles").iterate
  let names ← values.mapM asName
  let productionRoles ← filterPy (runsProfile roles profile) names
  let productionRoles := sorted productionRoles
  if productionRoles = [] then return []
  else
    productionCells registry roles scenario scenarioName profile targetDisposition productionRoles

/-- One turn of the loop over the scenarios. -/
def scenarioCells (registry : Fields) (roles : Yaml) (profile targetDisposition : PyStr)
    (e : PyStr × Yaml) : Py (List Cell) := do
  let selected ← allOf [(e.2.item "profile").map fun value => value.isText profile,
    (e.2.item "state").map fun value => value.isText "supported",
    (e.2.item "implementation").map fun value => value.isText "real"]
  if selected then realScenarioCells registry roles e.2 e.1 profile targetDisposition
  else return []

/-- `build_matrix(registry, profile, target_disposition=...)`: the cells under `include`. -/
def buildMatrix (registry : Fields) (profile targetDisposition : PyStr) : Py (List Cell) := do
  raiseUnless (.valueError "unknown profile") (profile ∈ profiles)
  raiseUnless (.valueError "unknown target disposition") (targetDisposition ∈ dispositions)
  let roles ← (Yaml.dict registry).item "roles"
  let scenarios ← (Yaml.dict registry).item "scenarios"
  let entries ← sortedItems scenarios
  let cells ← entries.mapM (scenarioCells registry roles profile targetDisposition)
  return cells.flatten

end Supplementary.Roles
