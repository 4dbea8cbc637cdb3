/-
# The running pair

`capture_original_runtime` proves the running pair before it is stopped and keeps what a rollback
must find again: the attached networks, the static addresses and the database fields.
`runtime_valid` checks a running pair, against the desired networks or against what was captured.
-/
import Supplementary.Keycloak.Idempotent

namespace Supplementary.Keycloak

open Supplementary

/-! ## 1. Reading a record -/

/-- `ipaddress.IPv4Address(address)` of a value: a number is an address too. -/
def checkAddress : Value → Py Unit
  | .str s => do let _ ← ipv4 s
  | .int n => check (0 ≤ n ∧ n < 2 ^ 32) "not an IPv4 address"
  | .bool _ => .ok ()
  | _ => .error (.valueError "not an IPv4 address")

/-- `{network: value["IPAddress"] for network, value in ...items()}`. -/
def attached (record : Value) : Py (List (PyStr × Value)) := do
  match ← (← record.item "NetworkSettings").item "Networks" with
  | .dict entries => entries.mapM fun e => do .ok (e.1, ← e.2.item "IPAddress")
  | _ => .error .attributeError

/-- `runtime_identity_valid(component, record)`. -/
def runtimeIdentityValid (component record : Value) : Py Unit := do
  let running ← (← record.item "ImageName").text
  let image ← (← component.item "image").text
  check (running.lastSegment "@" = image.lastSegment "@") "runtime image drift"
  let mounts ← select (← (← record.item "Mounts").iter) fun mount => do
    .ok ((← mount.item "Destination").pyEq (← component.item "container_data_dir"))
  match mounts with
  | [mount] => do
    check ((← mount.item "Source").pyEq (← component.item "host_data_dir") = true)
      "runtime data drift"
    check ((← mount.attr "Type").isText "bind" = true) "runtime data drift"
    check ((← mount.attr "RW").isTrue = true) "runtime data drift"
  | _ => .error (.valueError "runtime data drift")

/-- `str(ipaddress.IPv4Address(static)) if separator else None`. -/
def staticAddress : Option PyStr → Py Value
  | some address => do .ok (.str (ipv4Text (← ipv4 address)))
  | none => .ok .none

/-- The loop of `expected_runtime_networks`, with what it has found. -/
def expectedFrom (names : Value) :
    (expected : List (PyStr × Value)) → List PyStr → Py (List (PyStr × Value))
  | expected, [] => .ok expected
  | expected, entry :: rest => do
    let (unit, static) := entry.breakOn ":ip="
    match ← names.item unit with
    | .str name => do
      check (isUnitName name = true ∧ name ∉ expected.map Prod.fst)
        "unproven network runtime identity"
      let address ← staticAddress static
      expectedFrom names (expected ++ [(name, address)]) rest
    | _ => .error (.valueError "unproven network runtime identity")

/-- `expected_runtime_networks(component, field)`; the names are only looked up for an entry. -/
def expectedRuntimeNetworks (component : Value) (field : PyStr) : Py (List (PyStr × Value)) := do
  let networks ← component.item field
  let _ ← quadletText (.str "Runtime binding validation") (.str "/etc/fixture.yml") networks
  match ← networkTexts networks with
  | [] => .ok []
  | texts => do expectedFrom (← component.item "network_runtime_names") [] texts

/-- The loop of `runtime_networks_match`. -/
def matchFrom (expected : List (PyStr × Value)) : List (PyStr × Value) → Py Bool
  | [] => .ok true
  | (name, address) :: rest => do
    checkAddress address
    match lookup expected name with
    | none => .error .keyError
    | some wanted =>
      if wanted.isNone = false ∧ address.pyEq wanted = false then .ok false
      else matchFrom expected rest

/-- `runtime_networks_match(actual, expected)`. -/
def runtimeNetworksMatch (actual expected : List (PyStr × Value)) : Py Bool :=
  if actual.map Prod.fst ⊆ expected.map Prod.fst ∧ expected.map Prod.fst ⊆ actual.map Prod.fst then
    matchFrom expected actual
  else .ok false

/-- The value after `key=` in the environment of a record. -/
def environmentValue (environment : List Value) (key : PyStr) : Py PyStr := do
  let found ← select environment fun entry => do .ok ((← entry.text).startsWith (key ++ "="))
  match found with
  | [entry] => do .ok (((← entry.text).breakOn "=").2.getD "")
  | _ => .error (.valueError "unproven runtime endpoint")

/-- The two database fields. -/
structure Endpoint where
  host : PyStr
  port : PyStr

def Endpoint.toValue (e : Endpoint) : Value :=
  .dict [("KC_DB_URL_HOST", .str e.host), ("KC_DB_URL_PORT", .str e.port)]

/-- `database_environment(record)`. -/
def databaseEnvironment (record : Value) : Py Endpoint := do
  let environment ← (← (← record.item "Config").item "Env").iter
  .ok { host := ← environmentValue environment "KC_DB_URL_HOST",
        port := ← environmentValue environment "KC_DB_URL_PORT" }

/-! ## 2. Capturing -/

/-- `sorted(actual)`. -/
def sortedNames (actual : List (PyStr × Value)) : List PyStr := PyStr.sorted (actual.map Prod.fst)

/-- The networks that a unit in place binds: the desired ones or the previous ones. -/
def boundNetworks (component : Value) : Py (List (PyStr × Value)) := do
  let current ← (← component.item "quadlet_content").text
  let desired ← quadletText (← component.item "description") (← component.item "manifest_path")
    (← component.item "networks")
  let previous ← quadletText (← component.item "description") (← component.item "manifest_path")
    (← component.item "previous_networks")
  if unitLines current = unitLines desired then expectedRuntimeNetworks component "networks"
  else if unitLines current = unitLines previous then
    expectedRuntimeNetworks component "previous_networks"
  else .error (.valueError "unproven current network controller")

/-- `podman`'s network for a unit without one. -/
def implicitNetwork : PyStr := "podman-default-kube-network"

/-- A unit without networks runs on the implicit one; every other runs on what it binds. -/
def checkBound (actual bound : List (PyStr × Value)) : Py Unit :=
  if bound = [] then
    check (∀ e ∈ actual, e.1 = implicitNetwork) "unreconstructable implicit original network"
  else do check ((← runtimeNetworksMatch actual bound) = true) "current runtime network drift"

/-- What is kept of one component's runtime: the attached and the bound networks. -/
def captureNetworks (component record : Value) :
    Py (List (PyStr × Value) × List (PyStr × Value)) := do
  runtimeIdentityValid component record
  let _ ← expectedRuntimeNetworks component "networks"
  let actual ← attached record
  check (actual ≠ [] ∧ ∀ e ∈ actual, e.2.truthy = true) "unproven original network"
  actual.forM fun e => checkAddress e.2
  let bound ← boundNetworks component
  checkBound actual bound
  .ok (actual, bound)

/-- One turn of the loop of `capture_original_runtime`. -/
def captureComponent (component record : Value) : Py Value := do
  let (actual, bound) ← captureNetworks component record
  .ok (component.set "original_runtime" (.dict [
    ("network_names", .list ((sortedNames actual).map .str)), ("static_networks", .dict bound)]))

/-- A database field of the manifest must be the one of the record. -/
def checkField (environment : List Value) (key value : PyStr) : Py Unit := do
  match ← select environment (named key) with
  | [entry] => do
    check ((← entry.attr "value").isText value = true) "original database runtime/config drift"
  | _ => .error (.valueError "original database runtime/config drift")

/-- `set(components) == {"keycloak", "postgres"}` and `set(records) == set(components)`. -/
def isPair (components records : Value) : Bool :=
  components.isDict && components.hasKeys ["keycloak", "postgres"] && records.isDict &&
    records.hasKeys components.keySet

/-- `capture_original_runtime(components, records)`. -/
def captureOriginalRuntime (components records : Value) : Py Value :=
  rejecting "Native pre-stop runtime validation rejected" <| do
    check (isPair components records = true) "exact pair required"
    let captured ← components.entries.mapM fun e => do
      .ok (e.1, ← captureComponent e.2 (← records.item e.1))
    let original ← databaseEnvironment (← records.item "keycloak")
    let keycloak ← (Value.dict captured).item "keycloak"
    let environment ← environmentOf (← keycloak.item "manifest")
    checkField environment "KC_DB_URL_HOST" original.host
    checkField environment "KC_DB_URL_PORT" original.port
    let runtime ← keycloak.item "original_runtime"
    .ok ((Value.dict captured).set "keycloak" (keycloak.set "original_runtime"
      (runtime.set "database_environment" original.toValue)))

/-! ## 3. Validating -/

/-- `original["static_networks"] and not runtime_networks_match(...)`. -/
def checkStatic (actual : List (PyStr × Value)) : Value → Py Unit
  | .dict [] => .ok ()
  | .dict bound => do
    check ((← runtimeNetworksMatch actual bound) = true) "rollback static address drift"
  | value => if value.truthy then .error .typeError else .ok ()

/-- What a rollback must find again. -/
def validateOriginal (actual : List (PyStr × Value)) (original : Value) : Py Unit := do
  check ((Value.list ((sortedNames actual).map .str)).pyEq (← original.item "network_names") = true)
    "rollback network identity drift"
  checkStatic actual (← original.item "static_networks")
  check (∀ e ∈ actual, e.2.truthy = true) "rollback address missing"
  actual.forM fun e => checkAddress e.2

/-- One turn of the loop of `runtime_valid`. -/
def validateComponent (desired : Bool) (component record : Value) : Py Unit := do
  runtimeIdentityValid component record
  let actual ← attached record
  if desired then
    check ((← runtimeNetworksMatch actual (← expectedRuntimeNetworks component "networks")) = true)
      "runtime network drift"
  else validateOriginal actual (← component.item "original_runtime")

/-- `runtime_valid(components, records, database_host, database_port, desired_networks)`; `portText`
is `str(database_port)`. -/
def runtimeValid (components records host : Value) (portText : PyStr) (desired : Bool) : Py Bool :=
  rejecting "Native migration runtime validation rejected" <| do
    check (isPair components records = true) "exact pair required"
    components.entries.forM fun e => do validateComponent desired e.2 (← records.item e.1)
    let found ← databaseEnvironment (← records.item "keycloak")
    if desired then
      check (found.toValue.pyEq (.dict [("KC_DB_URL_HOST", host),
        ("KC_DB_URL_PORT", .str portText)]) = true) "runtime endpoint drift"
    else
      check (found.toValue.pyEq
        (← (← (← components.item "keycloak").item "original_runtime").item "database_environment") =
          true) "rollback endpoint drift"
    .ok true

end Supplementary.Keycloak
