/-
# One coupled network transition

`keycloak_native_migration.py`: the units and manifests of the Keycloak and the PostgreSQL
component move together from their previous networks to the desired ones.  `prepareTransition`
proves that both old units are known, that the manifests own no competing network settings, and
then rewrites the two database fields and the host alias of the Keycloak manifest.

Everything is a function of values.  What the standard library looks up in tables of its own
(private and loopback addresses, lower case) is a `Tables`, over which every result is quantified.
-/
import Supplementary.Python.Access

namespace Supplementary.Keycloak

open Supplementary

/-- The tables of the standard library: `IPv4Address(...).is_private` by octets,
`ip_address(text).is_loopback`, and `text.lower()`. -/
structure Tables where
  isPrivate : List Nat → Bool
  isLoopback : PyStr → Py Bool
  lower : PyStr → PyStr

/-- `except (KeyError, TypeError, ValueError, AttributeError)`. -/
def isRejected : PyError → Bool
  | .keyError | .typeError | .attributeError => true
  | e => e.isValueError

/-- A filter's body under its handler: nothing of the inputs gets into the message. -/
def rejecting {α : Type} (message : String) (x : Py α) : Py α :=
  match x with
  | .ok a => .ok a
  | .error e => .error (if isRejected e then .filterError message else e)

@[simp] theorem rejecting_eq_ok {α : Type} {message : String} {x : Py α} {a : α} :
    rejecting message x = .ok a ↔ x = .ok a := by
  cases x <;> simp [rejecting]

/-- `raise ValueError(message)` unless the condition holds. -/
def check (condition : Prop) [Decidable condition] (message : String) : Py Unit :=
  raiseUnless (.valueError message) condition

@[simp] theorem check_eq_ok {condition : Prop} [Decidable condition] {message : String} {u : Unit} :
    check condition message = .ok u ↔ condition := raiseUnless_eq_ok

/-! ## 1. Addresses, paths and names -/

def isDecimal (c : Nat) : Bool := 48 ≤ c && c ≤ 57

/-- One octet of a dotted address: no sign, no leading zero. -/
def octet (s : PyStr) : Option Nat :=
  if 0 < s.length ∧ s.length ≤ 3 ∧ s.codePoints.all isDecimal = true ∧
      (s.length = 1 ∨ s.codePoints.head? ≠ some 48) then
    let n := s.codePoints.foldl (fun n d => 10 * n + (d - 48)) 0
    if n ≤ 255 then some n else none
  else none

/-- `ipaddress.IPv4Address(text)`, by its octets.  The text of an address is canonical. -/
def ipv4 (s : PyStr) : Py (List Nat) :=
  match (s.segments ".").mapM octet with
  | some [a, b, c, d] => .ok [a, b, c, d]
  | _ => .error (.valueError "not an IPv4 address")

/-- `str(address)`. -/
def ipv4Text (octets : List Nat) : PyStr := .join "." (octets.map fun n => .ofInt n)

/-- `posixpath.normpath(path)` of a path that starts with one slash. -/
def normpath (s : PyStr) : PyStr :=
  let parts := (s.segments "/").foldl (fun (done : List PyStr) (part : PyStr) =>
    if part.codePoints = [] ∨ part = "." then done
    else if part = ".." then done.dropLast
    else done ++ [part]) []
  "/" ++ .join "/" parts

/-- `canonical_path(value)`. -/
def canonicalPath : Value → Bool
  | .str s => s.startsWith "/" && !s.startsWith "//" && s ≠ "/" && normpath s = s &&
      s.codePoints.all fun c => !(c < 32 || c = 127)
  | _ => false

def isAlnum (c : Nat) : Bool := isDecimal c || (65 ≤ c && c ≤ 90) || (97 ≤ c && c ≤ 122)

/-- `[A-Za-z0-9][A-Za-z0-9_.-]{0,127}`. -/
def isUnitName (s : PyStr) : Bool :=
  match s.codePoints with
  | [] => false
  | c :: rest => isAlnum c && rest.length ≤ 127 &&
      rest.all fun c => isAlnum c || c ∈ [95, 46, 45]

/-- `[0-9]{1,3}(?:[.][0-9]{1,3}){3}`. -/
def isDotted (s : PyStr) : Bool :=
  let parts := s.segments "."
  parts.length = 4 && parts.all fun part =>
    1 ≤ part.length && part.length ≤ 3 && part.codePoints.all isDecimal

/-- The pattern of a network binding: a unit name, and an address after `:ip=` if it is static. -/
def isBinding (s : PyStr) : Bool :=
  match s.breakOn ":ip=" with
  | (unit, none) => isUnitName unit
  | (unit, some address) => isUnitName unit && isDotted address

/-- `[a-z0-9](?:[a-z0-9-]{0,61}[a-z0-9])?`. -/
def isDnsName (s : PyStr) : Bool :=
  let lowAlnum (c : Nat) : Bool := isDecimal c || (97 ≤ c && c ≤ 122)
  1 ≤ s.length && s.length ≤ 63 && s.codePoints.all (fun c => lowAlnum c || c = 45) &&
    s.codePoints.head? ≠ some 45 && s.codePoints.getLast? ≠ some 45

/-! ## 2. The unit text -/

/-- `isinstance(value, str) and value and "\n" not in value and "\r" not in value`. -/
def isLine : Value → Bool
  | .str s => s.codePoints ≠ [] && s.codePoints.all fun c => c ≠ 10 && c ≠ 13
  | _ => false

/-- The networks of a unit: a list of bindings with valid addresses and distinct names. -/
def networkTexts : Value → Py (List PyStr)
  | .list items => do
    let texts ← items.mapM fun item => match item with
      | .str s => if isBinding s then .ok s
          else .error (.filterError "Invalid exact native network bindings")
      | _ => .error (.filterError "Invalid exact native network bindings")
    texts.forM fun s => match (s.breakOn ":ip=").2 with
      | some address => do let _ ← ipv4 address
      | none => .ok ()
    raiseUnless (.filterError "Duplicate native network binding")
      (texts.map fun s => (s.breakOn ":").1).Nodup
    .ok texts
  | _ => .error (.filterError "Invalid exact native network bindings")

/-- `quadlet_text(description, manifest_path, networks)`. -/
def quadletText (description manifestPath networks : Value) : Py PyStr := do
  raiseUnless (.filterError "Invalid native unit identity")
    (isLine description = true ∧ isLine manifestPath = true)
  raiseUnless (.filterError "Invalid native manifest path") (canonicalPath manifestPath = true)
  let texts ← networkTexts networks
  .ok (.join "\n" ((["[Unit]", ("Description=" : PyStr) ++ (← description.text),
      "After=network-online.target", "Wants=network-online.target", "[Kube]",
      ("Yaml=" : PyStr) ++ (← manifestPath.text)] : List PyStr) ++
    texts.map (("Network=" : PyStr) ++ ·) ++
    (["[Install]", "WantedBy=multi-user.target", ""] : List PyStr)))

/-- `[line for line in content.splitlines() if line != ""]`. -/
def unitLines (content : PyStr) : List PyStr :=
  content.splitLines.filter fun line => line.codePoints ≠ []

/-! ## 3. The database binding -/

/-- The loop variable `bindings[name]`: the address of each network, if it is static. -/
def bindingsOf (networks : Value) : Py (List (PyStr × Option PyStr)) := do
  let _ ← quadletText (.str "Binding validation") (.str "/etc/fixture.yml") networks
  .ok ((← networkTexts networks).map fun s => s.breakOn ":ip=")

/-- `host in (pod_name, container_name)`. -/
def isManagedName (component : Value) (host : PyStr) : Py Bool := do
  let podName ← component.item "pod_name"
  let containerName ← component.attr "container_name"
  .ok (podName.isText host || containerName.isText host)

/-- The networks that could carry the database endpoint. -/
def candidates (keycloak postgres : List (PyStr × Option PyStr)) (host : PyStr) (managed : Bool) :
    Py (List PyStr) :=
  if managed then do
    check (isDnsName host = true) "invalid managed database DNS name"
    .ok ((postgres.filter fun e => e.2.isSome && (lookup keycloak e.1).isSome).map Prod.fst)
  else do
    let _ ← ipv4 host
    .ok ((postgres.filter fun e => e.2 = some host).map Prod.fst)

/-- `database_binding(components, database_host)`: the one network and the database's address on
it.  `next(...)` over the PostgreSQL networks, which every caller goes on with, finds that address. -/
def databaseBinding (tables : Tables) (components host : Value) : Py (PyStr × PyStr) := do
  match host with
  | .str host => do
    let keycloak ← bindingsOf (← (← components.item "keycloak").item "networks")
    let postgres ← bindingsOf (← (← components.item "postgres").item "networks")
    let managed ← isManagedName (← components.item "postgres") host
    match ← candidates keycloak postgres host managed with
    | [network] =>
      match lookup keycloak network, lookup postgres network with
      | some peer, some (some address) => do
        check (peer ≠ some address ∧ tables.isPrivate (← ipv4 address) = true)
          "database requires distinct private peer addresses on its declared network"
        .ok (network, address)
      | _, _ => .error (.valueError
          "database requires distinct private peer addresses on its declared network")
    | _ => .error (.valueError "database endpoint requires exactly one declared database network")
  | _ => .error (.valueError "database endpoint must be a string")

/-- The host aliases of an endpoint: a managed name needs one. -/
def hostAliases (components : Value) (host address : PyStr) : Py (List Value) := do
  if ← isManagedName (← components.item "postgres") host then
    .ok [.dict [("ip", .str address), ("hostnames", .list [.str host])]]
  else .ok []

/-! ## 4. One component -/

/-- A loop `for item in items: if condition(item): ...` that collects what it finds. -/
def select : (items : List Value) → (condition : Value → Py Bool) → Py (List Value)
  | [], _ => .ok []
  | item :: items, condition => do
    let found ← condition item
    let rest ← select items condition
    .ok (if found then item :: rest else rest)

/-- `any("network" in key.lower() or key.lower().endswith(".ip") for key in annotations)`. -/
def ownsNetwork (tables : Tables) : List Value → Py Bool
  | [] => .ok false
  | key :: rest => do
    let lowered := tables.lower (← key.text)
    if lowered.contains "network" || lowered.endsWith ".ip" then .ok true
    else ownsNetwork tables rest

/-- `re.search(r"@sha256:[0-9a-f]{64}\Z", image)`. -/
def isImmutable (image : PyStr) : Bool :=
  let tail : PyStr := ⟨image.codePoints.drop (image.length - 72)⟩
  tail.length = 72 && tail.startsWith "@sha256:" &&
    (tail.codePoints.drop 8).all fun c => isDecimal c || (97 ≤ c && c ≤ 102)

/-- `any(not isinstance(port.get("hostIP"), str) or not ... for port in ports)`. -/
def leavesLoopback (tables : Tables) : List Value → Py Bool
  | [] => .ok false
  | port :: rest => do
    match ← port.attr "hostIP" with
    | .str address =>
      if ← tables.isLoopback address then leavesLoopback tables rest else .ok true
    | _ => .ok true

/-- The checks on the only container and on the volume of its data. -/
def checkContainer (tables : Tables) (component spec container : Value) : Py Unit := do
  match ← component.item "image" with
  | .str image => do
    check (isImmutable image = true) "immutable image required"
    let running ← (← container.item "image").text
    check (running.lastSegment "@" = image.lastSegment "@")
      "network transition cannot change image"
  | _ => .error .typeError
  let mounts ← select (← (← container.item "volumeMounts").iter) fun mount => do
    .ok ((← mount.item "mountPath").pyEq (← component.item "container_data_dir"))
  match mounts with
  | [mount] => do
    check ((← mount.attrD "readOnly" (.bool false)).truthy = false) "unproven data mount"
    let volumes ← select (← (← spec.item "volumes").iter) fun volume => do
      .ok ((← volume.item "name").pyEq (← mount.item "name"))
    match volumes with
    | [volume] => do
      check ((← (← volume.attrD "hostPath" (.dict [])).attr "path").pyEq
        (← component.item "host_data_dir") = true) "network transition cannot change data directory"
    | _ => .error (.valueError "network transition cannot change data directory")
  | _ => .error (.valueError "unproven data mount")
  check ((← container.attr "ports").truthy = true) "loopback-only host bindings required"
  check ((← leavesLoopback tables (← (← container.item "ports").iter)) = false)
    "loopback-only host bindings required"

/-- `hostAliases` of a manifest whose networking is portable. -/
def checkNetworking (spec : Value) : Py Value := do
  let aliases ← spec.attrD "hostAliases" (.list [])
  let hostNetwork ← spec.attrD "hostNetwork" (.bool false)
  match aliases with
  | .list _ => do
    check (hostNetwork.isFalse = true) "nonportable manifest networking"
    .ok aliases
  | _ => .error (.valueError "nonportable manifest networking")

/-- The checks on a manifest; it returns the host aliases that are there. -/
def checkManifest (tables : Tables) (component manifest : Value) : Py Value := do
  check ((← manifest.attr "kind").isText "Pod" = true) "unproven pod identity"
  check ((← (← manifest.attrD "metadata" (.dict [])).attr "name").pyEq
    (← component.item "pod_name") = true) "unproven pod identity"
  let spec ← manifest.item "spec"
  let aliases ← checkNetworking spec
  let annotations ← (← manifest.attrD "metadata" (.dict [])).attrD "annotations" (.dict [])
  check ((← ownsNetwork tables (← annotations.iter)) = false)
    "manifest owns competing network settings"
  let containers ← spec.item "containers"
  check ((← containers.size) = 1) "unproven container identity"
  let container ← containers.first
  check ((← container.item "name").pyEq (← component.item "container_name") = true)
    "unproven container identity"
  checkContainer tables component spec container
  .ok aliases

/-- What the loop keeps of a component: the desired unit, whether it is the one in place, the
manifest, and the host aliases in it. -/
structure Prepared where
  content : PyStr
  desired : Bool
  manifest : Value
  aliases : Value

/-- One turn of the loop over the components. -/
def prepareComponent (tables : Tables) (component : Value) : Py Prepared := do
  check (canonicalPath (← component.item "host_data_dir") = true) "canonical data paths required"
  check (canonicalPath (← component.item "container_data_dir") = true)
    "canonical data paths required"
  let old ← quadletText (← component.item "description") (← component.item "manifest_path")
    (← component.item "previous_networks")
  let new ← quadletText (← component.item "description") (← component.item "manifest_path")
    (← component.item "networks")
  let actual ← (← component.item "quadlet_content").text
  check (unitLines actual = unitLines old ∨ unitLines actual = unitLines new)
    "unproven native unit"
  let manifest ← component.item "manifest"
  let aliases ← checkManifest tables component manifest
  .ok { content := new, desired := unitLines actual = unitLines new, manifest, aliases }

/-! ## 5. The transition -/

/-- The path from a manifest to the environment of its first container. -/
def environmentOf (manifest : Value) : Py (List Value) := do
  (← (← (← (← manifest.item "spec").item "containers").first).item "env").iter

/-- `entry.get("name") == key`. -/
def named (key : PyStr) (entry : Value) : Py Bool := do .ok ((← entry.attr "name").isText key)

/-- The endpoint that the Keycloak manifest has now. -/
def currentHost (manifest : Value) : Py Value := do
  let hosts ← select (← environmentOf manifest) fun entry => do
    .ok ((← named "KC_DB_URL_HOST" entry) && entry.hasKeys ["name", "value"])
  match hosts with
  | [entry] => entry.item "value"
  | _ => .error (.valueError "exact existing database fields required")

/-- `current_components`: with the previous networks, unless the desired ones are in place. -/
def currentComponents (components : Value) (desired : Bool) : Py Value :=
  if desired then .ok components
  else do
    let keycloak ← components.item "keycloak"
    let postgres ← components.item "postgres"
    .ok ((components.set "keycloak"
        (keycloak.set "networks" (← keycloak.item "previous_networks"))).set "postgres"
      (postgres.set "networks" (← postgres.item "previous_networks")))

/-- Host aliases that are there must be the ones of the current endpoint. -/
def checkAliases (tables : Tables) (components manifest aliases : Value) (desired : Bool) :
    Py Unit := do
  if aliases.truthy then
    let host ← currentHost manifest
    let current ← currentComponents components desired
    let (_, address) ← databaseBinding tables current host
    let expected ← hostAliases current (← host.text) address
    check (aliases.same (.list expected) = true) "nonportable manifest networking"
  else .ok ()

/-- The manifest with the host aliases of the new endpoint. -/
def withAliases (spec : Value) (aliases : List Value) : Value :=
  if aliases = [] then spec.erase "hostAliases" else spec.set "hostAliases" (.list aliases)

/-- `matches[0]["value"] = value` for the one entry of a key. -/
def setEntry (key value : PyStr) (environment : List Value) : Py (List Value) := do
  match ← select environment (named key) with
  | [entry] => do
    check (entry.hasKeys ["name", "value"] = true) "exact existing database fields required"
    .ok (environment.map fun entry =>
      if (entry.get "name").isText key then entry.set "value" (.str value) else entry)
  | _ => .error (.valueError "exact existing database fields required")

/-- The Keycloak manifest with the new endpoint. -/
def withEndpoint (manifest : Value) (aliases : List Value) (host : PyStr) (port : Int) :
    Py Value := do
  let spec := withAliases (← manifest.item "spec") aliases
  let container ← (← spec.item "containers").first
  let environment ← (← container.item "env").iter
  let environment ← setEntry "KC_DB_URL_HOST" host environment
  let environment ← setEntry "KC_DB_URL_PORT" (.ofInt port) environment
  .ok (manifest.set "spec"
    (spec.set "containers" (.list [container.set "env" (.list environment)])))

/-- One component of the result. -/
structure Part where
  quadletContent : PyStr
  manifest : Value

/-- The result of `prepare_transition`. -/
structure Transition where
  changed : Bool
  keycloak : Part
  postgres : Part

/-- The body of `prepare_transition` for an endpoint of the right types. -/
def prepareFor (tables : Tables) (components : Value) (host : PyStr) (port : Int) :
    Py Transition := do
  let (_, address) ← databaseBinding tables components (.str host)
  let aliases ← hostAliases components host address
  let keycloak ← prepareComponent tables (← components.item "keycloak")
  let postgres ← prepareComponent tables (← components.item "postgres")
  check (keycloak.desired = postgres.desired) "mixed prior/desired controller state"
  check (postgres.aliases.truthy = false) "nonportable manifest networking"
  checkAliases tables components keycloak.manifest keycloak.aliases keycloak.desired
  let manifest ← withEndpoint keycloak.manifest aliases host port
  .ok { changed := !keycloak.desired || !manifest.same keycloak.manifest,
        keycloak := ⟨keycloak.content, manifest⟩, postgres := ⟨postgres.content, postgres.manifest⟩ }

/-- `prepare_transition(components, database_host, database_port)`. -/
def prepareTransition (tables : Tables) (components host port : Value) : Py Transition :=
  rejecting "Native migration preparation rejected; no mutation authorized" <| do
    match host, port with
    | .str host, .int port => do
      check (1 ≤ port ∧ port ≤ 65535) "invalid database port"
      check (components.isDict = true ∧ components.hasKeys ["keycloak", "postgres"] = true)
        "exactly two components required"
      prepareFor tables components host port
    | .str _, _ => .error (.valueError "invalid database port")
    | _, _ => .error (.valueError "literal database address required")

end Supplementary.Keycloak
