/-
# What the filters can raise

The manifests that the filters of `keycloak_native_migration.py` read hold credentials, so every
body stands under a handler that turns what it catches into one `AnsibleFilterError` without data.
The handlers name four classes of exceptions; a list position that does not exist raises a fifth.

`boundary_iff`: four of the five filters raise nothing but that error, whatever they are called
with.  `capture_original_runtime` looks at the first container of the Keycloak manifest without
asking whether there is one, and this is all that gets past a handler.

How deep a value can be nested before the interpreter gives up is not modelled.
-/
import Supplementary.Keycloak.Rollback
import Supplementary.Python.Split

namespace Supplementary.Keycloak

open Supplementary

/-! ## 1. The two prechecks of an endpoint -/

/-- `next(entry.split(":ip=", 1)[1] for entry in networks if entry.split(":ip=", 1)[0] == network)`. -/
def nextAddress (network : PyStr) : List Value → Py PyStr
  | [] => .error .stopIteration
  | entry :: rest => do
    let (unit, address) := (← entry.text).breakOn ":ip="
    if unit = network then
      match address with
      | some address => .ok address
      | none => .error .indexError
    else nextAddress network rest

/-- `private_database_endpoint_valid(...)`; the container name is `None` by default. -/
def privateDatabaseEndpointValid (tables : Tables) (host keycloakNetworks postgresNetworks podName
    containerName : Value) : Py Bool :=
  rejecting "Managed private database endpoint rejected" <| do
    let _ ← databaseBinding tables (.dict [
      ("keycloak", .dict [("networks", keycloakNetworks)]),
      ("postgres", .dict [("networks", postgresNetworks), ("pod_name", podName),
        ("container_name", containerName)])]) host
    .ok true

/-- `text.split()`; `word` is the one that is being read, backwards. -/
def wordsFrom : (word : List Nat) → List Nat → List PyStr
  | [], [] => []
  | word, [] => [⟨word.reverse⟩]
  | word, c :: rest =>
    if PyStr.isSpace c = false then wordsFrom (c :: word) rest
    else if word = [] then wordsFrom [] rest
    else ⟨word.reverse⟩ :: wordsFrom [] rest

/-- The address on one line of `getent`: an address, a kind of socket and perhaps a name. -/
def resolvedAddress (line : PyStr) : Py PyStr :=
  match wordsFrom [] line.codePoints with
  | address :: kind :: names => do
    check (names.length ≤ 1 ∧ (kind = "STREAM" ∨ kind = "DGRAM" ∨ kind = "RAW"))
      "invalid getent result"
    .ok (ipv4Text (← ipv4 address))
  | _ => .error (.valueError "invalid getent result")

/-- The address that the database is declared with. -/
def declaredAddress (components : Value) (network : PyStr) : Py PyStr := do
  nextAddress network (← (← (← components.item "postgres").item "networks").iter)

/-- `except (KeyError, TypeError, ValueError, AttributeError, StopIteration)`. -/
def rejectingEnd {α : Type} (message : String) (x : Py α) : Py α :=
  match x with
  | .error .stopIteration => .error (.filterError message)
  | x => rejecting message x

/-- `database_resolution_valid(output, components, database_host)`. -/
def databaseResolutionValid (tables : Tables) (output components host : Value) : Py Bool :=
  rejectingEnd "Managed database DNS runtime validation rejected" <| do
    let (network, _) ← databaseBinding tables components host
    let address ← declaredAddress components network
    match output with
    | .str text => do
      check (text.hasText = true) "missing database resolution"
      let addresses ← text.splitLines.mapM resolvedAddress
      check (addresses ≠ [] ∧ ∀ a ∈ addresses, a = address) "database resolution drift"
      .ok true
    | _ => .error (.valueError "missing database resolution")

/-! ## 2. What a handler contains -/

/-- An error of a handler's classes, or a rejection that was raised on the spot. -/
def Contained (e : PyError) : Prop := isRejected e = true ∨ ∃ message, e = .filterError message

/-- An `AnsibleFilterError`. -/
def IsFilterError (e : PyError) : Prop := ∃ message, e = .filterError message

section

variable {α β : Type} {message : String}

theorem contained_value : Contained (.valueError message) := Or.inl rfl

theorem contained_filter : Contained (.filterError message) := Or.inr ⟨message, rfl⟩

/-- Under its handler, a body whose errors are contained raises filter errors only. -/
theorem rejecting_raises {x : Py α} (h : Raises Contained x) :
    Raises IsFilterError (rejecting message x) := by
  intro e he
  cases x with
  | ok a => cases he
  | error e' =>
    cases he
    rcases h e' rfl with hcaught | ⟨text, rfl⟩
    · rw [if_pos hcaught]
      exact ⟨message, rfl⟩
    · exact ⟨text, rfl⟩

theorem rejectingEnd_raises {x : Py α} (h : Raises (fun e => Contained e ∨ e = .stopIteration) x) :
    Raises IsFilterError (rejectingEnd message x) := by
  intro e he
  unfold rejectingEnd at he
  split at he
  · cases he
    exact ⟨message, rfl⟩
  · next hne =>
    refine rejecting_raises (fun e' he' => ?_) e he
    rcases h e' he' with hcontained | rfl
    · exact hcontained
    · exact absurd he' (hne ·)

theorem check_contained {condition : Prop} [Decidable condition] :
    Raises Contained (check condition message) := raises_raiseUnless contained_value

end

/-! ## 3. Reading a value -/

section

variable {value : Value} {key : PyStr}

theorem item_contained : Raises Contained (value.item key) := by
  unfold Value.item
  split
  · split
    · exact raises_ok _
    · exact raises_error (Or.inl rfl)
  · exact raises_error (Or.inl rfl)

theorem attr_contained : Raises Contained (value.attr key) := by
  unfold Value.attr
  split
  · exact raises_ok _
  · exact raises_error (Or.inl rfl)

theorem attrD_contained {default : Value} : Raises Contained (value.attrD key default) := by
  unfold Value.attrD
  split
  · exact raises_ok _
  · exact raises_error (Or.inl rfl)

theorem iter_contained : Raises Contained value.iter := by
  unfold Value.iter
  split
  · exact raises_ok _
  · exact raises_ok _
  · exact raises_ok _
  · exact raises_error (Or.inl rfl)

theorem text_contained : Raises Contained value.text := by
  unfold Value.text
  split
  · exact raises_ok _
  · exact raises_error (Or.inl rfl)

theorem size_contained : Raises Contained value.size := by
  unfold Value.size
  split
  · exact raises_ok _
  · exact raises_ok _
  · exact raises_ok _
  · exact raises_error (Or.inl rfl)

/-- A list or a text without a first element. -/
def HasNoFirst (value : Value) : Prop := value = .list [] ∨ value = .str ⟨[]⟩

theorem first_of_hasNoFirst (h : HasNoFirst value) : value.first = .error .indexError := by
  rcases h with rfl | rfl
  · rfl
  · rfl

/-- The first element of a value is looked at safely exactly if it is no such value. -/
theorem first_contained (h : ¬ HasNoFirst value) : Raises Contained value.first := by
  unfold Value.first
  split
  · exact raises_ok _
  · exact raises_ok _
  · exact absurd (Or.inl rfl) h
  · exact absurd (Or.inr rfl) h
  · exact raises_error (Or.inl rfl)
  · exact raises_error (Or.inl rfl)

theorem not_hasNoFirst_of_size (h : value.size = .ok 1) : ¬ HasNoFirst value := by
  rintro (rfl | rfl)
  · cases h
  · cases h

theorem select_contained {items : List Value} {condition : Value → Py Bool}
    (h : ∀ item ∈ items, Raises Contained (condition item)) :
    Raises Contained (select items condition) := by
  induction items with
  | nil => exact raises_ok _
  | cons item items ih =>
    refine (h item List.mem_cons_self).bind fun _ _ => ?_
    exact (ih fun i hi => h i (List.mem_cons_of_mem _ hi)).bind fun _ _ => raises_ok _

theorem ipv4_contained {s : PyStr} : Raises Contained (ipv4 s) := by
  unfold ipv4
  split
  · exact raises_ok _
  · exact raises_error contained_value

theorem named_contained {entry : Value} : Raises Contained (named key entry) :=
  attr_contained.bind fun _ _ => raises_ok _

end

/-! ## 4. Networks -/

/-- A list of bindings that are well formed, with valid addresses and distinct networks. -/
structure Bindings (networks : Value) (texts : List PyStr) : Prop where
  items : networks = .list (texts.map .str)
  forms : ∀ s ∈ texts, isBinding s = true
  addresses : ∀ s ∈ texts, ∀ address, (s.breakOn ":ip=").2 = some address → (ipv4 address).isOk = true
  distinct : (texts.map fun s => (s.breakOn ":ip=").1).Nodup

theorem not_mem_of_isUnitName {s : PyStr} {c : Nat} (h : isUnitName s = true)
    (hc : isAlnum c = false ∧ c ∉ [95, 46, 45]) : c ∉ s.codePoints := by
  unfold isUnitName at h
  split at h
  · cases h
  · next d rest heq =>
    simp only [Bool.and_eq_true, decide_eq_true_eq, List.all_eq_true, Bool.or_eq_true] at h
    rw [heq, List.mem_cons, not_or]
    constructor
    · rintro rfl
      exact absurd h.1.1 (by simp [hc.1])
    · intro hmem
      rcases h.2 c hmem with halnum | hother
      · exact absurd halnum (by simp [hc.1])
      · exact hc.2 hother

/-- The two ways in which the code reads the network of a binding agree. -/
theorem unit_of_isBinding {s : PyStr} (h : isBinding s = true) :
    (s.breakOn ":").1 = (s.breakOn ":ip=").1 := by
  unfold isBinding at h
  split at h
  · next unit heq =>
    have hunit := not_mem_of_isUnitName (c := 58) h (by decide)
    cases PyStr.eq_of_breakOn_none heq
    rw [heq]
    exact PyStr.breakOn_fst_of_not_mem (c := 58) hunit
  · next unit address heq =>
    simp only [Bool.and_eq_true] at h
    have hunit := not_mem_of_isUnitName (c := 58) h.1 (by decide)
    have hs := PyStr.eq_of_breakOn_some (by decide) heq
    rw [heq]
    refine @PyStr.breakOn_fst s unit 58 ([105, 112, 61] ++ address.codePoints) hunit ?_
    rw [hs, PyStr.codePoints_append, PyStr.codePoints_append, List.append_assoc]
    rfl

/-- What `networkTexts` accepts. -/
theorem bindings_of_networkTexts {networks : Value} {texts : List PyStr}
    (h : networkTexts networks = .ok texts) : Bindings networks texts := by
  unfold networkTexts at h
  split at h
  · next items =>
    simp only [bind_eq_ok, raiseUnless_eq_ok, forM_eq_ok] at h
    obtain ⟨read, hread, _, haddresses, _, hnodup, ⟨⟩⟩ := h
    have hall := mapM_eq_ok hread
    have hforms : ∀ s ∈ texts, isBinding s = true := by
      intro s hs
      obtain ⟨item, -, hitem⟩ := mem_of_mapM hread hs
      split at hitem
      · split at hitem
        · next hform =>
          cases hitem
          exact hform
        · cases hitem
      · cases hitem
    have hitems : items = texts.map .str := by
      clear hread haddresses hnodup hforms
      induction hall with
      | nil => rfl
      | cons hitem _ ih =>
        rw [List.map_cons, ← ih]
        split at hitem
        · split at hitem
          · cases hitem
            rfl
          · cases hitem
        · cases hitem
    refine ⟨congrArg Value.list hitems, hforms, fun s hs address haddress => ?_, ?_⟩
    · have hone := haddresses s hs
      rw [haddress] at hone
      simp only [bind_eq_ok] at hone
      obtain ⟨octets, hoctets, -⟩ := hone
      rw [hoctets]
      rfl
    · rwa [List.map_congr_left fun s hs => unit_of_isBinding (hforms s hs)] at hnodup
  · cases h

theorem networkTexts_contained {networks : Value} : Raises Contained (networkTexts networks) := by
  unfold networkTexts
  split
  · refine (raises_mapM fun item _ => ?_).bind fun texts _ => ?_
    · split
      · split
        · exact raises_ok _
        · exact raises_error contained_filter
      · exact raises_error contained_filter
    · refine (raises_forM fun s _ => ?_).bind fun _ _ => ?_
      · split
        · exact ipv4_contained.bind fun _ _ => raises_ok _
        · exact raises_ok _
      · exact (raises_raiseUnless contained_filter).bind fun _ _ => raises_ok _
  · exact raises_error contained_filter

theorem quadletText_contained {description path networks : Value} :
    Raises Contained (quadletText description path networks) := by
  refine (raises_raiseUnless contained_filter).bind fun _ _ => ?_
  refine (raises_raiseUnless contained_filter).bind fun _ _ => ?_
  refine networkTexts_contained.bind fun _ _ => ?_
  exact text_contained.bind fun _ _ => text_contained.bind fun _ _ => raises_ok _

theorem bindingsOf_contained {networks : Value} : Raises Contained (bindingsOf networks) :=
  quadletText_contained.bind fun _ _ => networkTexts_contained.bind fun _ _ => raises_ok _

theorem isManagedName_contained {component : Value} {host : PyStr} :
    Raises Contained (isManagedName component host) :=
  item_contained.bind fun _ _ => attr_contained.bind fun _ _ => raises_ok _

theorem candidates_contained {keycloak postgres : List (PyStr × Option PyStr)} {host : PyStr}
    {managed : Bool} : Raises Contained (candidates keycloak postgres host managed) := by
  unfold candidates
  split
  · exact check_contained.bind fun _ _ => raises_ok _
  · exact ipv4_contained.bind fun _ _ => raises_ok _

theorem databaseBinding_contained {tables : Tables} {components host : Value} :
    Raises Contained (databaseBinding tables components host) := by
  unfold databaseBinding
  split
  · refine item_contained.bind fun _ _ => item_contained.bind fun _ _ => ?_
    refine bindingsOf_contained.bind fun _ _ => ?_
    refine item_contained.bind fun _ _ => item_contained.bind fun _ _ => ?_
    refine bindingsOf_contained.bind fun _ _ => item_contained.bind fun _ _ => ?_
    refine isManagedName_contained.bind fun _ _ => candidates_contained.bind fun _ _ => ?_
    split
    · split
      · exact ipv4_contained.bind fun _ _ => check_contained.bind fun _ _ => raises_ok _
      · exact raises_error contained_value
    · exact raises_error contained_value
  · exact raises_error contained_value

/-- Of distinct networks, the first entry of one is its only one. -/
theorem nextAddress_of_lookup {texts : List PyStr} {network address : PyStr}
    (hdistinct : (texts.map fun s => (s.breakOn ":ip=").1).Nodup)
    (h : lookup (texts.map fun s => s.breakOn ":ip=") network = some (some address)) :
    nextAddress network (texts.map .str) = .ok address := by
  induction texts with
  | nil => cases h
  | cons s texts ih =>
    rw [List.map_cons, List.nodup_cons] at hdistinct
    rw [List.map_cons, lookup] at h
    rw [List.map_cons, nextAddress]
    simp only [Value.text, ok_bind]
    by_cases hunit : (s.breakOn ":ip=").1 = network
    · have hnone : lookup (texts.map fun s => s.breakOn ":ip=") network = none := by
        rw [← Option.not_isSome_iff_eq_none, lookup_isSome, List.map_map]
        rw [hunit] at hdistinct
        exact hdistinct.1
      rw [hnone, if_pos hunit, Option.none_or, Option.some.injEq] at h
      rw [if_pos hunit, h]
    · rw [if_neg hunit, Option.or_none] at h
      rw [if_neg hunit]
      exact ih hdistinct.2 h

/-- **The address that every caller of `database_binding` looks up is there.** -/
theorem declaredAddress_of_binding {tables : Tables} {components host : Value}
    {network address : PyStr}
    (h : databaseBinding tables components host = .ok (network, address)) :
    declaredAddress components network = .ok address := by
  unfold databaseBinding at h
  split at h
  · simp only [bind_eq_ok] at h
    obtain ⟨_, -, _, -, keycloak, -, p, hp, networks, hnetworks, postgres, hpostgres, _, -, _, -, _, -,
      h⟩ := h
    simp only [bindingsOf, bind_eq_ok] at hpostgres
    obtain ⟨_, -, texts, htexts, ⟨⟩⟩ := hpostgres
    have hbindings := bindings_of_networkTexts htexts
    split at h
    · split at h
      · next hlookup =>
        simp only [bind_eq_ok] at h
        obtain ⟨_, -, _, -, ⟨⟩⟩ := h
        simp only [declaredAddress, hp, hnetworks, ok_bind, hbindings.items, Value.iter]
        exact nextAddress_of_lookup hbindings.distinct hlookup
      · cases h
    · cases h
  · cases h

/-! ## 5. The transition -/

/-- `ip_address(text)` raises nothing but a `ValueError`. -/
def Tables.Lawful (tables : Tables) : Prop :=
  ∀ text, Raises (fun e => e.isValueError = true) (tables.isLoopback text)

theorem isRejected_of_isValueError {e : PyError} (h : e.isValueError = true) :
    isRejected e = true := by
  cases e with
  | keyError | typeError | attributeError => rfl
  | _ => exact h

section

variable {tables : Tables}

theorem ownsNetwork_contained {keys : List Value} : Raises Contained (ownsNetwork tables keys) := by
  induction keys with
  | nil => exact raises_ok _
  | cons key rest ih =>
    refine text_contained.bind fun _ _ => ?_
    dsimp only
    split
    · exact raises_ok _
    · exact ih

theorem leavesLoopback_contained (h : tables.Lawful) {ports : List Value} :
    Raises Contained (leavesLoopback tables ports) := by
  induction ports with
  | nil => exact raises_ok _
  | cons port rest ih =>
    refine attr_contained.bind fun _ _ => ?_
    split
    · next address _ =>
      refine Raises.bind ((h address).mono fun e he => Or.inl (isRejected_of_isValueError he)) ?_
      intro loopback _
      split
      · exact ih
      · exact raises_ok _
    · exact raises_ok _

theorem checkContainer_contained (h : tables.Lawful) {component spec container : Value} :
    Raises Contained (checkContainer tables component spec container) := by
  have hmount (mounts : List Value) : ∀ mount ∈ mounts, Raises Contained (do
      .ok ((← mount.item "mountPath").pyEq (← component.item "container_data_dir"))) :=
    fun _ _ => item_contained.bind fun _ _ => item_contained.bind fun _ _ => raises_ok _
  have hports : Raises Contained (do
      check ((← container.attr "ports").truthy = true) "loopback-only host bindings required"
      check ((← leavesLoopback tables (← (← container.item "ports").iter)) = false)
        "loopback-only host bindings required") := by
    refine attr_contained.bind fun _ _ => check_contained.bind fun _ _ => ?_
    refine item_contained.bind fun _ _ => iter_contained.bind fun _ _ => ?_
    exact (leavesLoopback_contained h).bind fun _ _ => check_contained
  unfold checkContainer
  refine item_contained.bind fun _ _ => ?_
  split
  · refine check_contained.bind fun _ _ => item_contained.bind fun _ _ => ?_
    refine text_contained.bind fun _ _ => check_contained.bind fun _ _ => ?_
    refine item_contained.bind fun _ _ => iter_contained.bind fun _ _ => ?_
    refine (select_contained (hmount _)).bind fun mounts _ => ?_
    split
    · next mount =>
      refine attrD_contained.bind fun _ _ => check_contained.bind fun _ _ => ?_
      refine item_contained.bind fun _ _ => iter_contained.bind fun _ _ => ?_
      refine (select_contained fun volume _ => ?_).bind fun volumes _ => ?_
      · exact item_contained.bind fun _ _ => item_contained.bind fun _ _ => raises_ok _
      · split
        · refine attrD_contained.bind fun _ _ => attr_contained.bind fun _ _ => ?_
          exact item_contained.bind fun _ _ => check_contained.bind fun _ _ => hports
        · exact raises_error contained_value
    · exact raises_error contained_value
  · exact raises_error (Or.inl rfl)

theorem checkNetworking_contained {spec : Value} : Raises Contained (checkNetworking spec) := by
  refine attrD_contained.bind fun _ _ => attrD_contained.bind fun _ _ => ?_
  split
  · exact check_contained.bind fun _ _ => raises_ok _
  · exact raises_error contained_value

theorem checkManifest_contained (h : tables.Lawful) {component manifest : Value} :
    Raises Contained (checkManifest tables component manifest) := by
  refine attr_contained.bind fun _ _ => check_contained.bind fun _ _ => ?_
  refine attrD_contained.bind fun _ _ => attr_contained.bind fun _ _ => ?_
  refine item_contained.bind fun _ _ => check_contained.bind fun _ _ => ?_
  refine item_contained.bind fun _ _ => checkNetworking_contained.bind fun _ _ => ?_
  refine attrD_contained.bind fun _ _ => attrD_contained.bind fun _ _ => ?_
  refine iter_contained.bind fun _ _ => ownsNetwork_contained.bind fun _ _ => ?_
  refine check_contained.bind fun _ _ => item_contained.bind fun containers _ => ?_
  refine size_contained.bind fun size hsize => check_contained.bind fun _ hone => ?_
  rw [check_eq_ok] at hone
  refine (first_contained (not_hasNoFirst_of_size (hone ▸ hsize))).bind fun _ _ => ?_
  refine item_contained.bind fun _ _ => item_contained.bind fun _ _ => ?_
  refine check_contained.bind fun _ _ => (checkContainer_contained h).bind fun _ _ => ?_
  exact raises_ok _

/-- The containers of a manifest. -/
def containersOf (manifest : Value) : Py Value := do (← manifest.item "spec").item "containers"

/-- An accepted manifest has a first container. -/
theorem containersOf_of_checkManifest {component manifest aliases : Value}
    (h : checkManifest tables component manifest = .ok aliases) :
    ∀ containers, containersOf manifest = .ok containers → ¬ HasNoFirst containers := by
  simp only [checkManifest, bind_eq_ok, check_eq_ok] at h
  obtain ⟨_, -, _, -, _, -, _, -, _, -, _, -, spec, hspec, _, -, _, -, _, -, _, -, _, -, _, -,
    containers', hcontainers, size, hsize, _, hone, -⟩ := h
  intro containers hfound
  rw [containersOf, hspec, ok_bind, hcontainers] at hfound
  cases hfound
  exact not_hasNoFirst_of_size (hone ▸ hsize)

theorem prepareComponent_contained (h : tables.Lawful) {component : Value} :
    Raises Contained (prepareComponent tables component) := by
  refine item_contained.bind fun _ _ => check_contained.bind fun _ _ => ?_
  refine item_contained.bind fun _ _ => check_contained.bind fun _ _ => ?_
  refine item_contained.bind fun _ _ => item_contained.bind fun _ _ => ?_
  refine item_contained.bind fun _ _ => quadletText_contained.bind fun _ _ => ?_
  refine item_contained.bind fun _ _ => item_contained.bind fun _ _ => ?_
  refine item_contained.bind fun _ _ => quadletText_contained.bind fun _ _ => ?_
  refine item_contained.bind fun _ _ => text_contained.bind fun _ _ => ?_
  refine check_contained.bind fun _ _ => item_contained.bind fun _ _ => ?_
  exact (checkManifest_contained h).bind fun _ _ => raises_ok _

/-- The environment of the first container, if there is one to look at. -/
theorem environmentOf_contained {manifest : Value}
    (h : ∀ containers, containersOf manifest = .ok containers → ¬ HasNoFirst containers) :
    Raises Contained (environmentOf manifest) := by
  refine item_contained.bind fun spec hspec => item_contained.bind fun containers hcontainers => ?_
  have hfound : containersOf manifest = .ok containers := by
    rw [containersOf, hspec, ok_bind, hcontainers]
  refine (first_contained (h containers hfound)).bind fun _ _ => ?_
  exact item_contained.bind fun _ _ => iter_contained

theorem currentHost_contained {manifest : Value}
    (h : ∀ containers, containersOf manifest = .ok containers → ¬ HasNoFirst containers) :
    Raises Contained (currentHost manifest) := by
  refine (environmentOf_contained h).bind fun _ _ => ?_
  refine (select_contained fun _ _ => named_contained.bind fun _ _ => raises_ok _).bind fun _ _ => ?_
  split
  · exact item_contained
  · exact raises_error contained_value

theorem currentComponents_contained {components : Value} {desired : Bool} :
    Raises Contained (currentComponents components desired) := by
  unfold currentComponents
  split
  · exact raises_ok _
  · refine item_contained.bind fun _ _ => item_contained.bind fun _ _ => ?_
    exact item_contained.bind fun _ _ => item_contained.bind fun _ _ => raises_ok _

theorem hostAliases_contained {components : Value} {host address : PyStr} :
    Raises Contained (hostAliases components host address) := by
  refine item_contained.bind fun _ _ => isManagedName_contained.bind fun _ _ => ?_
  split
  · exact raises_ok _
  · exact raises_ok _

theorem checkAliases_contained {components manifest aliases : Value} {desired : Bool}
    (h : ∀ containers, containersOf manifest = .ok containers → ¬ HasNoFirst containers) :
    Raises Contained (checkAliases tables components manifest aliases desired) := by
  unfold checkAliases
  split
  · refine (currentHost_contained h).bind fun _ _ => currentComponents_contained.bind fun _ _ => ?_
    refine databaseBinding_contained.bind fun _ _ => text_contained.bind fun _ _ => ?_
    exact hostAliases_contained.bind fun _ _ => check_contained
  · exact raises_ok _

theorem setEntry_contained {key value : PyStr} {environment : List Value} :
    Raises Contained (setEntry key value environment) := by
  refine (select_contained fun _ _ => named_contained).bind fun _ _ => ?_
  split
  · exact check_contained.bind fun _ _ => raises_ok _
  · exact raises_error contained_value

theorem withEndpoint_contained {manifest : Value} {aliases : List Value} {host : PyStr} {port : Int}
    (h : ∀ containers, containersOf manifest = .ok containers → ¬ HasNoFirst containers) :
    Raises Contained (withEndpoint manifest aliases host port) := by
  refine item_contained.bind fun spec hspec => item_contained.bind fun containers hcontainers => ?_
  have hfound : containersOf manifest = .ok containers := by
    rw [Value.item_eq, isDict_withAliases, find?_withAliases (by decide), ← Value.item_eq]
      at hcontainers
    rw [containersOf, hspec, ok_bind, hcontainers]
  refine (first_contained (h containers hfound)).bind fun _ _ => ?_
  refine item_contained.bind fun _ _ => iter_contained.bind fun _ _ => ?_
  exact setEntry_contained.bind fun _ _ => setEntry_contained.bind fun _ _ => raises_ok _

/-- Every position that a transition looks at was checked to be there. -/
theorem prepareFor_contained (h : tables.Lawful) {components : Value} {host : PyStr} {port : Int} :
    Raises Contained (prepareFor tables components host port) := by
  refine databaseBinding_contained.bind fun _ _ => hostAliases_contained.bind fun _ _ => ?_
  refine item_contained.bind fun _ _ => ?_
  refine (prepareComponent_contained h).bind fun keycloak hkeycloak => ?_
  refine item_contained.bind fun _ _ => (prepareComponent_contained h).bind fun _ _ => ?_
  refine check_contained.bind fun _ _ => check_contained.bind fun _ _ => ?_
  obtain ⟨-, -, -, hcheck, -⟩ := prepareComponent_eq_ok hkeycloak
  have hfirst := containersOf_of_checkManifest hcheck
  refine (checkAliases_contained hfirst).bind fun _ _ => ?_
  exact (withEndpoint_contained hfirst).bind fun _ _ => raises_ok _

theorem prepareTransition_raises (h : tables.Lawful) {components host port : Value} :
    Raises IsFilterError (prepareTransition tables components host port) := by
  refine rejecting_raises ?_
  split
  · refine check_contained.bind fun _ _ => check_contained.bind fun _ _ => ?_
    exact prepareFor_contained h
  · exact raises_error contained_value
  · exact raises_error contained_value

theorem privateDatabaseEndpointValid_raises {host keycloakNetworks postgresNetworks podName
    containerName : Value} : Raises IsFilterError (privateDatabaseEndpointValid tables host
      keycloakNetworks postgresNetworks podName containerName) :=
  rejecting_raises (databaseBinding_contained.bind fun _ _ => raises_ok _)

theorem resolvedAddress_contained {line : PyStr} : Raises Contained (resolvedAddress line) := by
  unfold resolvedAddress
  split
  · exact check_contained.bind fun _ _ => ipv4_contained.bind fun _ _ => raises_ok _
  · exact raises_error contained_value

theorem databaseResolutionValid_raises {output components host : Value} :
    Raises IsFilterError (databaseResolutionValid tables output components host) := by
  refine rejectingEnd_raises (Raises.mono ?_ fun _ he => Or.inl he)
  refine databaseBinding_contained.bind fun ⟨network, address⟩ hfound => ?_
  simp only [declaredAddress_of_binding hfound, ok_bind]
  split
  · refine check_contained.bind fun _ _ => ?_
    refine (raises_mapM fun _ _ => resolvedAddress_contained).bind fun _ _ => ?_
    exact check_contained.bind fun _ _ => raises_ok _
  · exact raises_error contained_value

end

/-! ## 6. The running pair -/

section

variable {component record : Value} {actual expected : List (PyStr × Value)}

theorem checkAddress_contained {value : Value} : Raises Contained (checkAddress value) := by
  unfold checkAddress
  split
  · exact ipv4_contained.bind fun _ _ => raises_ok _
  · exact check_contained
  · exact raises_ok _
  · exact raises_error contained_value

theorem attached_contained : Raises Contained (attached record) := by
  refine item_contained.bind fun _ _ => item_contained.bind fun _ _ => ?_
  split
  · exact raises_mapM fun _ _ => item_contained.bind fun _ _ => raises_ok _
  · exact raises_error (Or.inl rfl)

theorem runtimeIdentityValid_contained :
    Raises Contained (runtimeIdentityValid component record) := by
  refine item_contained.bind fun _ _ => text_contained.bind fun _ _ => ?_
  refine item_contained.bind fun _ _ => text_contained.bind fun _ _ => ?_
  refine check_contained.bind fun _ _ => item_contained.bind fun _ _ => ?_
  refine iter_contained.bind fun _ _ => (select_contained fun mount _ => ?_).bind fun _ _ => ?_
  · exact item_contained.bind fun _ _ => item_contained.bind fun _ _ => raises_ok _
  · split
    · refine item_contained.bind fun _ _ => item_contained.bind fun _ _ => ?_
      refine check_contained.bind fun _ _ => attr_contained.bind fun _ _ => ?_
      exact check_contained.bind fun _ _ => attr_contained.bind fun _ _ => check_contained
    · exact raises_error contained_value

theorem staticAddress_contained {static : Option PyStr} : Raises Contained (staticAddress static) := by
  unfold staticAddress
  split
  · exact ipv4_contained.bind fun _ _ => raises_ok _
  · exact raises_ok _

theorem expectedFrom_contained {names : Value} {texts : List PyStr} :
    Raises Contained (expectedFrom names expected texts) := by
  induction texts generalizing expected with
  | nil => exact raises_ok _
  | cons entry rest ih =>
    refine item_contained.bind fun _ _ => ?_
    split
    · exact check_contained.bind fun _ _ => staticAddress_contained.bind fun _ _ => ih
    · exact raises_error contained_value

theorem expectedRuntimeNetworks_contained {field : PyStr} :
    Raises Contained (expectedRuntimeNetworks component field) := by
  refine item_contained.bind fun _ _ => quadletText_contained.bind fun _ _ => ?_
  refine networkTexts_contained.bind fun _ _ => ?_
  split
  · exact raises_ok _
  · exact item_contained.bind fun _ _ => expectedFrom_contained

theorem matchFrom_contained : Raises Contained (matchFrom expected actual) := by
  induction actual with
  | nil => exact raises_ok _
  | cons e rest ih =>
    refine checkAddress_contained.bind fun _ _ => ?_
    split
    · exact raises_error (Or.inl rfl)
    · split
      · exact raises_ok _
      · exact ih

theorem runtimeNetworksMatch_contained : Raises Contained (runtimeNetworksMatch actual expected) := by
  unfold runtimeNetworksMatch
  split
  · exact matchFrom_contained
  · exact raises_ok _

theorem environmentValue_contained {environment : List Value} {key : PyStr} :
    Raises Contained (environmentValue environment key) := by
  refine (select_contained fun _ _ => text_contained.bind fun _ _ => raises_ok _).bind fun _ _ => ?_
  split
  · exact text_contained.bind fun _ _ => raises_ok _
  · exact raises_error contained_value

theorem databaseEnvironment_contained : Raises Contained (databaseEnvironment record) := by
  refine item_contained.bind fun _ _ => item_contained.bind fun _ _ => ?_
  refine iter_contained.bind fun _ _ => environmentValue_contained.bind fun _ _ => ?_
  exact environmentValue_contained.bind fun _ _ => raises_ok _

theorem boundNetworks_contained : Raises Contained (boundNetworks component) := by
  refine item_contained.bind fun _ _ => text_contained.bind fun _ _ => ?_
  refine item_contained.bind fun _ _ => item_contained.bind fun _ _ => ?_
  refine item_contained.bind fun _ _ => quadletText_contained.bind fun _ _ => ?_
  refine item_contained.bind fun _ _ => item_contained.bind fun _ _ => ?_
  refine item_contained.bind fun _ _ => quadletText_contained.bind fun _ _ => ?_
  split
  · exact expectedRuntimeNetworks_contained
  · split
    · exact expectedRuntimeNetworks_contained
    · exact raises_error contained_value

theorem checkBound_contained : Raises Contained (checkBound actual expected) := by
  unfold checkBound
  split
  · exact check_contained
  · exact runtimeNetworksMatch_contained.bind fun _ _ => check_contained

theorem captureComponent_contained : Raises Contained (captureComponent component record) := by
  refine Raises.bind ?_ fun _ _ => raises_ok _
  refine runtimeIdentityValid_contained.bind fun _ _ => ?_
  refine expectedRuntimeNetworks_contained.bind fun _ _ => attached_contained.bind fun _ _ => ?_
  refine check_contained.bind fun _ _ => ?_
  refine (raises_forM fun _ _ => checkAddress_contained).bind fun _ _ => ?_
  exact boundNetworks_contained.bind fun _ _ => checkBound_contained.bind fun _ _ => raises_ok _

theorem checkField_contained {environment : List Value} {key value : PyStr} :
    Raises Contained (checkField environment key value) := by
  refine (select_contained fun _ _ => named_contained).bind fun _ _ => ?_
  split
  · exact attr_contained.bind fun _ _ => check_contained
  · exact raises_error contained_value

theorem validateOriginal_contained {original : Value} :
    Raises Contained (validateOriginal actual original) := by
  refine item_contained.bind fun _ _ => check_contained.bind fun _ _ => ?_
  refine item_contained.bind fun _ _ => Raises.bind ?_ fun _ _ => ?_
  · unfold checkStatic
    split
    · exact raises_ok _
    · exact runtimeNetworksMatch_contained.bind fun _ _ => check_contained
    · split
      · exact raises_error (Or.inl rfl)
      · exact raises_ok _
  · exact check_contained.bind fun _ _ => raises_forM fun _ _ => checkAddress_contained

theorem validateComponent_contained {desired : Bool} :
    Raises Contained (validateComponent desired component record) := by
  refine runtimeIdentityValid_contained.bind fun _ _ => attached_contained.bind fun _ _ => ?_
  split
  · refine expectedRuntimeNetworks_contained.bind fun _ _ => ?_
    exact runtimeNetworksMatch_contained.bind fun _ _ => check_contained
  · exact item_contained.bind fun _ _ => validateOriginal_contained

theorem runtimeValid_raises {components records host : Value} {portText : PyStr} {desired : Bool} :
    Raises IsFilterError (runtimeValid components records host portText desired) := by
  refine rejecting_raises (check_contained.bind fun _ _ => ?_)
  refine (raises_forM fun e _ => ?_).bind fun _ _ => ?_
  · exact item_contained.bind fun _ _ => validateComponent_contained
  · refine item_contained.bind fun _ _ => databaseEnvironment_contained.bind fun _ _ => ?_
    dsimp only
    split
    · exact check_contained.bind fun _ _ => raises_ok _
    · refine item_contained.bind fun _ _ => item_contained.bind fun _ _ => ?_
      exact item_contained.bind fun _ _ => check_contained.bind fun _ _ => raises_ok _

end

/-! ## 7. What gets past a handler -/

section

variable {components records : Value}

/-- The pair passes every check that is made before the Keycloak manifest is looked at, and this
manifest has a list of containers without a first one. -/
structure Exposed (components records : Value) : Prop where
  pair : isPair components records = true
  captured : ∀ e ∈ components.entries, ∃ record, records.item e.1 = .ok record ∧
    ∃ component', captureComponent e.2 record = .ok component'
  endpoint : ∃ record found, records.item "keycloak" = .ok record ∧
    databaseEnvironment record = .ok found
  empty : ∃ manifest containers, (components.get "keycloak").item "manifest" = .ok manifest ∧
    containersOf manifest = .ok containers ∧ HasNoFirst containers

/-- A loop over the entries of a dict, read at a key. -/
theorem lookup_mapM {entries entries' : List (PyStr × Value)} {f : PyStr × Value → Py Value}
    (h : entries.mapM (fun e => do .ok (e.1, ← f e)) = .ok entries') {key : PyStr} {v' : Value}
    (hv : lookup entries' key = some v') :
    ∃ v, lookup entries key = some v ∧ f (key, v) = .ok v' := by
  have hall := mapM_eq_ok h
  clear h
  induction hall with
  | nil => cases hv
  | @cons e e' es es' he hes ih =>
    simp only [bind_eq_ok] at he
    obtain ⟨w, hw, ⟨⟩⟩ := he
    rw [lookup] at hv ⊢
    cases hrest : lookup es' key with
    | some u =>
      rw [hrest] at hv
      cases hv
      obtain ⟨v, hv', hf⟩ := ih hrest
      rw [hv']
      exact ⟨v, rfl, hf⟩
    | none =>
      rw [hrest, Option.none_or] at hv
      split at hv
      · next hkey =>
        cases hv
        have hnone : lookup es key = none := by
          have hkeys : es'.map Prod.fst = es.map Prod.fst := by
            clear ih hrest
            induction hes with
            | nil => rfl
            | cons hone _ ih =>
              simp only [bind_eq_ok] at hone
              obtain ⟨_, -, ⟨⟩⟩ := hone
              rw [List.map_cons, List.map_cons, ih]
          rw [← Option.not_isSome_iff_eq_none, lookup_isSome, ← hkeys, ← lookup_isSome, hrest]
          simp
        refine ⟨e.2, ?_, ?_⟩
        · rw [hnone, Option.none_or]
          exact if_pos hkey
        · rw [← hkey]
          exact hw
      · cases hv

/-- The manifest of the captured Keycloak component is the one that was handed in. -/
theorem manifest_of_captured {captured : List (PyStr × Value)} {keycloak : Value}
    (h : components.entries.mapM (fun e => do
      .ok (e.1, ← captureComponent e.2 (← records.item e.1))) = .ok captured)
    (hkeycloak : (Value.dict captured).item "keycloak" = .ok keycloak) :
    keycloak.item "manifest" = (components.get "keycloak").item "manifest" := by
  have hread : components.entries.mapM (fun e => do
      .ok (e.1, ← (do captureComponent e.2 (← records.item e.1)))) = .ok captured := by
    rw [← h]
    refine congrArg (List.mapM · components.entries) (funext fun e => ?_)
    cases records.item e.1 with
    | ok record => rfl
    | error e => rfl
  obtain ⟨component, hcomponent, hcapture⟩ := lookup_mapM hread (Value.find?_of_item hkeycloak)
  rw [bind_eq_ok] at hcapture
  obtain ⟨record, -, hcapture⟩ := hcapture
  obtain ⟨-, -, -, -, hsame, -⟩ := captured_of_captureComponent hcapture
  have hget : components.get "keycloak" = component := by
    cases components with
    | dict entries =>
      rw [Value.get, Value.find?]
      exact congrArg (Option.getD · Value.none) hcomponent
    | _ => cases hcomponent
  rw [hsame "manifest" (by decide), hget]

/-- Whatever is not exposed is contained. -/
theorem captureOriginalRuntime_raises (h : ¬ Exposed components records) :
    Raises IsFilterError (captureOriginalRuntime components records) := by
  refine rejecting_raises (check_contained.bind fun _ hpair => ?_)
  rw [check_eq_ok] at hpair
  refine (raises_mapM fun e _ => ?_).bind fun captured hcaptured => ?_
  · exact item_contained.bind fun _ _ => captureComponent_contained.bind fun _ _ => raises_ok _
  refine item_contained.bind fun record hrecord => ?_
  refine databaseEnvironment_contained.bind fun found hfound => ?_
  refine item_contained.bind fun keycloak hkeycloak => item_contained.bind fun manifest hmanifest => ?_
  refine (environmentOf_contained fun containers hcontainers hnone => h ?_).bind fun _ _ => ?_
  · refine ⟨hpair, fun e he => ?_, ⟨record, found, hrecord, hfound⟩, manifest, containers, ?_,
      hcontainers, hnone⟩
    · obtain ⟨e', -, he'⟩ := exists_of_forall₂ (mapM_eq_ok hcaptured) he
      simp only [bind_eq_ok] at he'
      obtain ⟨record', hrecord', component', hcomponent', -⟩ := he'
      exact ⟨record', hrecord', component', hcomponent'⟩
    · rw [← manifest_of_captured hcaptured hkeycloak, hmanifest]
  · refine checkField_contained.bind fun _ _ => checkField_contained.bind fun _ _ => ?_
    exact item_contained.bind fun _ _ => raises_ok _

/-- What is exposed escapes: the position of a container that is not there. -/
theorem captureOriginalRuntime_escapes (h : Exposed components records) :
    captureOriginalRuntime components records = .error .indexError := by
  obtain ⟨hpair, hcaptured, ⟨record, found, hrecord, hfound⟩, manifest, containers, hmanifest,
    hcontainers, hnone⟩ := h
  obtain ⟨captured, hall⟩ : ∃ captured, components.entries.mapM (fun e => do
      .ok (e.1, ← captureComponent e.2 (← records.item e.1))) = .ok captured :=
    exists_mapM fun e he => by
      obtain ⟨record', hrecord', component', hcomponent'⟩ := hcaptured e he
      exact ⟨(e.1, component'), by rw [hrecord', ok_bind, hcomponent', ok_bind]⟩
  have hkeys : captured.map Prod.fst = components.entries.map Prod.fst := by
    refine keys_of_mapM (fun e e' he => ?_) hall
    simp only [bind_eq_ok] at he
    obtain ⟨_, -, _, -, ⟨⟩⟩ := he
    rfl
  have hmem : ("keycloak" : PyStr) ∈ captured.map Prod.fst := by
    rw [hkeys]
    simp only [isPair, Value.hasKeys, Bool.and_eq_true, decide_eq_true_eq] at hpair
    exact hpair.1.1.2.2 List.mem_cons_self
  obtain ⟨keycloak, hkeycloak⟩ := Option.isSome_iff_exists.mp (lookup_isSome.mpr hmem)
  have hitem : (Value.dict captured).item "keycloak" = .ok keycloak := Value.item_of_find? hkeycloak
  have hsame := (manifest_of_captured hall hitem).trans hmanifest
  have hfirst : environmentOf manifest = .error .indexError := by
    rw [containersOf, bind_eq_ok] at hcontainers
    obtain ⟨spec, hspec, hcontainers⟩ := hcontainers
    rw [environmentOf, hspec, ok_bind, hcontainers, ok_bind, first_of_hasNoFirst hnone, error_bind]
  have hcheck : check (isPair components records = true) "exact pair required" = .ok () :=
    raiseUnless_of hpair
  rw [captureOriginalRuntime, hcheck, ok_bind, hall, ok_bind, hrecord, ok_bind, hfound, ok_bind,
    hitem, ok_bind, hsame, ok_bind, hfirst]
  rfl

end

/-! ## 8. Samples -/

theorem sampleTables_lawful : sampleTables.Lawful := fun _ => raises_ok _

/-- Whether the Keycloak manifest has a list of containers without a first one. -/
def listsNone (components : Value) : Bool :=
  match (do containersOf (← (components.get "keycloak").item "manifest")) with
  | .ok (.list []) | .ok (.str ⟨[]⟩) => true
  | _ => false

theorem not_exposed_of_listsNone {components records : Value} (h : listsNone components = false) :
    ¬ Exposed components records := by
  rintro ⟨-, -, -, manifest, containers, hmanifest, hcontainers, hnone⟩
  rw [listsNone, hmanifest, ok_bind, hcontainers] at h
  rcases hnone with rfl | rfl
  · cases h
  · cases h

/-- The running pair with a Keycloak manifest that lists no container. -/
def sampleExposed : Value :=
  let keycloak := (samplePlaced ["db.network"]).get "keycloak"
  (samplePlaced ["db.network"]).set "keycloak"
    (keycloak.set "manifest" (.dict [("spec", .dict [("containers", .list [])])]))

end Supplementary.Keycloak
