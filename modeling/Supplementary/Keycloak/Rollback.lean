/-
# What is captured validates

A capture reads a component and a record once; `validateComponent` reads them again, through the
captured component.  The two walks agree because the captured component differs only in its entry
`original_runtime`, which the capture filled from the reads it had checked.

The desired mode asks for the declared networks, so a component that declares none is refused
there although the capture accepts it on the implicit network.
-/
import Supplementary.Keycloak.Runtime

namespace Supplementary.Keycloak

open Supplementary

/-! ## 1. Equality of what was captured -/

theorem pyEqList_str {xs ys : List PyStr} :
    Value.pyEqList (xs.map .str) (ys.map .str) = true ↔ xs = ys := by
  induction xs generalizing ys with
  | nil => cases ys <;> simp [Value.pyEqList]
  | cons x xs ih => cases ys <;> simp [Value.pyEqList, Value.pyEq, ih]

theorem pyEq_toValue {e e' : Endpoint} : e.toValue.pyEq e'.toValue = true ↔ e = e' := by
  obtain ⟨host, port⟩ := e
  obtain ⟨host', port'⟩ := e'
  have hne : ¬ ("KC_DB_URL_HOST" : PyStr) = "KC_DB_URL_PORT" := by decide
  simp [Endpoint.toValue, Value.pyEq, Value.pyEqEntries, hne]

/-! ## 2. Networks that match -/

section

variable {actual bound : List (PyStr × Value)}

theorem matchFrom_eq_true (h : matchFrom bound actual = .ok true) :
    ∀ e ∈ actual, ∃ wanted, lookup bound e.1 = some wanted ∧
      (wanted.isNone = true ∨ e.2.pyEq wanted = true) := by
  induction actual with
  | nil => exact fun _ he => nomatch he
  | cons e actual ih =>
    rw [matchFrom, bind_eq_ok] at h
    obtain ⟨_, -, h⟩ := h
    split at h
    · cases h
    · next wanted hwanted =>
      split at h
      · cases h
      · next hsame =>
        refine List.forall_mem_cons.mpr ⟨⟨wanted, hwanted, ?_⟩, ih h⟩
        simpa [-not_and, not_and_or] using hsame

/-- A network with a static address is attached at that address. -/
theorem static_of_match (h : runtimeNetworksMatch actual bound = .ok true) {network address : PyStr}
    (hstatic : lookup bound network = some (.str address)) :
    lookup actual network = some (.str address) := by
  unfold runtimeNetworksMatch at h
  split at h
  · next hkeys =>
    have hmem : network ∈ actual.map Prod.fst :=
      hkeys.2 (lookup_isSome.mp (by rw [hstatic]; rfl))
    obtain ⟨v, hv⟩ := Option.isSome_iff_exists.mp (lookup_isSome.mpr hmem)
    obtain ⟨wanted, hwanted, hsame⟩ := matchFrom_eq_true h _ (mem_of_lookup hv)
    obtain rfl := Option.some.inj (hstatic.symm.trans hwanted)
    rcases hsame with hnone | heq
    · cases hnone
    · cases v with
      | str s =>
        obtain rfl : s = address := by simpa [Value.pyEq] using heq
        exact hv
      | float x =>
        obtain ⟨repr, exact⟩ := x
        cases exact <;> simp [Value.pyEq, Value.number?] at heq
      | bool b => simp [Value.pyEq, Value.number?] at heq
      | int n => simp [Value.pyEq, Value.number?] at heq
      | _ => simp [Value.pyEq] at heq
  · cases h

end

/-! ## 3. One component -/

section

variable {component component' record record' original : Value}
  {actual actual' bound : List (PyStr × Value)}

/-- The captured component is the component, but for what was captured. -/
def SameButRuntime (component component' : Value) : Prop :=
  ∀ key : PyStr, key ≠ "original_runtime" → component'.item key = component.item key

theorem sameButRuntime_set (runtime : Value) :
    SameButRuntime component (component.set "original_runtime" runtime) := fun _ h =>
  Value.item_set_ne h.symm

theorem SameButRuntime.trans {component'' : Value} (h : SameButRuntime component component')
    (h' : SameButRuntime component' component'') : SameButRuntime component component'' :=
  fun key hkey => (h' key hkey).trans (h key hkey)

theorem runtimeIdentityValid_same (h : SameButRuntime component component') :
    runtimeIdentityValid component' record = runtimeIdentityValid component record := by
  simp only [runtimeIdentityValid, h "image" (by decide), h "container_data_dir" (by decide),
    h "host_data_dir" (by decide)]

theorem expectedRuntimeNetworks_same (h : SameButRuntime component component') :
    expectedRuntimeNetworks component' "networks" =
      expectedRuntimeNetworks component "networks" := by
  simp only [expectedRuntimeNetworks, h "networks" (by decide),
    h "network_runtime_names" (by decide)]

/-- `original_runtime` holds what was captured. -/
structure Holds (original : Value) (actual bound : List (PyStr × Value)) : Prop where
  names : original.item "network_names" = .ok (.list ((sortedNames actual).map .str))
  static : original.item "static_networks" = .ok (.dict bound)

/-- What a capture has checked. -/
theorem captureNetworks_eq_ok (h : captureNetworks component record = .ok (actual, bound)) :
    runtimeIdentityValid component record = .ok () ∧ attached record = .ok actual ∧
      (∀ e ∈ actual, e.2.truthy = true) ∧ (actual.forM fun e => checkAddress e.2) = .ok () ∧
      boundNetworks component = .ok bound ∧
      (bound ≠ [] → runtimeNetworksMatch actual bound = .ok true) := by
  simp only [captureNetworks, bind_eq_ok, check_eq_ok] at h
  obtain ⟨_, hidentity, _, -, actual', hactual, _, htruthy, _, haddresses, bound', hbound, _, hmatch,
    h⟩ := h
  cases h
  refine ⟨hidentity, hactual, htruthy.2, haddresses, hbound, fun hne => ?_⟩
  rw [checkBound, if_neg hne] at hmatch
  simp only [bind_eq_ok, check_eq_ok] at hmatch
  obtain ⟨b, hb, rfl⟩ := hmatch
  exact hb

/-- What was captured of a record is found again in it. -/
theorem validateOriginal_of_capture (h : captureNetworks component record = .ok (actual, bound))
    (hholds : Holds original actual bound) : validateOriginal actual original = .ok () := by
  obtain ⟨-, -, htruthy, haddresses, -, hmatch⟩ := captureNetworks_eq_ok h
  simp only [validateOriginal, hholds.names, hholds.static, ok_bind, bind_eq_ok, check_eq_ok]
  refine ⟨(), ?_, (), ?_, (), htruthy, haddresses⟩
  · rw [Value.pyEq, pyEqList_str]
  · cases bound with
    | nil => rfl
    | cons e rest =>
      simp only [checkStatic, hmatch (List.cons_ne_nil _ _), ok_bind, check_eq_ok]

/-- A rollback finds the captured networks, and the captured static addresses. -/
theorem validateOriginal_eq_ok (h : validateOriginal actual' original = .ok ())
    (hholds : Holds original actual bound) : sortedNames actual' = sortedNames actual ∧
      (bound ≠ [] → runtimeNetworksMatch actual' bound = .ok true) := by
  simp only [validateOriginal, hholds.names, hholds.static, ok_bind, bind_eq_ok, check_eq_ok] at h
  obtain ⟨_, hnames, _, hmatch, -⟩ := h
  rw [Value.pyEq, pyEqList_str] at hnames
  refine ⟨hnames, fun hne => ?_⟩
  cases bound with
  | nil => exact absurd rfl hne
  | cons e rest =>
    simp only [checkStatic, bind_eq_ok, check_eq_ok] at hmatch
    obtain ⟨b, hb, rfl⟩ := hmatch
    exact hb

/-- Two records have the same networks, and the declared static addresses on them. -/
def SameNetworks (bound : List (PyStr × Value)) (record record' : Value) : Prop :=
  ∃ actual actual', attached record = .ok actual ∧ attached record' = .ok actual' ∧
    sortedNames actual' = sortedNames actual ∧
    ∀ network address, lookup bound network = some (.str address) →
      lookup actual network = some (.str address) ∧ lookup actual' network = some (.str address)

/-- The captured component: what was captured of it, and nothing else changed. -/
def Captured (component record component' : Value) : Prop :=
  ∃ actual bound original, captureNetworks component record = .ok (actual, bound) ∧
    SameButRuntime component component' ∧ component'.item "original_runtime" = .ok original ∧
    Holds original actual bound

theorem captured_of_captureComponent (h : captureComponent component record = .ok component') :
    Captured component record component' := by
  simp only [captureComponent, bind_eq_ok] at h
  obtain ⟨⟨actual, bound⟩, hnetworks, h⟩ := h
  cases h
  have hdict : component.isDict = true := by
    have hidentity := (captureNetworks_eq_ok hnetworks).1
    simp only [runtimeIdentityValid, bind_eq_ok] at hidentity
    obtain ⟨_, -, _, -, _, himage, -⟩ := hidentity
    exact Value.isDict_of_item himage
  exact ⟨actual, bound, _, hnetworks, sameButRuntime_set _, Value.item_set_self hdict, rfl, rfl⟩

/-- The database fields are added to what was captured. -/
theorem Captured.withEndpoint {runtime endpoint : Value} (h : Captured component record component')
    (hruntime : component'.item "original_runtime" = .ok runtime) :
    Captured component record
      (component'.set "original_runtime" (runtime.set "database_environment" endpoint)) := by
  obtain ⟨actual, bound, original, hnetworks, hsame, horiginal, hholds⟩ := h
  cases horiginal.symm.trans hruntime
  refine ⟨actual, bound, _, hnetworks, hsame.trans (sameButRuntime_set _),
    Value.item_set_self (Value.isDict_of_item hruntime), ?_, ?_⟩
  · rw [Value.item_set_ne (by decide), hholds.names]
  · rw [Value.item_set_ne (by decide), hholds.static]

/-- **A captured component validates** against its own record. -/
theorem Captured.valid (h : Captured component record component') :
    validateComponent false component' record = .ok () := by
  obtain ⟨actual, bound, original, hnetworks, hsame, horiginal, hholds⟩ := h
  obtain ⟨hidentity, hactual, -⟩ := captureNetworks_eq_ok hnetworks
  simp only [validateComponent, runtimeIdentityValid_same hsame, hidentity, hactual, ok_bind,
    Bool.false_eq_true, if_false, horiginal]
  exact validateOriginal_of_capture hnetworks hholds

/-- Whatever validates against a captured component has its networks. -/
theorem Captured.sameNetworks (h : Captured component record component')
    (hvalid : validateComponent false component' record' = .ok ()) :
    ∃ bound, boundNetworks component = .ok bound ∧ SameNetworks bound record record' := by
  obtain ⟨actual, bound, original, hnetworks, hsame, horiginal, hholds⟩ := h
  obtain ⟨-, hactual, -, -, hbound, hmatch⟩ := captureNetworks_eq_ok hnetworks
  simp only [validateComponent, bind_eq_ok, Bool.false_eq_true, if_false, horiginal, ok_bind]
    at hvalid
  obtain ⟨_, -, actual', hactual', hvalid⟩ := hvalid
  obtain ⟨hnames, hmatch'⟩ := validateOriginal_eq_ok hvalid hholds
  refine ⟨bound, hbound, actual, actual', hactual, hactual', hnames, fun network address hstatic => ?_⟩
  have hne : bound ≠ [] := by
    rintro rfl
    cases hstatic
  exact ⟨static_of_match (hmatch hne) hstatic, static_of_match (hmatch' hne) hstatic⟩

end

/-! ## 4. The pair -/

section

variable {components records captured : Value}

/-- A loop over entries that keeps their names. -/
theorem keys_of_mapM {entries entries' : List (PyStr × Value)} {f : PyStr × Value → Py (PyStr × Value)}
    (hf : ∀ e e', f e = .ok e' → e'.1 = e.1) (h : entries.mapM f = .ok entries') :
    entries'.map Prod.fst = entries.map Prod.fst := by
  have hall := mapM_eq_ok h
  clear h
  induction hall with
  | nil => rfl
  | cons h _ ih => rw [List.map_cons, List.map_cons, hf _ _ h, ih]

/-- Every entry of the captured components is captured from an entry of the same name, and the
database fields are kept with the Keycloak component. -/
structure CapturedPair (components records captured : Value) : Prop where
  isPair : isPair captured records = true
  entries : ∀ e' ∈ captured.entries, ∃ component record, (e'.1, component) ∈ components.entries ∧
    records.item e'.1 = .ok record ∧ Captured component record e'.2
  endpoint : ∃ record keycloak runtime found, records.item "keycloak" = .ok record ∧
    databaseEnvironment record = .ok found ∧ captured.item "keycloak" = .ok keycloak ∧
    keycloak.item "original_runtime" = .ok runtime ∧
    runtime.item "database_environment" = .ok found.toValue

/-- What a capture returns. -/
theorem capturedPair (h : captureOriginalRuntime components records = .ok captured) :
    CapturedPair components records captured := by
  simp only [captureOriginalRuntime, rejecting_eq_ok, bind_eq_ok, check_eq_ok] at h
  obtain ⟨_, hpair, entries, hentries, record, hrecord, found, hfound, keycloak, hkeycloak, _, -, _, -,
    _, -, _, -, runtime, hruntime, h⟩ := h
  cases h
  have hcaptured : ∀ e' ∈ entries, ∃ component record, (e'.1, component) ∈ components.entries ∧
      records.item e'.1 = .ok record ∧ Captured component record e'.2 := by
    intro e' he'
    obtain ⟨e, hmem, he⟩ := mem_of_mapM hentries he'
    simp only [bind_eq_ok] at he
    obtain ⟨record, hrecord, component', hcomponent, he⟩ := he
    cases he
    exact ⟨e.2, record, hmem, hrecord, captured_of_captureComponent hcomponent⟩
  have hkey : (("keycloak" : PyStr), keycloak) ∈ entries := mem_of_lookup (Value.find?_of_item hkeycloak)
  have hkeys : (Value.dict entries).keySet = components.keySet := by
    refine keys_of_mapM (fun e e' he => ?_) hentries
    simp only [bind_eq_ok] at he
    obtain ⟨_, -, _, -, he⟩ := he
    cases he
    rfl
  have hmem : ("keycloak" : PyStr) ∈ (Value.dict entries).keySet := List.mem_map_of_mem hkey
  have hdict : runtime.isDict = true := by
    obtain ⟨_, _, -, -, _, _, original, -, -, horiginal, hholds⟩ := hcaptured _ hkey
    cases horiginal.symm.trans hruntime
    exact Value.isDict_of_item hholds.names
  refine ⟨?_, fun e' he' => ?_, record, _, _, found, hrecord, hfound, Value.item_set_self rfl,
    Value.item_set_self (Value.isDict_of_item hruntime), Value.item_set_self hdict⟩
  · simp only [isPair, Bool.and_eq_true] at hpair ⊢
    rw [Value.hasKeys, Value.isDict_set, Value.keySet_set hmem, hkeys]
    exact ⟨⟨⟨rfl, hpair.1.1.2⟩, hpair.1.2⟩, hpair.2⟩
  · rcases Value.mem_dictSet he' with rfl | ⟨he', -⟩
    · obtain ⟨component, record, hcomponent, hrecord, hcap⟩ := hcaptured _ hkey
      exact ⟨component, record, hcomponent, hrecord, hcap.withEndpoint hruntime⟩
    · exact hcaptured e' he'

/-- The unit of a component is the desired one, and the component declares a network. -/
def DesiredUnit (component : Value) : Prop :=
  ∃ content description path networks text, component.item "quadlet_content" = .ok (.str content) ∧
    component.item "description" = .ok description ∧ component.item "manifest_path" = .ok path ∧
    component.item "networks" = .ok networks ∧ networks ≠ .list [] ∧
    quadletText description path networks = .ok text ∧ unitLines content = unitLines text

/-- What is looked up for a list of bindings has one network for each. -/
theorem length_expectedFrom {names : Value} {expected found : List (PyStr × Value)}
    {texts : List PyStr} (h : expectedFrom names expected texts = .ok found) :
    found.length = expected.length + texts.length := by
  induction texts generalizing expected with
  | nil =>
    cases h
    rfl
  | cons entry texts ih =>
    simp only [expectedFrom, bind_eq_ok] at h
    obtain ⟨name, -, h⟩ := h
    cases name with
    | str name =>
      simp only [bind_eq_ok, check_eq_ok] at h
      obtain ⟨_, -, address, -, h⟩ := h
      rw [ih h, List.length_append, List.length_singleton, List.length_cons]
      omega
    | _ => cases h

theorem networkTexts_ne_nil {networks : Value} {texts : List PyStr}
    (h : networkTexts networks = .ok texts) (hne : networks ≠ .list []) : texts ≠ [] := by
  rintro rfl
  cases networks with
  | list items =>
    simp only [networkTexts, bind_eq_ok] at h
    obtain ⟨texts, htexts, _, -, _, -, h⟩ := h
    cases h
    have hlength := (mapM_eq_ok htexts).length_eq
    exact hne (congrArg Value.list (List.eq_nil_of_length_eq_zero hlength))
  | _ => cases h

/-- A desired unit in place binds the desired networks, and there are some. -/
theorem DesiredUnit.bound {component : Value} {bound : List (PyStr × Value)}
    (h : DesiredUnit component) (hbound : boundNetworks component = .ok bound) :
    expectedRuntimeNetworks component "networks" = .ok bound ∧ bound ≠ [] := by
  obtain ⟨content, description, path, networks, text, hcontent, hdescription, hpath, hnetworks, hne,
    htext, hlines⟩ := h
  simp only [boundNetworks, hcontent, hdescription, hpath, hnetworks, Value.text, ok_bind, htext,
    bind_eq_ok, if_pos hlines] at hbound
  obtain ⟨_, -, _, -, hbound⟩ := hbound
  refine ⟨hbound, ?_⟩
  simp only [expectedRuntimeNetworks, hnetworks, ok_bind, bind_eq_ok] at hbound
  obtain ⟨_, -, texts, htexts, hbound⟩ := hbound
  cases texts with
  | nil => exact absurd rfl (networkTexts_ne_nil htexts hne)
  | cons entry texts =>
    simp only [bind_eq_ok] at hbound
    obtain ⟨names, -, hbound⟩ := hbound
    rintro rfl
    have hlength := length_expectedFrom hbound
    simp at hlength

/-- A captured component with the desired unit validates against the desired networks. -/
theorem Captured.validDesired {component record component' : Value}
    (h : Captured component record component') (hunit : DesiredUnit component) :
    validateComponent true component' record = .ok () := by
  obtain ⟨actual, bound, original, hnetworks, hsame, -, -⟩ := h
  obtain ⟨hidentity, hactual, -, -, hbound, hmatch⟩ := captureNetworks_eq_ok hnetworks
  obtain ⟨hexpected, hne⟩ := hunit.bound hbound
  simp only [validateComponent, runtimeIdentityValid_same hsame, hidentity, hactual, ok_bind, if_true,
    expectedRuntimeNetworks_same hsame, hexpected, hmatch hne, check_eq_ok]

/-- The records have the networks, the declared addresses and the database fields of the captured
ones. -/
structure SamePair (components records records' : Value) : Prop where
  networks : ∀ name ∈ (["keycloak", "postgres"] : List PyStr), ∃ component record record' bound,
    (name, component) ∈ components.entries ∧ records.item name = .ok record ∧
    records'.item name = .ok record' ∧ boundNetworks component = .ok bound ∧
    SameNetworks bound record record'
  endpoint : ∃ record record' found, records.item "keycloak" = .ok record ∧
    records'.item "keycloak" = .ok record' ∧ databaseEnvironment record = .ok found ∧
    databaseEnvironment record' = .ok found

/-- **A captured runtime validates for rollback**, whatever endpoint is asked for, and only records
with the same networks, declared addresses and database fields do.  If the captured units are the
desired ones, each with a network, and the record has the endpoint that is asked for, then the same
records validate against the desired networks too. -/
theorem captured_validates (h : captureOriginalRuntime components records = .ok captured) :
    (∀ host portText, runtimeValid captured records host portText false = .ok true) ∧
      (∀ records' host portText, runtimeValid captured records' host portText false = .ok true →
        SamePair components records records') ∧
      (∀ record host portText, (∀ e ∈ components.entries, DesiredUnit e.2) →
        records.item "keycloak" = .ok record → databaseEnvironment record = .ok ⟨host, portText⟩ →
        runtimeValid captured records (.str host) portText true = .ok true) := by
  have hpair := capturedPair h
  obtain ⟨record₀, keycloak, runtime, found, hrecord₀, hfound, hkeycloak, hruntime, hendpoint⟩ :=
    hpair.endpoint
  refine ⟨fun host portText => ?_, fun records' host portText hvalid => ?_,
    fun record host portText hunits hrecord henv => ?_⟩
  · have hall : captured.entries.forM (fun e => do
        validateComponent false e.2 (← records.item e.1)) = .ok () := by
      refine forM_eq_ok.mpr fun e he => ?_
      obtain ⟨component, record, -, hrecord, hcap⟩ := hpair.entries e he
      rw [hrecord, ok_bind, hcap.valid]
    simp only [runtimeValid, rejecting_eq_ok, hall, hrecord₀, hfound, hkeycloak, hruntime, hendpoint,
      ok_bind, Bool.false_eq_true, if_false, bind_eq_ok, check_eq_ok]
    exact ⟨(), hpair.isPair, (), pyEq_toValue.mpr rfl, trivial⟩
  · simp only [runtimeValid, rejecting_eq_ok, hkeycloak, hruntime, hendpoint, ok_bind,
      Bool.false_eq_true, if_false, bind_eq_ok, check_eq_ok, forM_eq_ok] at hvalid
    obtain ⟨_, hispair, _, hall, record', hrecord', found', hfound', _, hsame, -⟩ := hvalid
    obtain rfl := pyEq_toValue.mp hsame
    refine ⟨fun name hname => ?_, record₀, record', found', hrecord₀, hrecord', hfound, hfound'⟩
    have hmem : name ∈ captured.keySet := by
      simp only [isPair, Value.hasKeys, Bool.and_eq_true, decide_eq_true_eq] at hispair
      exact hispair.1.1.2.2 hname
    obtain ⟨e, he, rfl⟩ := List.mem_map.mp hmem
    obtain ⟨component, record, hcomponent, hrecord, hcap⟩ := hpair.entries e he
    obtain ⟨record', hrecord', hvalid⟩ := hall e he
    obtain ⟨bound, hbound, hnetworks⟩ := hcap.sameNetworks hvalid
    exact ⟨component, record, record', bound, hcomponent, hrecord, hrecord', hbound, hnetworks⟩
  · cases hrecord₀.symm.trans hrecord
    cases hfound.symm.trans henv
    have hall : captured.entries.forM (fun e => do
        validateComponent true e.2 (← records.item e.1)) = .ok () := by
      refine forM_eq_ok.mpr fun e he => ?_
      obtain ⟨component, record, hcomponent, hrecord, hcap⟩ := hpair.entries e he
      rw [hrecord, ok_bind, hcap.validDesired (hunits _ hcomponent)]
    simp only [runtimeValid, rejecting_eq_ok, hall, hrecord₀, henv, ok_bind, if_true, bind_eq_ok,
      check_eq_ok]
    exact ⟨(), hpair.isPair, (), pyEq_toValue.mpr rfl, trivial⟩

end

/-! ## 5. Samples -/

/-- The record of a component on some networks. -/
def sampleRecord (name : PyStr) (networks : List (PyStr × PyStr)) (environment : List PyStr) : Value :=
  .dict [("ImageName", .str (sampleImage name)),
    ("Mounts", .list [.dict [("Destination", .str "/data"), ("Source", .str "/srv/data"),
      ("Type", .str "bind"), ("RW", .bool true)]]),
    ("NetworkSettings", .dict [("Networks", .dict (networks.map fun e =>
      (e.1, .dict [("IPAddress", .str e.2)])))]),
    ("Config", .dict [("Env", .list (environment.map .str))])]

def sampleRecords (networks : List (PyStr × PyStr)) : Value := .dict [
  ("keycloak", sampleRecord "kc" networks ["KC_DB_URL_HOST=x", "KC_DB_URL_PORT=1"]),
  ("postgres", sampleRecord "pg" networks [])]

/-- Two components whose units are in place. -/
def samplePlaced (networks : List PyStr) : Value := .dict [
  ("keycloak", sampleComponent "kc" networks ["old.network"] networks (sampleEnvironment "x" "1")),
  ("postgres", sampleComponent "pg" networks ["old.network"] networks [])]

theorem captured_validates_sample : ∃ captured,
    captureOriginalRuntime (samplePlaced ["db.network"]) (sampleRecords [("db", "10.0.0.2")]) =
      .ok captured ∧
    runtimeValid captured (sampleRecords [("db", "10.0.0.2")]) (.str "other") "7" false =
      .ok true ∧
    runtimeValid captured (sampleRecords [("db", "10.0.0.2")]) (.str "x") "1" true =
      .ok true := by
  have hok : (captureOriginalRuntime (samplePlaced ["db.network"])
      (sampleRecords [("db", "10.0.0.2")])).isOk = true := by decide +kernel
  cases h : captureOriginalRuntime (samplePlaced ["db.network"])
      (sampleRecords [("db", "10.0.0.2")]) with
  | ok captured =>
    obtain ⟨hrollback, -, hdesired⟩ := captured_validates h
    refine ⟨captured, rfl, hrollback _ _, hdesired _ "x" "1" ?_ rfl rfl⟩
    intro e he
    refine ⟨sampleUnit ["db.network"], .str "Unit", .str "/etc/x.yml", .list [.str "db.network"],
      sampleUnit ["db.network"], ?_⟩
    rcases List.mem_cons.mp he with rfl | he
    · exact ⟨rfl, rfl, rfl, rfl, by simp, rfl, rfl⟩
    · rw [List.mem_singleton.mp he]
      exact ⟨rfl, rfl, rfl, rfl, by simp, rfl, rfl⟩
  | error e =>
    rw [h] at hok
    cases hok

/-- Without any network the units run on the implicit one, which the desired mode refuses. -/
theorem captured_refused : ∃ captured content text,
    captureOriginalRuntime (samplePlaced []) (sampleRecords [(implicitNetwork, "10.88.0.2")]) =
      .ok captured ∧
    (∀ e ∈ (samplePlaced []).entries, e.2.item "quadlet_content" = .ok (.str content)) ∧
    quadletText (.str "Unit") (.str "/etc/x.yml") (.list []) = .ok text ∧
    unitLines content = unitLines text ∧
    runtimeValid captured (sampleRecords [(implicitNetwork, "10.88.0.2")]) (.str "x") "1" true ≠
      .ok true := by
  have hok : (captureOriginalRuntime (samplePlaced [])
      (sampleRecords [(implicitNetwork, "10.88.0.2")])).toOption.any (fun captured =>
        !(runtimeValid captured (sampleRecords [(implicitNetwork, "10.88.0.2")]) (.str "x") "1"
          true).isOk) = true := by decide +kernel
  cases h : captureOriginalRuntime (samplePlaced [])
      (sampleRecords [(implicitNetwork, "10.88.0.2")]) with
  | ok captured =>
    refine ⟨captured, sampleUnit [], sampleUnit [], rfl, ?_, rfl, rfl, fun hvalid => ?_⟩
    · intro e he
      rcases List.mem_cons.mp he with rfl | he
      · rfl
      · rw [List.mem_singleton.mp he]
        rfl
    · rw [h] at hok
      simp [hvalid, Except.toOption, Except.isOk, Except.toBool] at hok
  | error e =>
    rw [h] at hok
    cases hok

end Supplementary.Keycloak
