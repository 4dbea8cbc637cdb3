/-
# A prepared transition prepares itself

Feeding a result of `prepareTransition` back changes nothing: both units are now the desired ones,
the database fields hold the endpoint, and the host alias is the one that the environment names.
The reads of the second run are the reads of the first, because each of them is of an entry that
the first run did not set.
-/
import Supplementary.Keycloak.Migration

namespace Supplementary.Keycloak

open Supplementary

/-! ## 1. Collecting loops -/

theorem select_eq_ok {items found : List Value} {condition : Value → Py Bool} {p : Value → Bool}
    (hp : ∀ item b, condition item = .ok b → b = p item) (h : select items condition = .ok found) :
    found = items.filter p ∧ ∀ item ∈ items, condition item = .ok (p item) := by
  induction items generalizing found with
  | nil =>
    cases h
    exact ⟨rfl, fun _ hmem => nomatch hmem⟩
  | cons item items ih =>
    simp only [select, bind_eq_ok] at h
    obtain ⟨b, hb, rest, hrest, h⟩ := h
    cases h
    obtain rfl := hp item b hb
    obtain ⟨rfl, hall⟩ := ih hrest
    exact ⟨(List.filter_cons ..).symm, List.forall_mem_cons.mpr ⟨hb, hall⟩⟩

theorem select_of {items : List Value} {condition : Value → Py Bool} {p : Value → Bool}
    (h : ∀ item ∈ items, condition item = .ok (p item)) :
    select items condition = .ok (items.filter p) := by
  induction items with
  | nil => rfl
  | cons item items ih =>
    obtain ⟨hitem, hitems⟩ := List.forall_mem_cons.mp h
    rw [select, hitem, ih hitems, ok_bind, ok_bind, List.filter_cons]

/-! ## 2. The environment -/

/-- `entry["name"] == key`, for an entry that is a dict. -/
def isNamed (key : PyStr) (entry : Value) : Bool := (entry.get "name").isText key

theorem named_eq_ok {key : PyStr} {entry : Value} {b : Bool} :
    named key entry = .ok b ↔ entry.isDict = true ∧ b = isNamed key entry := by
  cases entry <;> simp [named, Value.attr, isNamed, Value.isDict, eq_comm]

/-- What `setEntry` does to each entry. -/
def assign (key value : PyStr) (entry : Value) : Value :=
  if isNamed key entry then entry.set "value" (.str value) else entry

theorem setEntry_eq_ok {key value : PyStr} {env env' : List Value} :
    setEntry key value env = .ok env' ↔ (∀ e ∈ env, e.isDict = true) ∧
      (∃ entry, env.filter (isNamed key) = [entry] ∧ entry.hasKeys ["name", "value"] = true) ∧
      env' = env.map (assign key value) := by
  constructor
  · intro h
    simp only [setEntry, bind_eq_ok] at h
    obtain ⟨found, hfound, h⟩ := h
    obtain ⟨rfl, hall⟩ := select_eq_ok (fun item b hb => (named_eq_ok.mp hb).2) hfound
    split at h
    · next entry hentry =>
      simp only [bind_eq_ok, check_eq_ok] at h
      obtain ⟨_, hkeys, h⟩ := h
      cases h
      exact ⟨fun e he => (named_eq_ok.mp (hall e he)).1, ⟨entry, hentry, hkeys⟩, rfl⟩
    · cases h
  · rintro ⟨hdict, ⟨entry, hentry, hkeys⟩, rfl⟩
    have hall : ∀ e ∈ env, named key e = .ok (isNamed key e) := fun e he =>
      named_eq_ok.mpr ⟨hdict e he, rfl⟩
    simp only [setEntry, select_of hall, hentry, ok_bind, bind_eq_ok, check_eq_ok]
    exact ⟨(), hkeys, rfl⟩

section

variable {key key' value value' : PyStr} {entry : Value} {env env' env₂ : List Value}

theorem isNamed_assign : isNamed key (assign key' value entry) = isNamed key entry := by
  have hget : (entry.set "value" (.str value)).get "name" = entry.get "name" := by
    rw [Value.get, Value.get, Value.find?_set_ne (by decide)]
  unfold assign
  split
  · rw [isNamed, isNamed, hget]
  · rfl

theorem isDict_assign : (assign key value entry).isDict = entry.isDict := by
  unfold assign
  split
  · exact Value.isDict_set
  · rfl

theorem isNamed_unique (h : isNamed key entry = true) (h' : isNamed key' entry = true) :
    key = key' := by
  have hkey := Value.isText_iff.mp h
  rw [Value.isText_iff.mp h'] at hkey
  exact (Value.str.inj hkey).symm

theorem assign_of_other (hne : key ≠ key') (h : isNamed key entry = true) :
    assign key' value entry = entry :=
  if_neg fun h' => hne (isNamed_unique h h')

theorem assign_of_not (h : ¬ isNamed key entry = true) : assign key value entry = entry := if_neg h

/-- An entry with just the two fields keeps them. -/
theorem hasKeys_set (h : entry.hasKeys ["name", "value"] = true) :
    (entry.set "value" (.str value)).hasKeys ["name", "value"] = true := by
  simp only [Value.hasKeys, Bool.and_eq_true, decide_eq_true_eq] at h ⊢
  rw [Value.keySet_set (h.2 (by decide))]
  exact h

theorem filter_assign (hne : key ≠ key') (h : env.filter (isNamed key) = [entry]) :
    (env.map (assign key' value)).filter (isNamed key) = [entry] := by
  have hcomp : isNamed key ∘ assign key' value = isNamed key := by
    funext e
    exact isNamed_assign
  have hentry : isNamed key entry = true := by
    have hmem : entry ∈ env.filter (isNamed key) := h ▸ List.mem_singleton_self entry
    exact (List.mem_filter.mp hmem).2
  rw [List.filter_map, hcomp, h, List.map_singleton, assign_of_other hne hentry]

/-- Setting an entry again to the same value. -/
theorem setEntry_again (h : setEntry key value env = .ok env') :
    setEntry key value env' = .ok env' := by
  obtain ⟨hdict, ⟨entry, hentry, hkeys⟩, rfl⟩ := setEntry_eq_ok.mp h
  have hcomp : isNamed key ∘ assign key value = isNamed key := by
    funext e
    exact isNamed_assign
  have hnamed : isNamed key entry = true := by
    have hmem : entry ∈ env.filter (isNamed key) := hentry ▸ List.mem_singleton_self entry
    exact (List.mem_filter.mp hmem).2
  refine setEntry_eq_ok.mpr ⟨?_, ⟨assign key value entry, ?_, ?_⟩, ?_⟩
  · intro e he
    obtain ⟨f, hf, rfl⟩ := List.mem_map.mp he
    rw [isDict_assign, hdict f hf]
  · rw [List.filter_map, hcomp, hentry, List.map_singleton]
  · rw [assign, if_pos hnamed]
    exact hasKeys_set hkeys
  · rw [List.map_map]
    refine List.map_congr_left fun e _ => ?_
    by_cases he : isNamed key e = true
    · have hset : isNamed key (e.set "value" (.str value)) = true := by
        have hkept : isNamed key (assign key value e) = isNamed key e := isNamed_assign
        rwa [assign, if_pos he, he] at hkept
      simp only [Function.comp, assign, he, if_true, hset, Value.set_set]
    · simp only [Function.comp, assign, he, Bool.false_eq_true, if_false]

/-- Setting another entry in between makes no difference. -/
theorem setEntry_after (hne : key ≠ key') (h : setEntry key value env = .ok env)
    (h' : setEntry key' value' env = .ok env₂) : setEntry key value env₂ = .ok env₂ := by
  obtain ⟨hdict, ⟨entry, hentry, hkeys⟩, hself⟩ := setEntry_eq_ok.mp h
  obtain ⟨-, -, rfl⟩ := setEntry_eq_ok.mp h'
  refine setEntry_eq_ok.mpr ⟨?_, ⟨entry, filter_assign hne hentry, hkeys⟩, ?_⟩
  · intro e he
    obtain ⟨f, hf, rfl⟩ := List.mem_map.mp he
    rw [isDict_assign, hdict f hf]
  · rw [List.map_map]
    refine List.map_congr_left fun e he => ?_
    have hfix : assign key value e = e := by
      have hmap : env.map (assign key value) = env.map id := by rw [List.map_id, ← hself]
      exact List.map_inj_left.mp hmap e he
    by_cases hnamed : isNamed key e = true
    · rw [Function.comp, assign_of_other hne hnamed, hfix]
    · have hnot : ¬ isNamed key (assign key' value' e) = true := by rwa [isNamed_assign]
      rw [Function.comp, assign_of_not hnot]

end

/-! ## 3. The second run reads what the first one read -/

section

variable {tables : Tables} {component component' components components' : Value}

/-- The two components differ at most in the unit and in the manifest. -/
def Keeps (component component' : Value) : Prop :=
  ∀ key : PyStr, key ≠ "quadlet_content" → key ≠ "manifest" →
    component'.item key = component.item key ∧ component'.attr key = component.attr key

/-- A component with the unit and the manifest of a result. -/
def Part.feed (part : Part) (component : Value) : Value :=
  (component.set "quadlet_content" (.str part.quadletContent)).set "manifest" part.manifest

theorem keeps_feed (part : Part) (component : Value) : Keeps component (part.feed component) := by
  intro key hcontent hmanifest
  rw [Part.feed, Value.item_set_ne hmanifest.symm, Value.item_set_ne hcontent.symm,
    Value.attr_set_ne hmanifest.symm, Value.attr_set_ne hcontent.symm]
  exact ⟨rfl, rfl⟩

theorem Keeps.item (h : Keeps component component') (key : PyStr)
    (hkey : key ∉ (["quadlet_content", "manifest"] : List PyStr)) :
    component'.item key = component.item key := by
  simp only [List.mem_cons, List.not_mem_nil, or_false, not_or] at hkey
  exact (h key hkey.1 hkey.2).1

theorem Keeps.attr (h : Keeps component component') {key : PyStr}
    (hkey : key ∉ (["quadlet_content", "manifest"] : List PyStr)) :
    component'.attr key = component.attr key := by
  simp only [List.mem_cons, List.not_mem_nil, or_false, not_or] at hkey
  exact (h key hkey.1 hkey.2).2

theorem isManagedName_keeps (h : Keeps component component') (host : PyStr) :
    isManagedName component' host = isManagedName component host := by
  rw [isManagedName, isManagedName, h.item _ (by decide), h.attr (by decide)]

/-- Both components of two transitions, kept. -/
structure KeepsBoth (components components' : Value) : Prop where
  keycloak : ∃ c c', components.item "keycloak" = .ok c ∧ components'.item "keycloak" = .ok c' ∧
    Keeps c c'
  postgres : ∃ c c', components.item "postgres" = .ok c ∧ components'.item "postgres" = .ok c' ∧
    Keeps c c'

theorem databaseBinding_keeps (h : KeepsBoth components components') (host : Value) :
    databaseBinding tables components' host = databaseBinding tables components host := by
  obtain ⟨⟨k, k', hk, hk', hkeycloak⟩, p, p', hp, hp', hpostgres⟩ := h
  cases host with
  | str host =>
    simp only [databaseBinding, hk, hk', hp, hp', ok_bind, hkeycloak.item "networks" (by decide),
      hpostgres.item "networks" (by decide), isManagedName_keeps hpostgres]
  | _ => rfl

theorem hostAliases_keeps (h : KeepsBoth components components') (host address : PyStr) :
    hostAliases components' host address = hostAliases components host address := by
  obtain ⟨-, p, p', hp, hp', hpostgres⟩ := h
  simp only [hostAliases, hp, hp', ok_bind, isManagedName_keeps hpostgres]

theorem checkManifest_keeps (h : Keeps component component') (manifest : Value) :
    checkManifest tables component' manifest = checkManifest tables component manifest := by
  simp only [checkManifest, checkContainer, h.item "pod_name" (by decide),
    h.item "container_name" (by decide), h.item "image" (by decide),
    h.item "container_data_dir" (by decide), h.item "host_data_dir" (by decide)]

/-- A component that was prepared is prepared again, with its unit in place. -/
theorem prepareComponent_again {prepared : Prepared} {part : Part} {aliases : Value}
    (h : prepareComponent tables component = .ok prepared)
    (hcontent : part.quadletContent = prepared.content)
    (hmanifest : checkManifest tables component part.manifest = .ok aliases) :
    prepareComponent tables (part.feed component) =
      .ok { content := prepared.content, desired := true, manifest := part.manifest, aliases } := by
  have hkeep := keeps_feed part component
  simp only [prepareComponent, bind_eq_ok, check_eq_ok] at h
  obtain ⟨host, hhost, _, hhost', data, hdata, _, hdata', description, hdescription, path, hpath,
    previous, hprevious, old, hold, _, hdescription', _, hpath', networks, hnetworks, new, hnew, _, -,
    _, -, _, -, _, -, _, -, h⟩ := h
  cases h
  cases hdescription.symm.trans hdescription'
  cases hpath.symm.trans hpath'
  have hdict : component.isDict = true := Value.isDict_of_item hhost
  have hfed : (part.feed component).item "quadlet_content" = .ok (.str new) := by
    rw [Part.feed, Value.item_set_ne (by decide), Value.item_set_self hdict, hcontent]
  have hfed' : (part.feed component).item "manifest" = .ok part.manifest := by
    rw [Part.feed, Value.item_set_self (by rw [Value.isDict_set, hdict])]
  simp only [prepareComponent, hkeep.item "host_data_dir" (by decide), hhost, ok_bind,
    hkeep.item "container_data_dir" (by decide), hdata,
    hkeep.item "description" (by decide), hdescription,
    hkeep.item "manifest_path" (by decide), hpath,
    hkeep.item "previous_networks" (by decide), hprevious, hold,
    hkeep.item "networks" (by decide), hnetworks, hnew, hfed, hfed', Value.text,
    checkManifest_keeps hkeep, hmanifest, bind_eq_ok, check_eq_ok]
  exact ⟨(), hhost', (), hdata', (), Or.inr trivial, by simp⟩

/-! ## 4. The second run on the rewritten manifest -/

variable {manifest manifest' spec : Value} {aliases : List Value} {host : PyStr} {port : Int}

/-- A rewritten manifest: the spec, its only container and its environment are set. -/
theorem withEndpoint_eq_ok (h : withEndpoint manifest aliases host port = .ok manifest') :
    ∃ spec containers container env env₀ env₁ env₂, manifest.item "spec" = .ok spec ∧
      spec.item "containers" = .ok containers ∧ containers.first = .ok container ∧
      container.item "env" = .ok env ∧ env.iter = .ok env₀ ∧
      setEntry "KC_DB_URL_HOST" host env₀ = .ok env₁ ∧
      setEntry "KC_DB_URL_PORT" (.ofInt port) env₁ = .ok env₂ ∧
      manifest' = manifest.set "spec" ((withAliases spec aliases).set "containers"
        (.list [container.set "env" (.list env₂)])) := by
  simp only [withEndpoint, bind_eq_ok] at h
  obtain ⟨spec, hspec, containers, hcontainers, container, hfirst, env, henv, env₀, hiter, env₁,
    hhost, env₂, hport, h⟩ := h
  cases h
  refine ⟨spec, containers, container, env, env₀, env₁, env₂, hspec, ?_, hfirst, henv, hiter, hhost,
    hport, rfl⟩
  rw [← hcontainers, withAliases]
  split
  · rw [Value.item_eq, Value.item_eq, Value.isDict_erase, Value.find?_erase_ne (by decide)]
  · rw [Value.item_set_ne (by decide)]

theorem isDict_withAliases : (withAliases spec aliases).isDict = spec.isDict := by
  unfold withAliases
  split
  · exact Value.isDict_erase
  · exact Value.isDict_set

/-- Only the host aliases are set. -/
theorem find?_withAliases {key : PyStr} (h : "hostAliases" ≠ key) :
    (withAliases spec aliases).find? key = spec.find? key := by
  unfold withAliases
  split
  · exact Value.find?_erase_ne h
  · exact Value.find?_set_ne h

theorem attrD_withAliases (hspec : spec.isDict = true) :
    (withAliases spec aliases).attrD "hostAliases" (.list []) = .ok (.list aliases) := by
  rw [Value.attrD_eq, isDict_withAliases, if_pos hspec, withAliases]
  split
  · next hnil => rw [Value.find?_erase_self, hnil]; rfl
  · cases spec with
    | dict entries => rw [Value.find?_set_self]; rfl
    | _ => cases hspec

theorem withAliases_again {containers : Value} :
    withAliases ((withAliases spec aliases).set "containers" containers) aliases =
      (withAliases spec aliases).set "containers" containers := by
  unfold withAliases
  split
  · exact Value.erase_set_erase (by decide)
  · exact Value.set_set_set (by decide)

/-- The spec of a rewritten manifest, read at another entry. -/
theorem find?_rewritten {containers : Value} {key : PyStr} (h : "hostAliases" ≠ key)
    (h' : "containers" ≠ key) :
    ((withAliases spec aliases).set "containers" containers).find? key = spec.find? key := by
  rw [Value.find?_set_ne h', find?_withAliases h]

theorem checkNetworking_rewritten {old containers : Value} (hspec : spec.isDict = true)
    (h : checkNetworking spec = .ok old) :
    checkNetworking ((withAliases spec aliases).set "containers" containers) =
      .ok (.list aliases) := by
  have hattr : ((withAliases spec aliases).set "containers" containers).attrD "hostNetwork"
      (.bool false) = spec.attrD "hostNetwork" (.bool false) := by
    rw [Value.attrD_eq, Value.attrD_eq, Value.isDict_set, isDict_withAliases,
      find?_rewritten (by decide) (by decide)]
  simp only [checkNetworking, bind_eq_ok] at h
  obtain ⟨old', -, hostNetwork, hnetwork, h⟩ := h
  have hfalse : hostNetwork.isFalse = true := by
    split at h
    · simp only [bind_eq_ok, check_eq_ok] at h
      obtain ⟨_, hfalse, -⟩ := h
      exact hfalse
    · cases h
  simp only [checkNetworking,
    Value.attrD_set_ne (show ("containers" : PyStr) ≠ "hostAliases" by decide),
    attrD_withAliases hspec, hattr, hnetwork, ok_bind, bind_eq_ok, check_eq_ok]
  exact ⟨(), hfalse, trivial⟩

theorem checkContainer_rewritten {containers container env : Value} :
    checkContainer tables component ((withAliases spec aliases).set "containers" containers)
      (container.set "env" env) = checkContainer tables component spec container := by
  have hvolumes : ((withAliases spec aliases).set "containers" containers).item "volumes" =
      spec.item "volumes" := by
    rw [Value.item_eq, Value.item_eq, Value.isDict_set, isDict_withAliases,
      find?_rewritten (by decide) (by decide)]
  simp only [checkContainer, hvolumes, Value.item_set_ne (show ("env" : PyStr) ≠ "image" by decide),
    Value.item_set_ne (show ("env" : PyStr) ≠ "volumeMounts" by decide),
    Value.item_set_ne (show ("env" : PyStr) ≠ "ports" by decide),
    Value.attr_set_ne (show ("env" : PyStr) ≠ "ports" by decide)]

/-- A checked manifest passes the checks again after it was rewritten. -/
theorem checkManifest_again {old : Value} (h : checkManifest tables component manifest = .ok old)
    (h' : withEndpoint manifest aliases host port = .ok manifest') :
    checkManifest tables component manifest' = .ok (.list aliases) := by
  obtain ⟨spec, containers, container, env, env₀, env₁, env₂, hspec, hcontainers, hfirst, -, -, -, -,
    rfl⟩ := withEndpoint_eq_ok h'
  simp only [checkManifest, bind_eq_ok, check_eq_ok] at h
  obtain ⟨kind, hkind, _, hpod, metadata, hmetadata, name, hname, podName, hpodName, _, hsame,
    spec', hspec', old', hnetworking, metadata', hmetadata', annotations, hannotations, keys, hkeys,
    owns, howns, _, hnot, containers', hcontainers', size, hsize, _, hone, container', hfirst', cname,
    hcname, wanted, hwanted, _, hcontainer, _, hchecked, -⟩ := h
  cases hspec.symm.trans hspec'
  cases hcontainers.symm.trans hcontainers'
  cases hfirst.symm.trans hfirst'
  cases hmetadata.symm.trans hmetadata'
  have hdict : spec.isDict = true := Value.isDict_of_item hcontainers
  have hmanifest : manifest.isDict = true := Value.isDict_of_item hspec
  have hspec'' : ((withAliases spec aliases).set "containers"
      (.list [container.set "env" (.list env₂)])).item "containers" =
        .ok (.list [container.set "env" (.list env₂)]) :=
    Value.item_set_self (by rw [isDict_withAliases, hdict])
  simp only [checkManifest, Value.attr_set_ne (show ("spec" : PyStr) ≠ "kind" by decide),
    Value.attrD_set_ne (show ("spec" : PyStr) ≠ "metadata" by decide), hkind, hmetadata, hname,
    hpodName, Value.item_set_self hmanifest, checkNetworking_rewritten hdict hnetworking,
    hannotations, hkeys, howns, hspec'', Value.size, Value.first,
    Value.item_set_ne (show ("env" : PyStr) ≠ "name" by decide), hcname, hwanted,
    checkContainer_rewritten, hchecked, ok_bind, bind_eq_ok, check_eq_ok]
  exact ⟨(), hpod, (), hsame, (), hnot, (), rfl, (), hcontainer, trivial⟩

/-- Rewriting again changes nothing. -/
theorem withEndpoint_again (h : withEndpoint manifest aliases host port = .ok manifest') :
    withEndpoint manifest' aliases host port = .ok manifest' := by
  obtain ⟨spec, containers, container, env, env₀, env₁, env₂, hspec, hcontainers, hfirst, henv, hiter,
    hhost, hport, rfl⟩ := withEndpoint_eq_ok h
  have hhost' : setEntry "KC_DB_URL_HOST" host env₂ = .ok env₂ :=
    setEntry_after (by decide) (setEntry_again hhost) hport
  have hcontainer : container.isDict = true := Value.isDict_of_item henv
  simp only [withEndpoint, Value.item_set_self (Value.isDict_of_item hspec), ok_bind,
    withAliases_again, Value.item_set_self (show (withAliases spec aliases).isDict = true by
      rw [isDict_withAliases, Value.isDict_of_item hcontainers]), Value.first,
    Value.item_set_self hcontainer, Value.iter, hhost', setEntry_again hport, Value.set_set]

/-- The rewritten manifest names the endpoint. -/
theorem currentHost_again (h : withEndpoint manifest aliases host port = .ok manifest') :
    currentHost manifest' = .ok (.str host) := by
  obtain ⟨spec, containers, container, env, env₀, env₁, env₂, hspec, hcontainers, hfirst, henv, hiter,
    hhost, hport, rfl⟩ := withEndpoint_eq_ok h
  obtain ⟨hdict, ⟨entry, hentry, hkeys⟩, hself⟩ :=
    setEntry_eq_ok.mp (setEntry_after (by decide) (setEntry_again hhost) hport)
  have henvironment : environmentOf (manifest.set "spec" ((withAliases spec aliases).set "containers"
      (.list [container.set "env" (.list env₂)]))) = .ok env₂ := by
    simp only [environmentOf, Value.item_set_self (Value.isDict_of_item hspec), ok_bind,
      Value.item_set_self (show (withAliases spec aliases).isDict = true by
        rw [isDict_withAliases, Value.isDict_of_item hcontainers]), Value.first,
      Value.item_set_self (Value.isDict_of_item henv), Value.iter]
  have hmem : entry ∈ env₂.filter (isNamed "KC_DB_URL_HOST") := hentry ▸ List.mem_singleton_self entry
  obtain ⟨hmem, hnamed⟩ := List.mem_filter.mp hmem
  have hfix : assign "KC_DB_URL_HOST" host entry = entry := by
    have hmap : env₂.map (assign "KC_DB_URL_HOST" host) = env₂.map id := by rw [List.map_id, ← hself]
    exact List.map_inj_left.mp hmap entry hmem
  have hvalue : entry.item "value" = .ok (.str host) := by
    rw [← hfix, assign, if_pos hnamed, Value.item_set_self (hdict entry hmem)]
  have hselect : select env₂ (fun entry => do
      .ok ((← named "KC_DB_URL_HOST" entry) && entry.hasKeys ["name", "value"])) = .ok [entry] := by
    rw [select_of (p := fun e => isNamed "KC_DB_URL_HOST" e && e.hasKeys ["name", "value"])]
    · rw [← List.filter_filter, List.filter_comm, hentry]
      simp [hkeys]
    · intro e he
      rw [named_eq_ok.mpr ⟨hdict e he, rfl⟩, ok_bind]
  simp only [currentHost, henvironment, ok_bind, hselect, hvalue]

end

/-! ## 5. The transition -/

/-- The components with the units and manifests of a result. -/
def Transition.feedBack (t : Transition) (components : Value) : Value :=
  (components.set "keycloak" (t.keycloak.feed (components.get "keycloak"))).set "postgres"
    (t.postgres.feed (components.get "postgres"))

section

variable {tables : Tables} {components k p : Value} {t : Transition}

theorem item_feedBack (hk : components.item "keycloak" = .ok k)
    (hp : components.item "postgres" = .ok p) :
    (t.feedBack components).item "keycloak" = .ok (t.keycloak.feed k) ∧
      (t.feedBack components).item "postgres" = .ok (t.postgres.feed p) := by
  have hdict : components.isDict = true := Value.isDict_of_item hk
  have hgetk : components.get "keycloak" = k := by rw [Value.get, Value.find?_of_item hk]; rfl
  have hgetp : components.get "postgres" = p := by rw [Value.get, Value.find?_of_item hp]; rfl
  rw [Transition.feedBack, hgetk, hgetp]
  constructor
  · rw [Value.item_set_ne (by decide), Value.item_set_self hdict]
  · rw [Value.item_set_self (by rw [Value.isDict_set, hdict])]

theorem keepsBoth_feedBack (hk : components.item "keycloak" = .ok k)
    (hp : components.item "postgres" = .ok p) : KeepsBoth components (t.feedBack components) := by
  obtain ⟨hk', hp'⟩ := item_feedBack (t := t) hk hp
  exact ⟨⟨k, _, hk, hk', keeps_feed _ _⟩, p, _, hp, hp', keeps_feed _ _⟩

/-- What an accepted transition has found out. -/
theorem prepareFor_eq_ok {host : PyStr} {port : Int}
    (h : prepareFor tables components host port = .ok t) :
    ∃ network address aliases k p keycloak postgres,
      databaseBinding tables components (.str host) = .ok (network, address) ∧
      hostAliases components host address = .ok aliases ∧
      components.item "keycloak" = .ok k ∧ prepareComponent tables k = .ok keycloak ∧
      components.item "postgres" = .ok p ∧ prepareComponent tables p = .ok postgres ∧
      keycloak.desired = postgres.desired ∧ postgres.aliases.truthy = false ∧
      withEndpoint keycloak.manifest aliases host port = .ok t.keycloak.manifest ∧
      t.changed = (!keycloak.desired || !t.keycloak.manifest.same keycloak.manifest) ∧
      t.keycloak.quadletContent = keycloak.content ∧
      t.postgres = ⟨postgres.content, postgres.manifest⟩ := by
  simp only [prepareFor, bind_eq_ok, check_eq_ok] at h
  obtain ⟨⟨network, address⟩, hbinding, aliases, haliases, k, hk, keycloak, hkeycloak, p, hp, postgres,
    hpostgres, _, hdesired, _, hnone, _, -, manifest, hmanifest, h⟩ := h
  cases h
  exact ⟨network, address, aliases, k, p, keycloak, postgres, hbinding, haliases, hk, hkeycloak, hp,
    hpostgres, hdesired, hnone, hmanifest, rfl, rfl, rfl⟩

/-- What a prepared component was read from. -/
theorem prepareComponent_eq_ok {component : Value} {prepared : Prepared}
    (h : prepareComponent tables component = .ok prepared) : ∃ content,
      component.item "quadlet_content" = .ok (.str content) ∧
      component.item "manifest" = .ok prepared.manifest ∧
      checkManifest tables component prepared.manifest = .ok prepared.aliases ∧
      prepared.desired = decide (unitLines content = unitLines prepared.content) ∧
      ∃ description path networks, component.item "description" = .ok description ∧
        component.item "manifest_path" = .ok path ∧ component.item "networks" = .ok networks ∧
        quadletText description path networks = .ok prepared.content := by
  simp only [prepareComponent, bind_eq_ok, check_eq_ok] at h
  obtain ⟨_, -, _, -, _, -, _, -, _, -, _, -, _, -, _, -, description, hdescription, path, hpath,
    networks, hnetworks, new, hnew, actual, hactual, content, hcontent, _, -, manifest, hmanifest,
    aliases, haliases, h⟩ := h
  cases h
  cases actual with
  | str content' =>
    cases hcontent
    exact ⟨content, hactual, hmanifest, haliases, rfl, description, path, networks, hdescription,
      hpath, hnetworks, hnew⟩
  | _ => cases hcontent

/-- A transition's result, fed back with the same endpoint, is the result again. -/
theorem prepareFor_again {host : PyStr} {port : Int}
    (h : prepareFor tables components host port = .ok t) :
    prepareFor tables (t.feedBack components) host port = .ok { t with changed := false } := by
  obtain ⟨network, address, aliases, k, p, keycloak, postgres, hbinding, haliases, hk, hkeycloak, hp,
    hpostgres, -, hnone, hmanifest, -, hcontent, hpart⟩ := prepareFor_eq_ok h
  obtain ⟨hk', hp'⟩ := item_feedBack (t := t) hk hp
  have hkeep := keepsBoth_feedBack (t := t) hk hp
  obtain ⟨-, -, -, hcheck, -⟩ := prepareComponent_eq_ok hkeycloak
  obtain ⟨-, -, -, hcheck', -⟩ := prepareComponent_eq_ok hpostgres
  have hagain := prepareComponent_again hkeycloak hcontent (checkManifest_again hcheck hmanifest)
  have hagain' := prepareComponent_again hpostgres
    (show t.postgres.quadletContent = postgres.content by rw [hpart]) (by rw [hpart]; exact hcheck')
  have hbinding' : databaseBinding tables (t.feedBack components) (.str host) =
      .ok (network, address) := by rw [databaseBinding_keeps hkeep, hbinding]
  have haliases' : hostAliases (t.feedBack components) host address = .ok aliases := by
    rw [hostAliases_keeps hkeep, haliases]
  have hnames : checkAliases tables (t.feedBack components) t.keycloak.manifest (.list aliases) true =
      .ok () := by
    unfold checkAliases
    split
    · simp only [currentHost_again hmanifest, currentComponents, if_true, ok_bind, hbinding',
        Value.text, haliases', check_eq_ok]
      exact Value.same_self _
    · rfl
  simp only [prepareFor, hbinding', haliases', hk', hp', hagain, hagain', hnames,
    withEndpoint_again hmanifest, ok_bind, bind_eq_ok, check_eq_ok]
  refine ⟨(), trivial, (), hnone, ?_⟩
  rw [Value.same_self, hpart, ← hcontent]
  rfl

/-- Both units of the components are the desired ones, up to blank lines, and a result's manifests
are equal to the ones in place. -/
def InPlace (components : Value) (t : Transition) : Prop :=
  ∀ name part, (name, part) ∈ [(("keycloak" : PyStr), t.keycloak), ("postgres", t.postgres)] →
    ∃ component content manifest description path networks,
      components.item name = .ok component ∧
      component.item "quadlet_content" = .ok (.str content) ∧
      component.item "manifest" = .ok manifest ∧ part.manifest.same manifest = true ∧
      component.item "description" = .ok description ∧
      component.item "manifest_path" = .ok path ∧ component.item "networks" = .ok networks ∧
      quadletText description path networks = .ok part.quadletContent ∧
      unitLines content = unitLines part.quadletContent

/-- **A transition is idempotent.**  Its result, fed back with the same endpoint, is accepted again,
unchanged; and a transition reports no change only if there is none. -/
theorem prepareTransition_idempotent {host port : Value}
    (h : prepareTransition tables components host port = .ok t) :
    prepareTransition tables (t.feedBack components) host port = .ok { t with changed := false } ∧
      (t.changed = false → InPlace components t) := by
  simp only [prepareTransition, rejecting_eq_ok] at h
  cases host with
  | str host => cases port with
    | int port =>
      simp only [bind_eq_ok, check_eq_ok] at h
      obtain ⟨_, hport, _, ⟨hdict, hkeys⟩, h⟩ := h
      refine ⟨?_, fun hsame => ?_⟩
      · have hsub := hkeys
        simp only [Value.hasKeys, Bool.and_eq_true, decide_eq_true_eq] at hsub
        have hkeys' : (t.feedBack components).hasKeys ["keycloak", "postgres"] = true := by
          rw [Transition.feedBack, Value.hasKeys, Value.keySet_set, Value.keySet_set]
          · exact hkeys
          · exact hsub.2 (by decide)
          · rw [Value.keySet_set (hsub.2 (by decide))]
            exact hsub.2 (by decide)
        have hdict' : (t.feedBack components).isDict = true := by
          rw [Transition.feedBack, Value.isDict_set, Value.isDict_set, hdict]
        simp only [prepareTransition, rejecting_eq_ok, bind_eq_ok, check_eq_ok]
        exact ⟨(), hport, (), ⟨hdict', hkeys'⟩, prepareFor_again h⟩
      · obtain ⟨_, _, _, k, p, keycloak, postgres, -, -, hk, hkeycloak, hp, hpostgres, hboth, -, -,
          hchanged, hcontent, hpart⟩ := prepareFor_eq_ok h
        obtain ⟨content, hquadlet, hmanifest, -, hdesired, description, path, networks, hdescription,
          hpath, hnetworks, hnew⟩ := prepareComponent_eq_ok hkeycloak
        obtain ⟨content', hquadlet', hmanifest', -, hdesired', description', path', networks',
          hdescription', hpath', hnetworks', hnew'⟩ := prepareComponent_eq_ok hpostgres
        rw [hchanged, Bool.or_eq_false_iff, Bool.not_eq_false', Bool.not_eq_false'] at hsame
        rw [hsame.1] at hboth
        intro name part hmem
        simp only [List.mem_cons, List.not_mem_nil, or_false, Prod.mk.injEq] at hmem
        rcases hmem with ⟨rfl, rfl⟩ | ⟨rfl, rfl⟩
        · refine ⟨k, content, keycloak.manifest, description, path, networks, hk, hquadlet, hmanifest,
            hsame.2, hdescription, hpath, hnetworks, hcontent ▸ hnew, ?_⟩
          rw [hcontent]
          exact of_decide_eq_true (hdesired.symm.trans hsame.1)
        · refine ⟨p, content', postgres.manifest, description', path', networks', hp, hquadlet',
            hmanifest', ?_, hdescription', hpath', hnetworks', ?_, ?_⟩
          · rw [hpart, Value.same_self]
          · rw [hpart]
            exact hnew'
          · rw [hpart]
            exact of_decide_eq_true (hdesired'.symm.trans hboth.symm)
    | _ => cases h
  | _ => cases h

end

/-! ## 6. A sample -/

/-- Private and loopback addresses of the sample. -/
def sampleTables : Tables :=
  { isPrivate := fun octets => octets.head? = some 10,
    isLoopback := fun text => .ok (text = "127.0.0.1"), lower := id }

def sampleImage (name : PyStr) : PyStr := name ++ "@sha256:" ++ ⟨List.replicate 64 97⟩

/-- The manifest of a pod with one container. -/
def sampleManifest (name : PyStr) (environment : List Value) : Value := .dict [
  ("kind", .str "Pod"), ("metadata", .dict [("name", .str name)]),
  ("spec", .dict [
    ("containers", .list [.dict [("name", .str name), ("image", .str (sampleImage name)),
      ("volumeMounts", .list [.dict [("name", .str "d"), ("mountPath", .str "/data")]]),
      ("ports", .list [.dict [("hostIP", .str "127.0.0.1")]]), ("env", .list environment)]]),
    ("volumes", .list [.dict [("name", .str "d"),
      ("hostPath", .dict [("path", .str "/srv/data")])]])])]

/-- The unit of the sample, on some networks. -/
def sampleUnit (networks : List PyStr) : PyStr :=
  (quadletText (.str "Unit") (.str "/etc/x.yml") (.list (networks.map .str))).toOption.getD ""

/-- A component whose unit is on `running`. -/
def sampleComponent (name : PyStr) (running previous networks : List PyStr)
    (environment : List Value) : Value := .dict [
  ("host_data_dir", .str "/srv/data"), ("container_data_dir", .str "/data"),
  ("description", .str "Unit"), ("manifest_path", .str "/etc/x.yml"),
  ("previous_networks", .list (previous.map .str)), ("networks", .list (networks.map .str)),
  ("network_runtime_names", .dict [("db.network", .str "db"), ("old.network", .str "old")]),
  ("quadlet_content", .str (sampleUnit running)), ("pod_name", .str name),
  ("container_name", .str name), ("image", .str (sampleImage name)),
  ("manifest", sampleManifest name environment)]

def sampleEnvironment (host port : PyStr) : List Value := [
  .dict [("name", .str "KC_DB_URL_HOST"), ("value", .str host)],
  .dict [("name", .str "KC_DB_URL_PORT"), ("value", .str port)]]

/-- Both components, still on the old network. -/
def sampleComponents : Value := .dict [
  ("keycloak", sampleComponent "kc" ["old.network"] ["old.network"] ["db.network:ip=10.0.0.2"]
    (sampleEnvironment "x" "1")),
  ("postgres", sampleComponent "pg" ["old.network"] ["old.network"] ["db.network:ip=10.0.0.3"] [])]

/-- A transition to the managed name of the database, and the same transition again. -/
theorem prepareTransition_idempotent_sample :
    ∃ t, prepareTransition sampleTables sampleComponents (.str "pg") (.int 5432) = .ok t ∧
      prepareTransition sampleTables (t.feedBack sampleComponents) (.str "pg") (.int 5432) =
        .ok { t with changed := false } := by
  have hok : (prepareTransition sampleTables sampleComponents (.str "pg") (.int 5432)).isOk =
      true := by decide +kernel
  cases h : prepareTransition sampleTables sampleComponents (.str "pg") (.int 5432) with
  | ok t => exact ⟨t, rfl, (prepareTransition_idempotent h).1⟩
  | error e =>
    rw [h] at hok
    cases hok

end Supplementary.Keycloak
