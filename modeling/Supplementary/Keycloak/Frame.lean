/-
# What a transition leaves alone

`prepareTransition_frame`: of an accepted pair the PostgreSQL manifest is returned as it is, and the
Keycloak manifest differs from it in three places only, the host aliases of the spec and the values of
the two database fields.  An address needs no host alias.  A managed name needs exactly one, for the
address of the one network that PostgreSQL has a static address on and Keycloak is on too.

The two units list the desired networks, in order.
-/
import Supplementary.Keycloak.Mixed

namespace Supplementary.Keycloak

open Supplementary

/-! ## 1. The networks in a unit -/

/-- The lines of a unit that bind a network, as its reader splits them. -/
def networkLines (content : PyStr) : List PyStr :=
  (content.segments "\n").filter (·.startsWith "Network=")

theorem mem_join {c : Nat} {separator : PyStr} {parts : List PyStr}
    (h : c ∈ (PyStr.join separator parts).codePoints) :
    c ∈ separator.codePoints ∨ ∃ part ∈ parts, c ∈ part.codePoints := by
  induction parts with
  | nil => cases h
  | cons s parts ih => cases parts with
    | nil => exact Or.inr ⟨s, List.mem_cons_self, h⟩
    | cons t parts =>
      rw [PyStr.join_cons_cons, PyStr.codePoints_append, PyStr.codePoints_append, List.mem_append,
        List.mem_append] at h
      rcases h with (hs | hsep) | hrest
      · exact Or.inr ⟨s, List.mem_cons_self, hs⟩
      · exact Or.inl hsep
      · refine (ih hrest).imp_right ?_
        rintro ⟨part, hpart, hc⟩
        exact ⟨part, List.mem_cons_of_mem _ hpart, hc⟩

/-- A binding fits on a line. -/
theorem newline_not_mem_binding {s : PyStr} (h : isBinding s = true) : 10 ∉ s.codePoints := by
  unfold isBinding at h
  split at h
  · next unit heq =>
    cases PyStr.eq_of_breakOn_none heq
    exact not_mem_of_isUnitName h (by decide)
  · next unit address heq =>
    simp only [Bool.and_eq_true] at h
    have hunit := not_mem_of_isUnitName (c := 10) h.1 (by decide)
    have haddress : 10 ∉ address.codePoints := by
      intro hmem
      have hdotted := h.2
      simp only [isDotted, Bool.and_eq_true, List.all_eq_true] at hdotted
      rw [← @PyStr.join_segments "." address (by decide)] at hmem
      rcases mem_join hmem with hdot | ⟨part, hpart, hc⟩
      · exact absurd hdot (by decide)
      · exact absurd ((hdotted.2 part hpart).2 10 hc) (by decide)
    rw [PyStr.eq_of_breakOn_some (by decide) heq, PyStr.codePoints_append, PyStr.codePoints_append,
      List.mem_append, List.mem_append]
    rintro ((hmem | hmem) | hmem)
    · exact hunit hmem
    · exact absurd hmem (by decide)
    · exact haddress hmem

theorem newline_not_mem_line {s : PyStr} (h : isLine (.str s) = true) : 10 ∉ s.codePoints := by
  simp only [isLine, Bool.and_eq_true, List.all_eq_true, decide_eq_true_eq] at h
  exact fun hmem => (h.2 10 hmem).1 rfl

/-- **A unit binds its networks, in order, and nothing else.** -/
theorem networkLines_quadletText {description path networks : Value} {content : PyStr}
    (h : quadletText description path networks = .ok content) : ∃ texts,
      Bindings networks texts ∧ networkLines content = texts.map (("Network=" : PyStr) ++ ·) := by
  simp only [quadletText, bind_eq_ok, raiseUnless_eq_ok] at h
  obtain ⟨_, ⟨hdescription, hpath⟩, _, -, texts, htexts, d, hd, p, hp, ⟨⟩⟩ := h
  have hbindings := bindings_of_networkTexts htexts
  refine ⟨texts, hbindings, ?_⟩
  cases description with
  | str description => cases path with
    | str path =>
      cases hd
      cases hp
      have hd := newline_not_mem_line hdescription
      have hp := newline_not_mem_line hpath
      have hsplit := @PyStr.segments_join 10
        ((["[Unit]", ("Description=" : PyStr) ++ d,
          "After=network-online.target", "Wants=network-online.target", "[Kube]",
          ("Yaml=" : PyStr) ++ p] : List PyStr) ++ texts.map (("Network=" : PyStr) ++ ·) ++
          (["[Install]", "WantedBy=multi-user.target", ""] : List PyStr)) (by simp) ?_
      · have hnetworks : (texts.map (("Network=" : PyStr) ++ ·)).filter (·.startsWith "Network=") =
            texts.map (("Network=" : PyStr) ++ ·) := by
          refine List.filter_eq_self.mpr fun line hline => ?_
          obtain ⟨s, -, rfl⟩ := List.mem_map.mp hline
          exact List.isPrefixOf_iff_prefix.mpr ⟨s.codePoints, rfl⟩
        rw [networkLines]
        refine (congrArg (List.filter (·.startsWith "Network=")) hsplit).trans ?_
        rw [List.filter_append, List.filter_append, hnetworks]
        change [] ++ texts.map (("Network=" : PyStr) ++ ·) ++ [] = _
        rw [List.nil_append, List.append_nil]
      · intro s hs
        rw [List.mem_append, List.mem_append] at hs
        rcases hs with (hs | hs) | hs
        · simp only [List.mem_cons, List.not_mem_nil, or_false] at hs
          rcases hs with rfl | rfl | rfl | rfl | rfl | rfl
          · decide
          · rw [PyStr.codePoints_append, List.mem_append, not_or]
            exact ⟨by decide, hd⟩
          · decide
          · decide
          · decide
          · rw [PyStr.codePoints_append, List.mem_append, not_or]
            exact ⟨by decide, hp⟩
        · obtain ⟨s, hmem, rfl⟩ := List.mem_map.mp hs
          rw [PyStr.codePoints_append, List.mem_append, not_or]
          exact ⟨by decide, newline_not_mem_binding (hbindings.forms s hmem)⟩
        · simp only [List.mem_cons, List.not_mem_nil, or_false] at hs
          rcases hs with rfl | rfl | rfl
          · decide
          · decide
          · decide
    | _ => cases hpath
  | _ => cases hdescription

/-! ## 2. The network of the database -/

/-- The network that PostgreSQL has a static private address on and Keycloak is on too, if it is the
only one. -/
structure SharedNetwork (tables : Tables) (keycloak postgres : List PyStr)
    (network address : PyStr) : Prop where
  declared : network ++ ":ip=" ++ address ∈ postgres
  peer : ∃ s ∈ keycloak, (s.breakOn ":ip=").1 = network
  isPrivate : ∃ octets, ipv4 address = .ok octets ∧ tables.isPrivate octets = true
  only : ∀ s ∈ postgres, ∀ n a, s.breakOn ":ip=" = (n, some a) →
    (∃ s ∈ keycloak, (s.breakOn ":ip=").1 = n) → n = network ∧ a = address

section

variable {tables : Tables} {components : Value} {host network address : PyStr}

/-- A binding is accepted on these lists of networks. -/
theorem databaseBinding_eq_ok
    (h : databaseBinding tables components (.str host) = .ok (network, address)) :
    ∃ k kn p pn keycloak postgres managed, components.item "keycloak" = .ok k ∧
      k.item "networks" = .ok kn ∧ Bindings kn keycloak ∧ components.item "postgres" = .ok p ∧
      p.item "networks" = .ok pn ∧ Bindings pn postgres ∧ isManagedName p host = .ok managed ∧
      candidates (keycloak.map (·.breakOn ":ip=")) (postgres.map (·.breakOn ":ip=")) host managed =
        .ok [network] ∧
      (lookup (keycloak.map (·.breakOn ":ip=")) network).isSome = true ∧
      lookup (postgres.map (·.breakOn ":ip=")) network = some (some address) ∧
      ∃ octets, ipv4 address = .ok octets ∧ tables.isPrivate octets = true := by
  simp only [databaseBinding, bind_eq_ok, bindingsOf] at h
  obtain ⟨k, hk, kn, hkn, _, ⟨_, -, keycloak, hkeycloak, ⟨⟩⟩, p, hp, pn, hpn, _,
    ⟨_, -, postgres, hpostgres, ⟨⟩⟩, p', hp', managed, hmanaged, found, hfound, h⟩ := h
  cases hp.symm.trans hp'
  split at h
  · split at h
    · next hpeer haddress =>
      simp only [bind_eq_ok, check_eq_ok] at h
      obtain ⟨octets, hoctets, _, hprivate, ⟨⟩⟩ := h
      exact ⟨k, kn, p, pn, keycloak, postgres, managed, hk, hkn, bindings_of_networkTexts hkeycloak,
        hp, hpn, bindings_of_networkTexts hpostgres, hmanaged, hfound, by rw [hpeer]; rfl, haddress,
        octets, hoctets, hprivate.2⟩
    · cases h
  · cases h

theorem lookup_isSome_bindings {texts : List PyStr} {n : PyStr} :
    (lookup (texts.map (·.breakOn ":ip=")) n).isSome = true ↔
      ∃ s ∈ texts, (s.breakOn ":ip=").1 = n := by
  rw [lookup_isSome, List.map_map, List.mem_map]
  rfl

/-- Of a managed name, the network is the only one that the two components share. -/
theorem sharedNetwork_of_candidates {keycloak postgres : List PyStr} {pn : Value}
    (hpostgres : Bindings pn postgres)
    (hfound : candidates (keycloak.map (·.breakOn ":ip=")) (postgres.map (·.breakOn ":ip=")) host
      true = .ok [network])
    (haddress : lookup (postgres.map (·.breakOn ":ip=")) network = some (some address))
    (hprivate : ∃ octets, ipv4 address = .ok octets ∧ tables.isPrivate octets = true)
    (hpeer : (lookup (keycloak.map (·.breakOn ":ip=")) network).isSome = true) :
    SharedNetwork tables keycloak postgres network address := by
  have hkeys : ((postgres.map (·.breakOn ":ip=")).map Prod.fst).Nodup := by
    rw [List.map_map]
    exact hpostgres.distinct
  obtain ⟨s, hs, hbreak⟩ := List.mem_map.mp (mem_of_lookup haddress)
  refine ⟨?_, lookup_isSome_bindings.mp hpeer, hprivate, ?_⟩
  · rw [← PyStr.eq_of_breakOn_some (by decide) hbreak]
    exact hs
  · intro s hs n a hbreak hshared
    simp only [candidates, if_true, bind_eq_ok, check_eq_ok, Except.ok.injEq] at hfound
    obtain ⟨_, -, hlist⟩ := hfound
    have hmem : (n, some a) ∈ postgres.map (·.breakOn ":ip=") := List.mem_map.mpr ⟨s, hs, hbreak⟩
    have hn : n ∈ [network] := by
      rw [← hlist]
      refine List.mem_map.mpr ⟨(n, some a), List.mem_filter.mpr ⟨hmem, ?_⟩, rfl⟩
      rw [lookup_isSome_bindings.mpr hshared]
      rfl
    cases List.mem_singleton.mp hn
    have hlookup := lookup_of_mem hkeys hmem
    rw [haddress] at hlookup
    cases hlookup
    exact ⟨rfl, rfl⟩

/-- A DNS name is no address: it has no point. -/
theorem ipv4_of_isDnsName (h : isDnsName host = true) : (ipv4 host).isOk = false := by
  simp only [isDnsName, Bool.and_eq_true, List.all_eq_true] at h
  have hpoint : 46 ∉ host.codePoints := fun hmem => absurd (h.1.1.2 46 hmem) (by decide)
  have hsegments : host.segments "." = [host] := PyStr.segments_of_not_mem hpoint
  rw [ipv4, hsegments]
  cases hoctet : octet host with
  | none => simp [hoctet, Except.isOk, Except.toBool]
  | some n => simp [hoctet, Except.isOk, Except.toBool]

/-- The host aliases that an endpoint needs: none for an address, and one for a managed name. -/
def NeedsAliases (tables : Tables) (keycloak postgres : List PyStr) (names : List Value)
    (host : PyStr) (aliases : Option Value) : Prop :=
  (ipv4 host).isOk = true ∧ aliases = none ∨
    (ipv4 host).isOk = false ∧ Value.str host ∈ names ∧
      ∃ network address, SharedNetwork tables keycloak postgres network address ∧
        aliases = some (.list [.dict [("ip", .str address), ("hostnames", .list [.str host])]])

theorem needsAliases_of_binding {k kn p pn : Value} {keycloak postgres : List PyStr}
    {aliases : List Value} {podName : Value}
    (h : databaseBinding tables components (.str host) = .ok (network, address))
    (haliases : hostAliases components host address = .ok aliases)
    (hk : components.item "keycloak" = .ok k) (hkn : k.item "networks" = .ok kn)
    (hkeycloak : Bindings kn keycloak) (hp : components.item "postgres" = .ok p)
    (hpn : p.item "networks" = .ok pn) (hpostgres : Bindings pn postgres)
    (hpod : p.item "pod_name" = .ok podName) :
    NeedsAliases tables keycloak postgres [podName, p.get "container_name"] host
      (if aliases = [] then none else some (.list aliases)) := by
  obtain ⟨k', kn', p', pn', keycloak', postgres', managed, hk', hkn', hkeycloak', hp', hpn',
    hpostgres', hmanaged, hfound, hpeer, haddress, hprivate⟩ := databaseBinding_eq_ok h
  cases hk.symm.trans hk'
  cases hkn.symm.trans hkn'
  cases hp.symm.trans hp'
  cases hpn.symm.trans hpn'
  have heq (n : Value) (xs ys : List PyStr) (hxs : Bindings n xs) (hys : Bindings n ys) : xs = ys := by
    have hmap := hxs.items.symm.trans hys.items
    rw [Value.list.injEq] at hmap
    exact List.map_injective_iff.mpr (fun _ _ hst => Value.str.inj hst) hmap
  cases heq _ _ _ hkeycloak hkeycloak'
  cases heq _ _ _ hpostgres hpostgres'
  rw [hostAliases, hp, ok_bind, hmanaged, ok_bind] at haliases
  cases managed with
  | true =>
    cases haliases
    rw [if_neg (List.cons_ne_nil _ _)]
    have hdns : isDnsName host = true := by
      simp only [candidates, if_true, bind_eq_ok, check_eq_ok] at hfound
      obtain ⟨_, hdns, -⟩ := hfound
      exact hdns
    refine Or.inr ⟨ipv4_of_isDnsName hdns, ?_, network, address, ?_, rfl⟩
    · simp only [isManagedName, hpod, ok_bind, bind_eq_ok] at hmanaged
      obtain ⟨containerName, hcontainer, hnames⟩ := hmanaged
      rw [Value.attr_eq, if_pos (Value.isDict_of_item hpod)] at hcontainer
      cases hcontainer
      rw [Except.ok.injEq, Bool.or_eq_true, Value.isText_iff, Value.isText_iff] at hnames
      rcases hnames with hname | hname
      · rw [← hname]
        exact List.mem_cons_self
      · refine List.mem_cons_of_mem _ (List.mem_singleton.mpr ?_)
        rw [← hname]
        rfl
    · exact sharedNetwork_of_candidates hpostgres hfound haddress hprivate hpeer
  | false =>
    cases haliases
    rw [if_pos rfl]
    simp only [candidates, Bool.false_eq_true, if_false, bind_eq_ok] at hfound
    obtain ⟨octets, hoctets, -⟩ := hfound
    exact Or.inl ⟨by rw [hoctets]; rfl, rfl⟩

end

/-! ## 3. The manifest -/

/-- Two dicts with the same entries, except at some keys. -/
def SameBut (keys : List PyStr) (value value' : Value) : Prop :=
  value.isDict = true ∧ value'.isDict = true ∧ ∀ key, key ∉ keys → value'.find? key = value.find? key

/-- A manifest and what is made of it: in the spec the host aliases and the environment of the only
container are new, and in this environment the values of the one entry for the host and the one entry
for the port. -/
structure Rewritten (manifest manifest' : Value) (aliases : Option Value) (host port : PyStr) :
    Prop where
  others : SameBut ["spec"] manifest manifest'
  endpoint : ∃ spec spec' container container' environment, manifest.item "spec" = .ok spec ∧
    manifest'.item "spec" = .ok spec' ∧ SameBut ["hostAliases", "containers"] spec spec' ∧
    spec'.find? "hostAliases" = aliases ∧
    spec.item "containers" = .ok (.list [container]) ∧
    spec'.item "containers" = .ok (.list [container']) ∧ SameBut ["env"] container container' ∧
    container.item "env" = .ok (.list environment) ∧
    container'.item "env" = .ok (.list (environment.map fun entry =>
      assign "KC_DB_URL_PORT" port (assign "KC_DB_URL_HOST" host entry))) ∧
    ∀ key ∈ (["KC_DB_URL_HOST", "KC_DB_URL_PORT"] : List PyStr), ∃ entry,
      environment.filter (isNamed key) = [entry] ∧ entry.hasKeys ["name", "value"] = true

section

variable {tables : Tables} {value new : Value} {key : PyStr}

theorem sameBut_set (h : value.isDict = true) : SameBut [key] value (value.set key new) := by
  refine ⟨h, by rw [Value.isDict_set, h], fun key' hkey => Value.find?_set_ne ?_⟩
  rintro rfl
  exact hkey List.mem_cons_self

/-- The only container of a checked manifest. -/
theorem container_of_checkManifest {component manifest aliases spec containers container : Value}
    (h : checkManifest tables component manifest = .ok aliases)
    (hspec : manifest.item "spec" = .ok spec) (hcontainers : spec.item "containers" = .ok containers)
    (hfirst : containers.first = .ok container) : containers = .list [container] := by
  simp only [checkManifest, bind_eq_ok, check_eq_ok] at h
  obtain ⟨_, -, _, -, _, -, _, -, _, -, _, -, spec', hspec', _, -, _, -, _, -, _, -, _, -, _, -,
    containers', hcontainers', size, hsize, _, hone, container', hfirst', _, hname, -⟩ := h
  cases hspec.symm.trans hspec'
  cases hcontainers.symm.trans hcontainers'
  cases hfirst.symm.trans hfirst'
  have hdict := Value.isDict_of_item hname
  cases containers with
  | list items => cases items with
    | nil => cases hfirst
    | cons item items =>
      cases hfirst
      cases hsize
      rw [List.length_cons, Nat.add_eq_right] at hone
      rw [List.eq_nil_of_length_eq_zero hone]
  | str s =>
    obtain ⟨points⟩ := s
    cases points with
    | nil => cases hfirst
    | cons c points =>
      cases hfirst
      cases hdict
  | _ => cases hfirst

/-- An environment whose entries are all dicts is a list. -/
theorem environment_of_iter {environment : Value} {entries : List Value} {entry : Value}
    (h : environment.iter = .ok entries) (hdict : ∀ e ∈ entries, e.isDict = true)
    (hmem : entry ∈ entries) : environment = .list entries := by
  cases environment with
  | list items =>
    cases h
    rfl
  | dict fields =>
    cases h
    obtain ⟨e, -, rfl⟩ := List.mem_map.mp hmem
    cases hdict _ hmem
  | str s =>
    cases h
    obtain ⟨c, -, rfl⟩ := List.mem_map.mp hmem
    cases hdict _ hmem
  | _ => cases h

theorem rewritten_of_withEndpoint {component manifest manifest' old : Value} {aliases : List Value}
    {host : PyStr} {port : Int} (hcheck : checkManifest tables component manifest = .ok old)
    (h : withEndpoint manifest aliases host port = .ok manifest') :
    Rewritten manifest manifest' (if aliases = [] then none else some (.list aliases)) host
      (.ofInt port) := by
  obtain ⟨spec, containers, container, env, env₀, env₁, env₂, hspec, hcontainers, hfirst, henv, hiter,
    hhost, hport, rfl⟩ := withEndpoint_eq_ok h
  obtain rfl := container_of_checkManifest hcheck hspec hcontainers hfirst
  obtain ⟨hdict, ⟨entry, hentry, hkeys⟩, rfl⟩ := setEntry_eq_ok.mp hhost
  obtain ⟨-, ⟨entry', hentry', hkeys'⟩, rfl⟩ := setEntry_eq_ok.mp hport
  have hmem : entry ∈ env₀.filter (isNamed "KC_DB_URL_HOST") := hentry ▸ List.mem_singleton_self _
  obtain rfl := environment_of_iter hiter hdict (List.mem_of_mem_filter hmem)
  have hmanifest := Value.isDict_of_item hspec
  have hspecDict := Value.isDict_of_item hcontainers
  have hcontainer := Value.isDict_of_item henv
  have hnewSpec : (withAliases spec aliases).isDict = true := by rw [isDict_withAliases, hspecDict]
  refine ⟨sameBut_set hmanifest, spec, _, container, _, env₀, hspec, Value.item_set_self hmanifest,
    ⟨hspecDict, by rw [Value.isDict_set, hnewSpec], fun key hkey => ?_⟩, ?_, hcontainers,
    Value.item_set_self hnewSpec, sameBut_set hcontainer, henv, ?_, ?_⟩
  · refine find?_rewritten ?_ ?_
    · rintro rfl
      exact hkey List.mem_cons_self
    · rintro rfl
      exact hkey (List.mem_cons_of_mem _ List.mem_cons_self)
  · rw [Value.find?_set_ne (by decide), withAliases]
    split
    · exact Value.find?_erase_self
    · cases spec with
      | dict entries => exact Value.find?_set_self
      | _ => cases hspecDict
  · rw [Value.item_set_self hcontainer, List.map_map]
    rfl
  · intro key hkey
    simp only [List.mem_cons, List.not_mem_nil, or_false] at hkey
    rcases hkey with rfl | rfl
    · exact ⟨entry, hentry, hkeys⟩
    · have hcomp : isNamed "KC_DB_URL_PORT" ∘ assign "KC_DB_URL_HOST" host =
          isNamed "KC_DB_URL_PORT" := by
        funext e
        exact isNamed_assign
      rw [List.filter_map, hcomp] at hentry'
      obtain ⟨e, he, hassign⟩ := List.map_eq_singleton_iff.mp hentry'
      have hnamed : isNamed "KC_DB_URL_PORT" e = true := by
        have hmem : e ∈ env₀.filter (isNamed "KC_DB_URL_PORT") := he ▸ List.mem_singleton_self _
        exact (List.mem_filter.mp hmem).2
      rw [assign_of_other (by decide) hnamed] at hassign
      exact ⟨e, he, hassign ▸ hkeys'⟩

end

/-! ## 4. The frame -/

/-- What an accepted transition makes of a pair, for an endpoint. -/
def Frame (tables : Tables) (components : Value) (host : PyStr) (port : Int) (t : Transition) :
    Prop :=
  ∃ k p manifest keycloak postgres podName aliases,
    components.item "keycloak" = .ok k ∧ components.item "postgres" = .ok p ∧
    k.item "manifest" = .ok manifest ∧
    k.item "networks" = .ok (.list (keycloak.map .str)) ∧
    p.item "networks" = .ok (.list (postgres.map .str)) ∧ p.item "pod_name" = .ok podName ∧
    p.item "manifest" = .ok t.postgres.manifest ∧
    Rewritten manifest t.keycloak.manifest aliases host (.ofInt port) ∧
    NeedsAliases tables keycloak postgres [podName, p.get "container_name"] host aliases ∧
    networkLines t.keycloak.quadletContent = keycloak.map (("Network=" : PyStr) ++ ·) ∧
    networkLines t.postgres.quadletContent = postgres.map (("Network=" : PyStr) ++ ·)

/-- **The frame of a transition.**  Whatever is accepted, nothing but the host aliases and the two
database fields of the Keycloak manifest is changed, and the units list the desired networks. -/
theorem prepareTransition_frame (tables : Tables) (components host port : Value) (t : Transition)
    (h : prepareTransition tables components host port = .ok t) :
    ∃ hostText number, host = .str hostText ∧ port = .int number ∧
      Frame tables components hostText number t := by
  simp only [prepareTransition, rejecting_eq_ok] at h
  split at h
  · next host port =>
    simp only [bind_eq_ok, check_eq_ok] at h
    obtain ⟨_, -, _, -, h⟩ := h
    refine ⟨host, port, rfl, rfl, ?_⟩
    obtain ⟨network, address, aliases, k, p, keycloak, postgres, hbinding, haliases, hk, hkeycloak, hp,
      hpostgres, -, -, hmanifest, -, hcontent, hpart⟩ := prepareFor_eq_ok h
    obtain ⟨_, -, hread, hcheck, -, d, path, kn, -, -, hkn, hnew⟩ := prepareComponent_eq_ok hkeycloak
    obtain ⟨_, -, hread', -, -, d', path', pn, -, -, hpn, hnew'⟩ := prepareComponent_eq_ok hpostgres
    obtain ⟨ks, hks, hlines⟩ := networkLines_quadletText hnew
    obtain ⟨ps, hps, hlines'⟩ := networkLines_quadletText hnew'
    obtain ⟨_, _, p', _, _, _, _, -, -, -, hp', -, -, hmanaged, -⟩ := databaseBinding_eq_ok hbinding
    cases hp.symm.trans hp'
    simp only [isManagedName, bind_eq_ok] at hmanaged
    obtain ⟨podName, hpod, -⟩ := hmanaged
    refine ⟨k, p, keycloak.manifest, ks, ps, podName, _, hk, hp, hread, ?_, ?_, hpod, ?_,
      rewritten_of_withEndpoint hcheck hmanifest,
      needsAliases_of_binding hbinding haliases hk hkn hks hp hpn hps hpod, ?_, ?_⟩
    · rw [hkn, hks.items]
    · rw [hpn, hps.items]
    · rw [hread', hpart]
    · rw [hcontent, hlines]
    · rw [hpart, hlines']
  · cases h
  · cases h

theorem prepareTransition_frame_sample : ∃ t, Frame sampleTables sampleComponents "pg" 5432 t := by
  have hok : (prepareTransition sampleTables sampleComponents (.str "pg") (.int 5432)).isOk =
      true := by decide +kernel
  obtain ⟨t, ht⟩ := exists_of_isOk hok
  obtain ⟨_, _, ⟨⟩, ⟨⟩, hframe⟩ :=
    prepareTransition_frame sampleTables sampleComponents (.str "pg") (.int 5432) t ht
  exact ⟨t, hframe⟩

end Supplementary.Keycloak
