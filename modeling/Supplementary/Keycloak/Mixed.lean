/-
# When a pair counts as mixed

`prepare_transition` compares each unit with two renderings, of the previous networks and of the
desired ones, and keeps of either comparison one bit: whether the unit is the desired one.  A pair
is rejected as mixed if the two bits differ.

`mixed_iff`: this is right for a pair that is really mixed, and for one whose units are both the
desired ones.  It is wrong for a pair on its previous networks in which exactly one component has
nothing to change: the two renderings of that component coincide, so it counts as moved already.
-/
import Supplementary.Keycloak.Boundary

namespace Supplementary.Keycloak

open Supplementary

/-! ## 1. Where a unit stands -/

/-- The unit of a component is, up to blank lines, the rendering of a list of its networks. -/
def RunsOn (component : Value) (field : PyStr) : Prop :=
  ∃ content description path networks text,
    component.item "quadlet_content" = .ok (.str content) ∧
    component.item "description" = .ok description ∧
    component.item "manifest_path" = .ok path ∧ component.item field = .ok networks ∧
    quadletText description path networks = .ok text ∧ unitLines content = unitLines text

/-- The two renderings of a component are the same, up to blank lines. -/
def Coincides (component : Value) : Prop :=
  ∃ description path previous networks old new,
    component.item "description" = .ok description ∧
    component.item "manifest_path" = .ok path ∧
    component.item "previous_networks" = .ok previous ∧ component.item "networks" = .ok networks ∧
    quadletText description path previous = .ok old ∧
    quadletText description path networks = .ok new ∧ unitLines old = unitLines new

/-- The component of a name has a property. -/
def At (components : Value) (name : PyStr) (p : Value → Prop) : Prop :=
  ∃ component, components.item name = .ok component ∧ p component

/-- Both units are the renderings of the same list of networks. -/
def BothOn (components : Value) (field : PyStr) : Prop :=
  At components "keycloak" (RunsOn · field) ∧ At components "postgres" (RunsOn · field)

/-- The unit is the rendering of one list and not of the other. -/
def OnlyOn (field other : PyStr) (component : Value) : Prop :=
  RunsOn component field ∧ ¬ RunsOn component other

/-- One unit is only the previous one and the other unit is only the desired one. -/
def IsMixed (components : Value) : Prop :=
  At components "keycloak" (OnlyOn "previous_networks" "networks") ∧
      At components "postgres" (OnlyOn "networks" "previous_networks") ∨
    At components "keycloak" (OnlyOn "networks" "previous_networks") ∧
      At components "postgres" (OnlyOn "previous_networks" "networks")

/-! ## 2. The other checks -/

/-- `prepare_transition` without the comparison of the two states; `all(states)` selects the
networks that the host aliases are checked against. -/
def otherChecks (tables : Tables) (components host port : Value) : Py Unit :=
  match host, port with
  | .str host, .int port => do
    check (1 ≤ port ∧ port ≤ 65535) "invalid database port"
    check (components.isDict = true ∧ components.hasKeys ["keycloak", "postgres"] = true)
      "exactly two components required"
    let (_, address) ← databaseBinding tables components (.str host)
    let aliases ← hostAliases components host address
    let keycloak ← prepareComponent tables (← components.item "keycloak")
    let postgres ← prepareComponent tables (← components.item "postgres")
    check (postgres.aliases.truthy = false) "nonportable manifest networking"
    checkAliases tables components keycloak.manifest keycloak.aliases
      (keycloak.desired && postgres.desired)
    let _ ← withEndpoint keycloak.manifest aliases host port
    .ok ()
  | .str _, _ => .error (.valueError "invalid database port")
  | _, _ => .error (.valueError "literal database address required")

section

variable {tables : Tables} {components component host port : Value} {prepared : Prepared}

/-- What the loop over the components finds out about a unit. -/
theorem runsOn_of_prepareComponent (h : prepareComponent tables component = .ok prepared) :
    (RunsOn component "previous_networks" ∨ RunsOn component "networks") ∧
      (prepared.desired = true ↔ RunsOn component "networks") := by
  simp only [prepareComponent, bind_eq_ok, check_eq_ok] at h
  obtain ⟨_, -, _, -, _, -, _, -, description, hdescription, path, hpath, previous, hprevious, old,
    hold, description', hdescription', path', hpath', networks, hnetworks, new, hnew, actual, hactual,
    content, hcontent, _, hknown, _, -, _, -, ⟨⟩⟩ := h
  cases hdescription.symm.trans hdescription'
  cases hpath.symm.trans hpath'
  cases actual with
  | str content' =>
    cases hcontent
    refine ⟨hknown.imp (fun h => ?_) fun h => ?_, ?_⟩
    · exact ⟨content, description, path, previous, old, hactual, hdescription, hpath, hprevious,
        hold, h⟩
    · exact ⟨content, description, path, networks, new, hactual, hdescription, hpath, hnetworks,
        hnew, h⟩
    · rw [decide_eq_true_eq]
      constructor
      · intro h
        exact ⟨content, description, path, networks, new, hactual, hdescription, hpath, hnetworks,
          hnew, h⟩
      · rintro ⟨content'', description'', path'', networks'', text, hactual'', hdescription'',
          hpath'', hnetworks'', htext, h⟩
        cases hactual.symm.trans hactual''
        cases hdescription.symm.trans hdescription''
        cases hpath.symm.trans hpath''
        cases hnetworks.symm.trans hnetworks''
        cases hnew.symm.trans htext
        exact h
  | _ => cases hcontent

/-- A unit on its previous networks is the desired one exactly if the renderings coincide. -/
theorem runsOn_networks_iff (hprevious : RunsOn component "previous_networks") :
    RunsOn component "networks" ↔ Coincides component := by
  obtain ⟨content, description, path, previous, old, hactual, hdescription, hpath, hprevious, hold,
    hlines⟩ := hprevious
  constructor
  · rintro ⟨content', description', path', networks, new, hactual', hdescription', hpath', hnetworks,
      hnew, hlines'⟩
    cases hactual.symm.trans hactual'
    cases hdescription.symm.trans hdescription'
    cases hpath.symm.trans hpath'
    exact ⟨description, path, previous, networks, old, new, hdescription, hpath, hprevious,
      hnetworks, hold, hnew, hlines.symm.trans hlines'⟩
  · rintro ⟨description', path', previous', networks, old', new, hdescription', hpath', hprevious',
      hnetworks, hold', hnew, hsame⟩
    cases hdescription.symm.trans hdescription'
    cases hpath.symm.trans hpath'
    cases hprevious.symm.trans hprevious'
    cases hold.symm.trans hold'
    exact ⟨content, description, path, networks, new, hactual, hdescription, hpath, hnetworks, hnew,
      hlines.trans hsame⟩

/-- Both components of a pair that passes the other checks. -/
theorem components_of_otherChecks (h : otherChecks tables components host port = .ok ()) :
    ∃ k p keycloak postgres, components.item "keycloak" = .ok k ∧ components.item "postgres" = .ok p ∧
      prepareComponent tables k = .ok keycloak ∧ prepareComponent tables p = .ok postgres ∧
      ((∃ t, prepareTransition tables components host port = .ok t) ↔
        keycloak.desired = postgres.desired) := by
  unfold otherChecks at h
  split at h
  · next host port =>
    simp only [bind_eq_ok, check_eq_ok] at h
    obtain ⟨_, hport, _, hkeys, ⟨network, address⟩, hbinding, aliases, haliases, k, hk, keycloak,
      hkeycloak, p, hp, postgres, hpostgres, _, hnone, ⟨⟩, hcheck, manifest, hmanifest, -⟩ := h
    refine ⟨k, p, keycloak, postgres, hk, hp, hkeycloak, hpostgres, ?_⟩
    simp only [prepareTransition, rejecting_eq_ok, prepareFor, hbinding, haliases, hk, hp, hkeycloak,
      hpostgres, hmanifest, ok_bind, bind_eq_ok, check_eq_ok]
    constructor
    · rintro ⟨_, _, -, _, -, _, hsame, -⟩
      exact hsame
    · intro hsame
      rw [← hsame, Bool.and_self] at hcheck
      exact ⟨_, (), hport, (), hkeys, (), hsame, (), hnone, (), hcheck, rfl⟩
  · cases h
  · cases h

/-- What is accepted passes the other checks. -/
theorem otherChecks_of_accepted {t : Transition}
    (h : prepareTransition tables components host port = .ok t) :
    otherChecks tables components host port = .ok () := by
  simp only [prepareTransition, rejecting_eq_ok] at h
  split at h
  · simp only [prepareFor, bind_eq_ok, check_eq_ok] at h
    obtain ⟨_, hport, _, hkeys, ⟨network, address⟩, hbinding, aliases, haliases, k, hk, keycloak,
      hkeycloak, p, hp, postgres, hpostgres, _, hsame, _, hnone, ⟨⟩, hcheck, manifest, hmanifest, -⟩ := h
    simp only [otherChecks, hbinding, haliases, hk, hp, hkeycloak, hpostgres, hmanifest, ok_bind,
      bind_eq_ok, check_eq_ok]
    rw [← hsame, Bool.and_self]
    exact ⟨(), hport, (), hkeys, (), hnone, (), hcheck, trivial⟩
  · cases h
  · cases h

/-! ## 3. The decision -/

theorem at_iff {name : PyStr} {p : Value → Prop} (h : components.item name = .ok component) :
    At components name p ↔ p component := by
  constructor
  · rintro ⟨component', h', hp⟩
    cases h.symm.trans h'
    exact hp
  · exact fun hp => ⟨component, h, hp⟩

/-- Of two units on their previous networks, each counts as moved if its renderings coincide. -/
theorem at_networks_iff {name : PyStr}
    (h : At components name (RunsOn · "previous_networks")) :
    At components name (RunsOn · "networks") ↔ At components name Coincides := by
  obtain ⟨component, hitem, hprevious⟩ := h
  rw [at_iff hitem, at_iff hitem]
  exact runsOn_networks_iff hprevious

/-- A pair that passes the other checks is accepted exactly if both units or neither are the desired
ones. -/
theorem accepted_iff (h : otherChecks tables components host port = .ok ()) :
    (∃ t, prepareTransition tables components host port = .ok t) ↔
      (At components "keycloak" (RunsOn · "networks") ↔
        At components "postgres" (RunsOn · "networks")) := by
  obtain ⟨k, p, keycloak, postgres, hk, hp, hkeycloak, hpostgres, haccepted⟩ :=
    components_of_otherChecks h
  rw [haccepted, at_iff hk, at_iff hp, ← (runsOn_of_prepareComponent hkeycloak).2,
    ← (runsOn_of_prepareComponent hpostgres).2, Bool.eq_iff_iff]

/-- **When a pair counts as mixed.**  A pair on one list of networks that passes the other checks is
accepted, and a mixed one is not, unless the pair is on its previous networks and exactly one of its
components has the same rendering for both lists. -/
theorem mixed_iff (tables : Tables) (components host port : Value) :
    ((otherChecks tables components host port = .ok () →
        BothOn components "previous_networks" ∨ BothOn components "networks" →
          ∃ t, prepareTransition tables components host port = .ok t) ∧
      (IsMixed components → ∀ t, prepareTransition tables components host port ≠ .ok t)) ↔
    ¬ (otherChecks tables components host port = .ok () ∧
      BothOn components "previous_networks" ∧
      ¬ (At components "keycloak" Coincides ↔ At components "postgres" Coincides)) := by
  constructor
  · rintro ⟨haccepts, -⟩ ⟨hchecks, hprevious, hone⟩
    have hsame := (accepted_iff hchecks).mp (haccepts hchecks (Or.inl hprevious))
    rw [at_networks_iff hprevious.1, at_networks_iff hprevious.2] at hsame
    exact hone hsame
  · intro hnot
    constructor
    · rintro hchecks (hprevious | hdesired)
      · rw [accepted_iff hchecks, at_networks_iff hprevious.1, at_networks_iff hprevious.2]
        by_contra hone
        exact hnot ⟨hchecks, hprevious, hone⟩
      · exact (accepted_iff hchecks).mpr (iff_of_true hdesired.1 hdesired.2)
    · intro hmixed t ht
      have hsame := (accepted_iff (otherChecks_of_accepted ht)).mp ⟨t, ht⟩
      rcases hmixed with ⟨⟨k, hk, -, hnot⟩, p, hp, honly, -⟩ | ⟨⟨k, hk, honly, -⟩, p, hp, -, hnot⟩
      · rw [at_iff hk, at_iff hp] at hsame
        exact hnot (hsame.mpr honly)
      · rw [at_iff hk, at_iff hp] at hsame
        exact hnot (hsame.mp honly)

end

/-! ## 4. A sample -/

/-- Both components on their previous networks; only Keycloak gets another address. -/
def sampleHalf : Value := .dict [
  ("keycloak", sampleComponent "kc" ["db.network:ip=10.0.0.7"] ["db.network:ip=10.0.0.7"]
    ["db.network:ip=10.0.0.2"] (sampleEnvironment "x" "1")),
  ("postgres", sampleComponent "pg" ["db.network:ip=10.0.0.3"] ["db.network:ip=10.0.0.3"]
    ["db.network:ip=10.0.0.3"] [])]

theorem sampleHalf_runsOn (name : PyStr) (previous networks : List PyStr) (environment : List Value)
    (h : (quadletText (.str "Unit") (.str "/etc/x.yml") (.list (previous.map .str))).isOk = true) :
    RunsOn (sampleComponent name previous previous networks environment) "previous_networks" := by
  obtain ⟨text, htext⟩ := exists_of_isOk h
  refine ⟨sampleUnit previous, .str "Unit", .str "/etc/x.yml", .list (previous.map .str), text, rfl,
    rfl, rfl, rfl, htext, ?_⟩
  rw [sampleUnit, htext]
  rfl

/-- The pair is on its previous networks and passes every other check, and it is rejected. -/
theorem mixed_counterexample : ¬ ∀ tables components host port,
    otherChecks tables components host port = .ok () →
      BothOn components "previous_networks" ∨ BothOn components "networks" →
        ∃ t, prepareTransition tables components host port = .ok t := by
  intro h
  have hchecks : (otherChecks sampleTables sampleHalf (.str "pg") (.int 5432)).isOk = true := by
    decide +kernel
  have hrejected : (prepareTransition sampleTables sampleHalf (.str "pg") (.int 5432)).isOk =
      false := by decide +kernel
  obtain ⟨⟨⟩, hok⟩ := exists_of_isOk hchecks
  have hboth : BothOn sampleHalf "previous_networks" :=
    ⟨⟨_, rfl, sampleHalf_runsOn _ _ _ _ (by decide +kernel)⟩,
      ⟨_, rfl, sampleHalf_runsOn _ _ _ _ (by decide +kernel)⟩⟩
  obtain ⟨t, ht⟩ := h sampleTables sampleHalf (.str "pg") (.int 5432) hok (Or.inl hboth)
  rw [ht] at hrejected
  cases hrejected

end Supplementary.Keycloak
