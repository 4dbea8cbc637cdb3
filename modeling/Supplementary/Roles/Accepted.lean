/-
# What an accepted registry is like

A registry of which `validate_registry` reports no error has passed every check.  Of these the
generator of the test matrix needs: what a target, a role and a scenario hold, that a production
role has for each profile a real scenario that reports it, and that the production roles of such a
scenario share their targets.
-/
import Supplementary.Roles.Validate

namespace Supplementary.Roles

open Supplementary PyStr Ledger

/-! ## 1. Fields -/

section Fields

variable {fields : Fields} {name text : PyStr}

theorem hasField_of_field {value : Yaml} (h : field fields name = value) (hv : value ≠ .none) :
    hasField fields name = true := by
  unfold hasField
  cases hentry : entry fields (.str name) with
  | some v => rfl
  | none =>
    rw [field, hentry] at h
    exact absurd h.symm hv

theorem entry_of_hasField (h : hasField fields name = true) :
    entry fields (.str name) = some (field fields name) := by
  obtain ⟨value, heq⟩ := Option.isSome_iff_exists.mp h
  rw [field, heq]
  rfl

theorem entry_of_field {inner : Fields} (h : field fields name = .dict inner) :
    entry fields (.str name) = some (.dict inner) := by
  rw [entry_of_hasField (hasField_of_field h (by simp)), h]

theorem item_of_hasField (h : hasField fields name = true) :
    (Yaml.dict fields).item name = .ok (field fields name) := by
  rw [Yaml.item, entry_of_hasField h]

theorem inTexts_eq_true {value : Yaml} {texts : List PyStr} :
    value.inTexts texts = .ok true ↔ ∃ s ∈ texts, value = .str s := by
  unfold Yaml.inTexts
  constructor
  · intro h
    split at h
    · cases h
    · obtain ⟨s, hs, heq⟩ := List.any_eq_true.mp (Except.ok.inj h)
      exact ⟨s, hs, Yaml.isText_iff.mp heq⟩
  · rintro ⟨s, hs, rfl⟩
    simp [Yaml.key?, Yaml.isText, hs]

theorem any_isText {texts : List PyStr} :
    (texts.map Yaml.str).any (fun x => x.isText text) = decide (text ∈ texts) := by
  rw [Bool.eq_iff_iff, List.any_map, List.any_eq_true, decide_eq_true_iff]
  constructor
  · rintro ⟨s, hs, h⟩
    obtain rfl : s = text := by simpa [Yaml.isText] using h
    exact hs
  · intro h
    exact ⟨text, h, Yaml.isText_iff.mpr rfl⟩

theorem contains_list {texts : List PyStr} :
    (Yaml.list (texts.map .str)).contains text = .ok (decide (text ∈ texts)) := by
  rw [Yaml.contains, any_isText]

theorem listHas_list {texts : List PyStr} :
    (Yaml.list (texts.map .str)).listHas text = decide (text ∈ texts) := by
  rw [Yaml.listHas, any_isText]

end Fields

/-! ## 2. The tables of the registry -/

/-- The entry of a table of the registry, if both are mappings. -/
def member (registry : Fields) (table name : PyStr) : Option Fields :=
  match field registry table with
  | .dict fields => match field fields name with
    | .dict inner => some inner
    | _ => none
  | _ => none

/-- The role lists the target in the field. -/
def declares (role : Fields) (targetField target : PyStr) : Bool :=
  (field role targetField).listHas target

def isProduction (role : Fields) : Bool := (field role "maturity").isText "production"

theorem member_iff {registry fields inner : Fields} {table name : PyStr}
    (h : field registry table = .dict fields) :
    member registry table name = some inner ↔ field fields name = .dict inner := by
  unfold member
  rw [h]
  cases heq : field fields name <;> simp [heq]

/-! ## 3. Targets -/

structure ValidTarget (target : Fields) : Prop where
  instanceType : hasField target "instance_type" = true
  runner : hasField target "runner" = true
  image : ∃ imageField, imageFields target = [imageField]

theorem clean_validateImage {name : PyStr} {target : Fields}
    (h : Clean (validateImage name target) ()) :
    ∃ imageField, imageFields target = [imageField] := by
  unfold validateImage at h
  split at h
  · next imageField heq => exact ⟨imageField, heq⟩
  · exact absurd h not_clean_report

theorem clean_validateTarget {e : Key × Yaml} (h : Clean (validateTarget e) ()) :
    ∃ name target, e = (.str name, .dict target) ∧ ValidTarget target := by
  unfold validateTarget at h
  split at h
  · next name target =>
    simp only [clean_bind, exists_unit, clean_require, clean_call, clean_requireStringList] at h
    obtain ⟨-, -, himage, placed, hplaced, rfl, runner, ⟨hrunner, -⟩, -⟩ := h
    obtain ⟨s, -, heq⟩ := inTexts_eq_true.mp hplaced
    exact ⟨name, target, rfl, hasField_of_field heq (by simp), hasField_of_field hrunner (by simp),
      clean_validateImage himage⟩
  · exact absurd h not_clean_report

/-! ## 4. Roles -/

/-- A real scenario of the profile that reports the role. -/
structure Runs (scenarios : Fields) (roleName profile scenarioName : PyStr) (scenario : Fields) :
    Prop where
  found : field scenarios scenarioName = .dict scenario
  profile : field scenario "profile" = .str profile
  real : isReal scenario = true
  reports : ((field scenario "roles").orElse (.list [])).contains roleName = .ok true

structure ValidRole (targets scenarios : Fields) (roleName : PyStr) (role : Fields) : Prop where
  fields : ∀ name ∈ requiredRoleFields, hasField role name = true
  component : ∃ s, field role "component" = .str s
  targets : ∀ targetField ∈ targetFields, ∃ texts : List PyStr,
    field role targetField = .list (texts.map .str) ∧ ∀ t ∈ texts, hasField targets t = true
  supported : isProduction role = true → ∀ profile ∈ profiles,
    field role profile = .str "supported" ∧
      ∃ scenarioName scenario, Runs scenarios roleName profile scenarioName scenario

theorem clean_validateComponent {role : Fields} {opening : PyStr}
    (h : Clean (validateComponent role opening) ()) : ∃ s, field role "component" = .str s := by
  unfold validateComponent at h
  rw [clean_ite] at h
  cases hc : field role "component" with
  | str s => exact ⟨s, rfl⟩
  | _ => exact absurd (h.1 (by simp [hc, Yaml.isStrOf])) not_clean_report

theorem sorted_eq_nil {texts : List PyStr} : sorted texts = [] ↔ texts = [] := by
  rw [List.eq_nil_iff_forall_not_mem, List.eq_nil_iff_forall_not_mem]
  simp [sorted, List.mem_insertionSort]

theorem sorted_dedup_eq_nil {texts : List PyStr} : sorted texts.dedup = [] ↔ texts = [] := by
  rw [sorted_eq_nil, List.eq_nil_iff_forall_not_mem, List.eq_nil_iff_forall_not_mem]
  exact forall_congr' fun s => not_congr List.mem_dedup

theorem clean_validateRoleTargets {targets role : Fields} {opening : PyStr} {texts : List PyStr}
    (h : Clean (validateRoleTargets targets role opening) texts) :
    ∀ targetField ∈ targetFields, ∃ texts : List PyStr,
      field role targetField = .list (texts.map .str) ∧ ∀ t ∈ texts, hasField targets t = true := by
  simp only [validateRoleTargets, clean_bind, exists_unit, clean_require, clean_requireStringList,
    sorted_dedup_eq_nil, List.filter_eq_nil_iff, List.forall_mem_append] at h
  obtain ⟨supported, ⟨hsupported, -⟩, candidate, ⟨hcandidate, -⟩, ⟨hs, hc⟩, -⟩ := h
  simp only [targetFields, List.forall_mem_cons]
  refine ⟨⟨supported, hsupported, ?_⟩, ⟨candidate, hcandidate, ?_⟩, by simp⟩
  · intro t ht
    simpa using hs t ht
  · intro t ht
    simpa using hc t ht

theorem clean_validateMappedScenario {scenarios : Fields} {roleName profile scenarioName : PyStr}
    (h : Clean (validateMappedScenario scenarios roleName profile scenarioName) ()) :
    ∃ scenario, field scenarios scenarioName = .dict scenario ∧
      field scenario "profile" = .str profile ∧
      ((field scenario "roles").orElse (.list [])).contains roleName = .ok true := by
  unfold validateMappedScenario at h
  split at h
  · next scenario heq =>
    simp only [clean_bind, exists_unit, clean_require, clean_call] at h
    obtain ⟨hprofile, reports, hreports, rfl⟩ := h
    exact ⟨scenario, heq, Yaml.isText_iff.mp hprofile, hreports⟩
  · exact absurd h not_clean_report

theorem clean_validateProductionScenario {scenarios scenario : Fields} {roleName name : PyStr}
    (hfound : field scenarios name = .dict scenario) (hne : scenario ≠ [])
    (h : Clean (validateProductionScenario scenarios roleName (.str name)) ()) :
    isReal scenario = true := by
  have hget : (Yaml.dict scenarios).get (.str name) = .ok (.dict scenario) := by
    simpa [Yaml.get, Yaml.key?, field] using hfound
  have hor : (Yaml.dict scenario).orElse (.dict []) = .dict scenario := by
    simp [Yaml.orElse, Yaml.truthy, hne]
  simp only [validateProductionScenario, clean_bind, clean_call, hget, Except.ok.injEq,
    exists_eq_left', hor, exists_unit, clean_require] at h
  obtain ⟨state, hstate, hsupported, implementation, himplementation, hreal, -⟩ := h
  simp only [Yaml.get, Yaml.key?, Except.ok.injEq] at hstate himplementation
  subst hstate himplementation
  simp only [isReal, Bool.and_eq_true]
  exact ⟨hsupported, hreal⟩

/-- The checks of a profile and those of a production role find the same scenario. -/
theorem runs_of_clean {scenarios role support : Fields} {roleName profile : PyStr}
    (hmap : Clean (validateRoleProfile scenarios roleName role support profile) ())
    (hproduction : Clean (validateProductionProfile scenarios roleName role support profile) ()) :
    field role profile = .str "supported" ∧
      ∃ scenarioName scenario, Runs scenarios roleName profile scenarioName scenario := by
  unfold validateProductionProfile at hproduction
  split at hproduction
  · exact absurd hproduction not_clean_report
  next hstate =>
  simp only [Bool.not_eq_true, Bool.not_eq_false'] at hstate
  refine ⟨Yaml.isText_iff.mp hstate, ?_⟩
  simp only [validateRoleProfile, clean_bind, exists_unit, clean_require, clean_call,
    clean_requireStringList, clean_each] at hmap hproduction
  obtain ⟨-, -, -, names, ⟨hnames, -⟩, hmapped⟩ := hmap
  obtain ⟨htruthy, each, heach, hall⟩ := hproduction
  rw [hnames] at htruthy heach
  cases names with
  | nil => simp [Yaml.orElse, Yaml.truthy] at htruthy
  | cons scenarioName rest =>
    simp only [List.map_cons, Yaml.orElse, Yaml.truthy, List.isEmpty_cons, Bool.not_false, if_true,
      Yaml.iterate, Except.ok.injEq] at heach
    subst heach
    obtain ⟨scenario, hfound, hprofile, hreports⟩ :=
      clean_validateMappedScenario (hmapped scenarioName (List.mem_cons_self ..))
    have hne : scenario ≠ [] := by
      rintro rfl
      simp [field, entry] at hprofile
    exact ⟨scenarioName, scenario, hfound, hprofile,
      clean_validateProductionScenario hfound hne (hall _ (List.mem_cons_self ..)), hreports⟩

theorem clean_validateRole {checkout : Checkout} {targets scenarios : Fields} {e : Key × Yaml}
    (h : Clean (validateRole checkout targets scenarios e) ()) :
    ∃ roleName role, e = (.str roleName, .dict role) ∧
      ValidRole targets scenarios roleName role := by
  obtain ⟨key, value⟩ := e
  simp only [validateRole, clean_bind, exists_unit, clean_call, clean_require] at h
  obtain ⟨roleName, hname, -, h⟩ := h
  cases key with
  | other r => cases hname
  | str s =>
    cases hname
    split at h
    · next role =>
      refine ⟨roleName, role, rfl, ?_⟩
      simp only [validateRoleFields, clean_bind, exists_unit, clean_require, clean_each,
        missingFields_eq_nil] at h
      obtain ⟨hfields, -, supported, htargets, -, limitations, -, -, hcomponent, -, -, support,
        -, hprofiles, hproduction⟩ := h
      refine ⟨hfields, clean_validateComponent hcomponent, clean_validateRoleTargets htargets, ?_⟩
      intro hmaturity profile hprofile
      have hall := clean_onlyIf.mp hproduction hmaturity
      simp only [validateProduction, clean_bind, exists_unit, clean_require, clean_each] at hall
      exact runs_of_clean (hprofiles profile hprofile) (hall.2.1 profile hprofile)
    · exact absurd h not_clean_report

/-! ## 5. Scenarios -/

/-- The production roles of a scenario, as the validator selects them. -/
def productionRolesOf (roles : Fields) (profile : PyStr) (names : List PyStr) : List PyStr :=
  sorted (names.filter fun name => match field roles name with
    | .dict role => isProduction role && (field role profile).isText "supported"
    | _ => false)

structure ValidScenario (roles : Fields) (scenarioName : PyStr) (scenario : Fields) : Prop where
  fields : ∀ name ∈ requiredScenarioFields, hasField scenario name = true
  roles : ∃ names : List PyStr, field scenario "roles" = .list (names.map .str) ∧
    (∀ name ∈ names, hasField roles name = true) ∧
    ∀ profile, field scenario "profile" = .str profile → isReal scenario = true →
      1 < (productionRolesOf roles profile names).length → ∀ targetField ∈ targetFields,
        ∃ texts, sharedScenarioTargetSet (.dict roles) scenarioName
          (productionRolesOf roles profile names) targetField = .ok (.ok texts)

theorem isProductionRole_eq {roles : Fields} {profile name : PyStr} :
    isProductionRole roles (.str profile) name = .ok (match field roles name with
      | .dict role => isProduction role && (field role profile).isText "supported"
      | _ => false) := by
  unfold isProductionRole
  split
  · next role heq =>
    simp only [heq, isProduction]
    split
    · next h =>
      rw [h]
      rfl
    · next h => simp [h]
  · next heq =>
    cases hrole : field roles name with
    | dict role => exact absurd hrole (heq role)
    | _ => rfl

theorem clean_validateSharedTargets {roles : Fields} {scenarioName targetField : PyStr}
    {productionRoles : List PyStr}
    (h : Clean (validateSharedTargets roles scenarioName productionRoles targetField) ()) :
    ∃ texts, sharedScenarioTargetSet (.dict roles) scenarioName productionRoles targetField =
      .ok (.ok texts) := by
  simp only [validateSharedTargets, clean_bind, clean_call] at h
  obtain ⟨shared, heq, h⟩ := h
  cases shared with
  | ok texts => exact ⟨texts, heq⟩
  | error message => exact absurd h not_clean_report

theorem clean_validateScenario {checkout : Checkout} {roles : Fields} {e : Key × Yaml}
    (h : Clean (validateScenario checkout roles e) ()) :
    ∃ scenarioName scenario, e = (.str scenarioName, .dict scenario) ∧
      ValidScenario roles scenarioName scenario := by
  obtain ⟨key, value⟩ := e
  simp only [validateScenario, clean_bind, exists_unit, clean_call, clean_require] at h
  obtain ⟨scenarioName, hname, -, h⟩ := h
  cases key with
  | other r => cases hname
  | str s =>
    cases hname
    split at h
    · next scenario =>
      refine ⟨scenarioName, scenario, rfl, ?_⟩
      simp only [validateScenarioFields, clean_bind, exists_unit, clean_require, clean_each,
        clean_call, missingFields_eq_nil, clean_requireStringList, sorted_dedup_eq_nil,
        List.filter_eq_nil_iff] at h
      obtain ⟨hfields, -, names, ⟨hnames, -⟩, -, hknown, -, -, exercised, -, -, -, production,
        hproduction, hshared, -⟩ := h
      refine ⟨hfields, names, hnames, ?_, ?_⟩
      · intro name hname
        simpa using hknown name hname
      · intro profile hprofile hreal hmany targetField htf
        rw [hprofile, filterPy_eq fun _ _ => isProductionRole_eq, Except.ok.injEq] at hproduction
        subst hproduction
        have hall := clean_each.mp (clean_onlyIf.mp hshared ⟨hreal, hmany⟩)
        exact clean_validateSharedTargets (hall targetField htf)
    · exact absurd h not_clean_report

/-! ## 6. The registry -/

structure ValidRegistry (registry targets roles scenarios : Fields) : Prop where
  targets_eq : field registry "targets" = .dict targets
  roles_eq : field registry "roles" = .dict roles
  scenarios_eq : field registry "scenarios" = .dict scenarios
  target : ∀ e ∈ items targets, ∃ name target, e = (Key.str name, Yaml.dict target) ∧
    ValidTarget target
  role : ∀ e ∈ items roles, ∃ name role, e = (Key.str name, Yaml.dict role) ∧
    ValidRole targets scenarios name role
  scenario : ∀ e ∈ items scenarios, ∃ name scenario, e = (Key.str name, Yaml.dict scenario) ∧
    ValidScenario roles name scenario

theorem valid_of_accepted {checkout : Checkout} {registry : Fields} {scope : Scope}
    (h : validateRegistry checkout registry scope = .ok []) :
    ∃ targets roles scenarios, ValidRegistry registry targets roles scenarios := by
  rw [validateRegistry, complaints_eq_nil] at h
  simp only [checkRegistry, checkTargets, clean_bind, exists_unit, clean_require, clean_each,
    clean_mappingOr, clean_pure] at h
  obtain ⟨-, -, -, -, targets, ⟨targets', htargets, -, hall, rfl⟩, roles, hroles, -, -, -, -, -,
    scenarios, hscenarios, -, -, -, -, -, hrole, hscenario, -⟩ := h
  exact ⟨targets', roles, scenarios, htargets, hroles, hscenarios,
    fun e he => clean_validateTarget (hall e he), fun e he => clean_validateRole (hrole e he),
    fun e he => clean_validateScenario (hscenario e he)⟩

end Supplementary.Roles
