/-
# Every production support claim is executed

What the validator has accepted the generator turns into a matrix without raising, with a cell for
each target that a production role declares.  The one place where the two read the registry
differently is the image of a target: the validator counts the image fields that are not empty, the
generator asks whether the key `image` is there.
-/
import Supplementary.Roles.Accepted
import Supplementary.Roles.Matrix

namespace Supplementary.Roles

open Supplementary PyStr

/-! ## 1. Loops that do not raise -/

theorem mem_of_sameSet {xs ys : List PyStr} (h : sameSet xs ys = true) {t : PyStr} :
    t ∈ xs ↔ t ∈ ys := by
  simp only [sameSet, Bool.and_eq_true, List.all_eq_true, decide_eq_true_eq] at h
  exact ⟨h.1 t, h.2 t⟩

theorem mem_sorted {texts : List PyStr} {s : PyStr} : s ∈ sorted texts ↔ s ∈ texts := by
  rw [sorted, List.mem_insertionSort]

theorem nodup_sorted {texts : List PyStr} (h : texts.Nodup) : (sorted texts).Nodup :=
  (List.perm_insertionSort _ _).nodup_iff.mpr h

/-- The items of a mapping whose keys are texts. -/
theorem sortedItems_spec {fields : Fields}
    (h : ∀ e ∈ items fields, ∃ name, e.1 = Key.str name) :
    ∃ entries, sortedItems (.dict fields) = .ok entries ∧ (entries.map Prod.fst).Nodup ∧
      ∀ name value, (name, value) ∈ entries ↔ entry fields (.str name) = some value := by
  have hmap : (items fields).mapM (fun e => e.1.text.map fun key => (key, e.2)) =
      .ok ((items fields).map fun e => (e.1.text.toOption.getD "", e.2)) := by
    refine mapM_eq_map fun e he => ?_
    obtain ⟨name, heq⟩ := h e he
    rw [heq]
    rfl
  refine ⟨sortByKey _, by rw [sortedItems, hmap, ok_bind]; rfl, ?_, ?_⟩
  · rw [sortByKey, ((List.perm_insertionSort _ _).map _).nodup_iff, List.map_map]
    refine (nodup_items fields).of_map _ |>.map_on ?_
    intro e he e' he' heq
    obtain ⟨name, hname⟩ := h e he
    obtain ⟨name', hname'⟩ := h e' he'
    simp only [Function.comp_apply, hname, hname', Key.text, Except.toOption, Option.getD_some] at heq
    subst heq
    have hv := mem_items.mp (show (e.1, e.2) ∈ items fields from he)
    have hv' := mem_items.mp (show (e'.1, e'.2) ∈ items fields from he')
    rw [hname] at hv
    rw [hname', hv] at hv'
    exact Prod.ext (hname.trans hname'.symm) (Option.some.inj hv')
  · intro name value
    rw [sortByKey, List.mem_insertionSort, List.mem_map, ← mem_items]
    constructor
    · rintro ⟨e, he, heq⟩
      obtain ⟨name', hname⟩ := h e he
      rw [hname] at heq
      cases heq
      exact hname ▸ he
    · intro he
      exact ⟨_, he, rfl⟩

/-! ## 2. Images -/

theorem hasField_of_truthy {fields : Fields} {name : PyStr}
    (h : (field fields name).truthy = true) :
    hasField fields name = true := by
  refine hasField_of_field rfl ?_
  intro hnone
  rw [hnone] at h
  cases h

theorem cellImage_image {target : Fields} (h : hasField target "image" = true) :
    cellImage (.dict target) = .ok ("image", field target "image") := by
  simp only [cellImage, Yaml.contains, h, ok_bind, if_true, item_of_hasField h]
  rfl

theorem cellImage_variable {target : Fields} (h : hasField target "image" = false)
    (hvariable : hasField target "image_variable" = true) :
    cellImage (.dict target) = .ok ("image_variable", field target "image_variable") := by
  simp only [cellImage, Yaml.contains, h, ok_bind, Bool.false_eq_true, if_false,
    item_of_hasField hvariable]
  rfl

/-- With one image field that is not empty, one of the two keys is there. -/
theorem cellImage_ok {target : Fields} (h : ValidTarget target) :
    ∃ image, cellImage (.dict target) = .ok image := by
  obtain ⟨imageField, heq⟩ := h.image
  by_cases himage : hasField target "image" = true
  · exact ⟨_, cellImage_image himage⟩
  · have hfalsy : ¬ (field target "image").truthy = true := fun h => himage (hasField_of_truthy h)
    have htruthy : (field target "image_variable").truthy = true := by
      by_contra hnot
      simp [imageFields, hfalsy, hnot] at heq
    exact ⟨_, cellImage_variable (Bool.not_eq_true _ ▸ himage) (hasField_of_truthy htruthy)⟩

/-- The generator takes the field that the validator counted, unless a key `image` hides an image
variable. -/
theorem cellImage_iff {target : Fields} {image : PyStr × Yaml} (hvalid : ValidTarget target)
    (himage : cellImage (.dict target) = .ok image) :
    (imageFields target = [image.1] ∧ field target image.1 = image.2) ↔
      ((field target "image_variable").truthy = true → hasField target "image" = false) := by
  obtain ⟨imageField, heq⟩ := hvalid.image
  by_cases hi : (field target "image").truthy = true
  · by_cases hv : (field target "image_variable").truthy = true
    · simp [imageFields, hi, hv] at heq
    · rw [cellImage_image (hasField_of_truthy hi)] at himage
      cases himage
      simp [imageFields, hi, hv]
  · by_cases hv : (field target "image_variable").truthy = true
    · by_cases hkey : hasField target "image" = true
      · rw [cellImage_image hkey] at himage
        cases himage
        have hne : ("image_variable" : PyStr) ≠ "image" := by decide
        simp [imageFields, hi, hv, hkey, hne]
      · rw [Bool.not_eq_true] at hkey
        rw [cellImage_variable hkey (hasField_of_truthy hv)] at himage
        cases himage
        simp [imageFields, hi, hv, hkey]
    · simp [imageFields, hi, hv] at heq

/-! ## 3. Reading an accepted registry -/

section Accepted

variable {registry targets roles scenarios : Fields}
  (v : ValidRegistry registry targets roles scenarios)

include v

theorem exists_role {name : PyStr} (h : hasField roles name = true) :
    ∃ role, field roles name = .dict role ∧ ValidRole targets scenarios name role := by
  obtain ⟨name', role, heq, hvalid⟩ := v.role _ (mem_items.mpr (entry_of_hasField h))
  simp only [Prod.mk.injEq, Key.str.injEq] at heq
  exact ⟨role, heq.2, heq.1 ▸ hvalid⟩

theorem validRole {name : PyStr} {role : Fields} (h : field roles name = .dict role) :
    ValidRole targets scenarios name role := by
  obtain ⟨role', heq, hvalid⟩ := exists_role v (hasField_of_field h (by simp))
  rw [h] at heq
  cases heq
  exact hvalid

theorem exists_target {name : PyStr} (h : hasField targets name = true) :
    ∃ target, field targets name = .dict target ∧ ValidTarget target := by
  obtain ⟨name', target, heq, hvalid⟩ := v.target _ (mem_items.mpr (entry_of_hasField h))
  simp only [Prod.mk.injEq, Key.str.injEq] at heq
  exact ⟨target, heq.2, hvalid⟩

theorem validScenario {name : PyStr} {scenario : Fields}
    (h : field scenarios name = .dict scenario) :
    ValidScenario roles name scenario := by
  obtain ⟨name', scenario', heq, hvalid⟩ := v.scenario _ (mem_items.mpr (entry_of_field h))
  simp only [Prod.mk.injEq, Key.str.injEq, Yaml.dict.injEq] at heq
  obtain ⟨rfl, rfl⟩ := heq
  exact hvalid

/-- The generator selects the roles that the validator selected. -/
theorem runsProfile_eq {profile name : PyStr} (hprofile : profile ∈ profiles)
    (h : hasField roles name = true) :
    runsProfile (.dict roles) profile name = .ok (match field roles name with
      | .dict role => isProduction role && (field role profile).isText "supported"
      | _ => false) := by
  obtain ⟨role, hrole, hvalid⟩ := exists_role v h
  have hmaturity := item_of_hasField (hvalid.fields "maturity" (by decide))
  have hstate := item_of_hasField (hvalid.fields profile (by
    revert hprofile
    revert profile
    decide))
  rw [runsProfile, item_of_hasField h, hrole, ok_bind, hmaturity, hstate]
  simp only [allOf, Except.map, ok_bind, isProduction]
  cases (field role "maturity").isText "production" <;>
    cases (field role profile).isText "supported" <;> rfl

/-- The targets that a role declares. -/
theorem targetTexts_spec {name targetField : PyStr} {role : Fields}
    (hrole : field roles name = .dict role) (htf : targetField ∈ targetFields) :
    ∃ texts, targetTexts (.dict roles) targetField name = .ok texts ∧
      (∀ t, t ∈ texts ↔ declares role targetField t = true) ∧
      ∀ t ∈ texts, hasField targets t = true := by
  obtain ⟨texts, hfield, hknown⟩ := (validRole v hrole).targets targetField htf
  have hhas := hasField_of_field hfield (by simp)
  refine ⟨texts, ?_, ?_, hknown⟩
  · rw [targetTexts, item_of_hasField (hasField_of_field hrole (by simp)), hrole, ok_bind]
    simp only [fieldD, entry_of_hasField hhas, hfield, Option.getD_some, Yaml.iterate, ok_bind,
      List.map_map]
    congr 1
    exact List.map_id _
  · intro t
    rw [declares, hfield, listHas_list, decide_eq_true_iff]

/-- The roles of a scenario share one set of targets, all of them known. -/
theorem sharedTargets_spec {scenarioName targetField : PyStr} {productionRoles : List PyStr}
    (hne : productionRoles ≠ []) (htf : targetField ∈ targetFields)
    (hroles : ∀ r ∈ productionRoles, ∃ role, field roles r = .dict role)
    (hmany : 1 < productionRoles.length → ∃ texts,
      sharedScenarioTargetSet (.dict roles) scenarioName productionRoles targetField =
        .ok (.ok texts)) :
    ∃ shared, sharedTargets (.dict roles) scenarioName productionRoles targetField = .ok shared ∧
      (∀ r ∈ productionRoles, ∀ role, field roles r = .dict role → ∀ t,
        t ∈ shared ↔ declares role targetField t = true) ∧
      ∀ t ∈ shared, hasField targets t = true := by
  obtain ⟨sets, hsets⟩ := exists_mapM (f := targetTexts (.dict roles) targetField) fun r hr => by
    obtain ⟨role, hrole⟩ := hroles r hr
    obtain ⟨texts, htexts, -⟩ := targetTexts_spec v hrole htf
    exact ⟨texts, htexts⟩
  have hall := mapM_eq_ok hsets
  cases hall with
  | nil => exact absurd rfl hne
  | @cons first set rest others hfirst hothers =>
    have hsame : others.all (sameSet set) = true := by
      cases hothers with
      | nil => rfl
      | cons =>
        obtain ⟨texts, htexts⟩ := hmany (by simp)
        rw [sharedScenarioTargetSet, hsets, ok_bind] at htexts
        by_contra hnot
        simp only [if_neg hnot, pure_eq_ok, reduceCtorEq] at htexts
    have hshared :
        sharedTargets (.dict roles) scenarioName (first :: rest) targetField = .ok set := by
      rw [sharedTargets, sharedScenarioTargetSet, hsets, ok_bind]
      simp only [hsame, if_true]
      rfl
    obtain ⟨role, hrole⟩ := hroles first (List.mem_cons_self ..)
    obtain ⟨texts, htexts, hdeclares, hknown⟩ := targetTexts_spec v hrole htf
    obtain rfl : set = texts := Except.ok.inj (hfirst.symm.trans htexts)
    refine ⟨set, hshared, ?_, hknown⟩
    intro r hr role' hrole' t
    rcases List.mem_cons.mp hr with rfl | hr
    · rw [hrole] at hrole'
      cases hrole'
      exact hdeclares t
    · obtain ⟨other, hother, hr⟩ := exists_of_forall₂ hothers hr
      obtain ⟨texts', htexts', hdeclares', -⟩ := targetTexts_spec v hrole' htf
      obtain rfl : other = texts' := Except.ok.inj (hr.symm.trans htexts')
      rw [← hdeclares' t]
      exact mem_of_sameSet (List.all_eq_true.mp hsame other hother)

/-! ## 4. Cells -/

/-- What the generator puts into a cell. -/
structure CellOf (targets : Fields) (scenarioName : PyStr) (productionRoles : List PyStr)
    (target : PyStr) (cell : Cell) : Prop where
  scenario_eq : cell.scenario = scenarioName
  target_eq : cell.target = target
  roles_eq : cell.roles = productionRoles
  image : ∃ definition, field targets target = .dict definition ∧
    cellImage (.dict definition) = .ok cell.image

omit v in
theorem map_target_eq {scenarioName : PyStr} {productionRoles known : List PyStr}
    {cells : List Cell}
    (h : List.Forall₂ (CellOf targets scenarioName productionRoles) known cells) :
    cells.map Cell.target = known := by
  induction h with
  | nil => rfl
  | cons hcell _ ih => rw [List.map_cons, hcell.target_eq, ih]

theorem matrixCell_spec (scenarioName profile targetDisposition : PyStr) {scenario : Fields}
    {target : PyStr} {productionRoles : List PyStr}
    (hfields : ∀ name ∈ requiredScenarioFields, hasField scenario name = true)
    (hroles : ∀ r ∈ productionRoles, hasField roles r = true)
    (htarget : hasField targets target = true) :
    ∃ cell, matrixCell (.dict roles) (.dict targets) (.dict scenario) scenarioName profile
        targetDisposition productionRoles target = .ok cell ∧
      CellOf targets scenarioName productionRoles target cell := by
  obtain ⟨definition, hdefinition, hvalid⟩ := exists_target v htarget
  obtain ⟨image, himage⟩ := cellImage_ok hvalid
  obtain ⟨components, hcomponents⟩ := exists_mapM (f := roleComponent (.dict roles)) fun r hr => by
    obtain ⟨role, hrole, hvalid⟩ := exists_role v (hroles r hr)
    obtain ⟨s, hs⟩ := hvalid.component
    refine ⟨s, ?_⟩
    rw [roleComponent, item_of_hasField (hroles r hr), hrole, ok_bind,
      item_of_hasField (hvalid.fields "component" (by decide)), hs]
    rfl
  rw [matrixCell, item_of_hasField htarget, hdefinition, ok_bind, hcomponents, ok_bind,
    item_of_hasField hvalid.instanceType, ok_bind, item_of_hasField hvalid.runner, ok_bind,
    item_of_hasField (hfields "junit" (by decide)), ok_bind,
    item_of_hasField (hfields "allure" (by decide)), ok_bind,
    item_of_hasField (hfields "evidence" (by decide)), ok_bind, himage, ok_bind]
  exact ⟨_, rfl, rfl, rfl, rfl, definition, hdefinition, himage⟩

/-- The cells of one scenario. -/
structure CellsOf (targets roles : Fields) (profile targetDisposition scenarioName : PyStr)
    (scenario : Fields) (cells : List Cell) : Prop where
  nodup : (cells.map Cell.target).Nodup
  cell : ∀ cell ∈ cells, ∃ productionRoles target,
    CellOf targets scenarioName productionRoles target cell
  selected : cells ≠ [] → field scenario "profile" = .str profile ∧ isReal scenario = true
  declared : ∀ cell ∈ cells, cell.roles ≠ [] ∧ ∀ r ∈ cell.roles, ∃ role,
    field roles r = .dict role ∧ isProduction role = true ∧
      declares role (dispositionField targetDisposition) cell.target = true
  covers : field scenario "profile" = .str profile → isReal scenario = true →
    ∀ r role, field roles r = .dict role → isProduction role = true →
      ((field scenario "roles").orElse (.list [])).contains r = .ok true →
      ∀ t, declares role (dispositionField targetDisposition) t = true →
        ∃ cell ∈ cells, cell.target = t ∧ r ∈ cell.roles

omit v in
theorem cellsOf_nil {profile targetDisposition scenarioName : PyStr} {scenario : Fields}
    (h : field scenario "profile" = .str profile → isReal scenario = true →
      ∀ r role, field roles r = .dict role → isProduction role = true →
        ((field scenario "roles").orElse (.list [])).contains r = .ok true → False) :
    CellsOf targets roles profile targetDisposition scenarioName scenario [] where
  nodup := List.nodup_nil
  cell := by simp
  selected := by simp
  declared := by simp
  covers hprofile hreal r role hrole hproduction hreports :=
    (h hprofile hreal r role hrole hproduction hreports).elim

omit v in
theorem dispositionField_mem (targetDisposition : PyStr) :
    dispositionField targetDisposition ∈ targetFields := by
  unfold dispositionField
  split <;> decide

/-- The production roles of a scenario are the reported ones that are of production maturity. -/
theorem mem_productionRolesOf {profile r : PyStr} {names : List PyStr} {role : Fields}
    (hprofile : profile ∈ profiles) (hrole : field roles r = .dict role) :
    r ∈ productionRolesOf roles profile names ↔ r ∈ names ∧ isProduction role = true := by
  rw [productionRolesOf, mem_sorted, List.mem_filter, hrole]
  simp only [Bool.and_eq_true, Yaml.isText_iff]
  constructor
  · rintro ⟨hr, hproduction, -⟩
    exact ⟨hr, hproduction⟩
  · rintro ⟨hr, hproduction⟩
    exact ⟨hr, hproduction, ((validRole v hrole).supported hproduction profile hprofile).1⟩

theorem exists_productionRole {profile r : PyStr} {names : List PyStr}
    (hknown : ∀ name ∈ names, hasField roles name = true)
    (hr : r ∈ productionRolesOf roles profile names) :
    ∃ role, field roles r = .dict role ∧ isProduction role = true := by
  rw [productionRolesOf, mem_sorted, List.mem_filter] at hr
  obtain ⟨role, hrole, -⟩ := exists_role v (hknown r hr.1)
  rw [hrole] at hr
  exact ⟨role, hrole, (Bool.and_eq_true_iff.mp hr.2).1⟩

theorem realScenarioCells_spec {profile targetDisposition scenarioName : PyStr} {scenario : Fields}
    (hprofile : profile ∈ profiles) (hvalid : ValidScenario roles scenarioName scenario)
    (hself : field scenario "profile" = .str profile) (hreal : isReal scenario = true) :
    ∃ cells, realScenarioCells registry (.dict roles) (.dict scenario) scenarioName profile
        targetDisposition = .ok cells ∧
      CellsOf targets roles profile targetDisposition scenarioName scenario cells := by
  obtain ⟨names, hnames, hknown, hshared⟩ := hvalid.roles
  have hreports : ∀ r, ((field scenario "roles").orElse (.list [])).contains r = .ok true →
      r ∈ names := by
    intro r hr
    rw [hnames] at hr
    cases names with
    | nil => cases hr
    | cons name rest =>
      change (Yaml.list ((name :: rest).map .str)).contains r = .ok true at hr
      rw [contains_list] at hr
      simpa using hr
  have hnamed : (names.map Yaml.str).mapM asName = .ok names := by
    have h : (names.map Yaml.str).mapM asName = .ok ((names.map Yaml.str).map Yaml.text) :=
      mapM_eq_map fun x hx => by
        obtain ⟨s, -, rfl⟩ := List.mem_map.mp hx
        rfl
    rw [h, List.map_map]
    exact congrArg Except.ok (List.map_id _)
  have hselect := filterPy_eq fun name hname => runsProfile_eq v hprofile (hknown name hname)
  have hrun : realScenarioCells registry (.dict roles) (.dict scenario) scenarioName profile
      targetDisposition = if productionRolesOf roles profile names = [] then .ok [] else
        productionCells registry (.dict roles) (.dict scenario) scenarioName profile
          targetDisposition (productionRolesOf roles profile names) := by
    rw [realScenarioCells, item_of_hasField (hvalid.fields "roles" (by decide)), hnames, ok_bind,
      Yaml.iterate, ok_bind, hnamed, ok_bind, hselect, ok_bind]
    rfl
  rw [hrun]
  by_cases hnone : productionRolesOf roles profile names = []
  · refine ⟨[], if_pos hnone, cellsOf_nil fun _ _ r role hrole hproduction hr => ?_⟩
    have hmem := (mem_productionRolesOf v hprofile hrole).mpr ⟨hreports r hr, hproduction⟩
    rw [hnone] at hmem
    cases hmem
  · rw [if_neg hnone]
    have hroles : ∀ r ∈ productionRolesOf roles profile names, ∃ role,
        field roles r = .dict role ∧ isProduction role = true :=
      fun r hr => exists_productionRole v hknown hr
    obtain ⟨shared, hsharedEq, hdeclares, htargets⟩ := sharedTargets_spec v hnone
      (dispositionField_mem targetDisposition)
      (fun r hr => (hroles r hr).imp fun _ h => h.1)
      (fun hlen => hshared profile hself hreal hlen _ (dispositionField_mem targetDisposition))
    have hitem := item_of_hasField (hasField_of_field v.targets_eq (by simp))
    rw [v.targets_eq] at hitem
    rw [productionCells, hsharedEq, ok_bind, hitem, ok_bind, knownTargets, ok_bind]
    have hmem : ∀ t, t ∈ sorted (shared.dedup.filter (hasField targets)) ↔ t ∈ shared := by
      intro t
      rw [mem_sorted, List.mem_filter, List.mem_dedup]
      exact ⟨fun h => h.1, fun h => ⟨h, htargets t h⟩⟩
    have hcell := fun t (ht : t ∈ sorted (shared.dedup.filter (hasField targets))) =>
      matrixCell_spec v scenarioName profile targetDisposition hvalid.fields
        (fun r hr => hasField_of_field (hroles r hr).choose_spec.1 (by simp))
        (htargets t ((hmem t).mp ht))
    obtain ⟨cells, hcells⟩ := exists_mapM fun t ht => (hcell t ht).imp fun _ h => h.1
    have hall := mapM_eq_ok hcells
    have hspec : List.Forall₂ (fun t cell =>
        CellOf targets scenarioName (productionRolesOf roles profile names) t cell) _ cells :=
      forall₂_imp hall fun t cell ht heq => by
        obtain ⟨cell', heq', hof⟩ := hcell t ht
        rw [heq] at heq'
        cases heq'
        exact hof
    refine ⟨cells, hcells, ?_, ?_, fun _ => ⟨hself, hreal⟩, ?_, ?_⟩
    · rw [map_target_eq hspec]
      exact nodup_sorted ((List.nodup_dedup _).filter _)
    · intro cell hmemCell
      obtain ⟨t, -, hof⟩ := exists_left_of_forall₂ hspec hmemCell
      exact ⟨_, t, hof⟩
    · intro cell hmemCell
      obtain ⟨t, ht, hof⟩ := exists_left_of_forall₂ hspec hmemCell
      rw [hof.roles_eq, hof.target_eq]
      refine ⟨hnone, fun r hr => ?_⟩
      obtain ⟨role, hrole, hproduction⟩ := hroles r hr
      exact ⟨role, hrole, hproduction, (hdeclares r hr role hrole t).mp ((hmem t).mp ht)⟩
    · intro _ _ r role hrole hproduction hr t ht
      have hin := (mem_productionRolesOf v hprofile hrole).mpr ⟨hreports r hr, hproduction⟩
      have htin := (hmem t).mpr ((hdeclares r hin role hrole t).mpr ht)
      obtain ⟨cell, hcellMem, hof⟩ := exists_of_forall₂ hspec htin
      exact ⟨cell, hcellMem, hof.target_eq, hof.roles_eq ▸ hin⟩

theorem scenarioCells_spec (targetDisposition : PyStr) {profile scenarioName : PyStr}
    {scenario : Fields} (hprofile : profile ∈ profiles)
    (hfound : field scenarios scenarioName = .dict scenario) :
    ∃ cells, scenarioCells registry (.dict roles) profile targetDisposition
        (scenarioName, .dict scenario) = .ok cells ∧
      CellsOf targets roles profile targetDisposition scenarioName scenario cells := by
  have hvalid := validScenario v hfound
  have hselected : ∀ a b c : Bool, allOf [.ok a, .ok b, .ok c] = .ok (a && (b && c)) := by
    intro a b c
    cases a <;> cases b <;> cases c <;> rfl
  simp only [scenarioCells, item_of_hasField (hvalid.fields "profile" (by decide)),
    item_of_hasField (hvalid.fields "state" (by decide)),
    item_of_hasField (hvalid.fields "implementation" (by decide)), Except.map, hselected, ok_bind]
  split
  · next h =>
    rw [Bool.and_eq_true] at h
    exact realScenarioCells_spec v hprofile hvalid (Yaml.isText_iff.mp h.1) h.2
  · next h =>
    refine ⟨[], rfl, cellsOf_nil fun hself hreal => absurd ?_ h⟩
    rw [Bool.and_eq_true]
    exact ⟨Yaml.isText_iff.mpr hself, hreal⟩

/-- The matrix, scenario by scenario. -/
theorem buildMatrix_spec {profile targetDisposition : PyStr} (hprofile : profile ∈ profiles)
    (hdisposition : targetDisposition ∈ dispositions) :
    ∃ (entries : List (PyStr × Yaml)) (parts : List (List Cell)),
      buildMatrix registry profile targetDisposition = .ok parts.flatten ∧
      (entries.map Prod.fst).Nodup ∧
      (∀ name scenario, field scenarios name = .dict scenario → (name, .dict scenario) ∈ entries) ∧
      List.Forall₂ (fun e cells => ∃ scenario, field scenarios e.1 = .dict scenario ∧
        CellsOf targets roles profile targetDisposition e.1 scenario cells) entries parts := by
  obtain ⟨entries, hentries, hnodup, hmem⟩ := sortedItems_spec fun e he =>
    (v.scenario e he).imp fun _ ⟨_, heq, _⟩ => congrArg Prod.fst heq
  have hdict : ∀ e ∈ entries, ∃ scenario, e = (e.1, Yaml.dict scenario) ∧
      field scenarios e.1 = .dict scenario := by
    intro e he
    have hentry := (hmem e.1 e.2).mp he
    obtain ⟨_, scenario, heq, -⟩ := v.scenario _ (mem_items.mpr hentry)
    simp only [Prod.mk.injEq] at heq
    refine ⟨scenario, Prod.ext rfl heq.2, ?_⟩
    rw [field, hentry, heq.2]
    rfl
  have hcells : ∀ e ∈ entries, ∃ cells, scenarioCells registry (.dict roles) profile
      targetDisposition e = .ok cells ∧ ∃ scenario, field scenarios e.1 = .dict scenario ∧
        CellsOf targets roles profile targetDisposition e.1 scenario cells := by
    intro e he
    obtain ⟨scenario, heq, hfound⟩ := hdict e he
    obtain ⟨cells, hrun, hof⟩ := scenarioCells_spec v targetDisposition hprofile hfound
    rw [← heq] at hrun
    exact ⟨cells, hrun, scenario, hfound, hof⟩
  obtain ⟨parts, hparts⟩ := exists_mapM fun e he => (hcells e he).imp fun _ h => h.1
  have hroles := item_of_hasField (hasField_of_field v.roles_eq (by simp))
  have hscenarios := item_of_hasField (hasField_of_field v.scenarios_eq (by simp))
  rw [v.roles_eq] at hroles
  rw [v.scenarios_eq] at hscenarios
  refine ⟨entries, parts, ?_, hnodup, ?_, ?_⟩
  · rw [buildMatrix, raiseUnless_of hprofile, ok_bind, raiseUnless_of hdisposition, ok_bind, hroles,
      ok_bind, hscenarios, ok_bind, hentries, ok_bind, hparts, ok_bind]
    rfl
  · intro name scenario hfound
    exact (hmem name _).mpr (entry_of_field hfound)
  · refine forall₂_imp (mapM_eq_ok hparts) fun e cells he hrun => ?_
    obtain ⟨cells', hrun', h⟩ := hcells e he
    rw [hrun] at hrun'
    cases hrun'
    exact h

end Accepted

/-! ## 5. The two readings of the registry -/

/-- What the matrices of a registry promise. -/
structure Executed (registry : Fields) : Prop where
  /-- No profile and no disposition raises. -/
  builds : ∀ profile ∈ profiles, ∀ targetDisposition ∈ dispositions,
    ∃ cells, buildMatrix registry profile targetDisposition = .ok cells
  /-- A target that a production role supports has a cell with the role, in each profile. -/
  covers : ∀ r role, member registry "roles" r = some role → isProduction role = true →
    ∀ profile ∈ profiles, ∀ t, declares role "supported_targets" t = true →
      ∀ cells, buildMatrix registry profile "supported" = .ok cells →
        ∃ cell ∈ cells, cell.target = t ∧ r ∈ cell.roles
  /-- A cell comes from a real scenario of the profile; its roles all support its target. -/
  sourced : ∀ profile cells, buildMatrix registry profile "supported" = .ok cells → ∀ cell ∈ cells,
    ∃ scenario, member registry "scenarios" cell.scenario = some scenario ∧
      isReal scenario = true ∧ field scenario "profile" = .str profile ∧
      ∀ r ∈ cell.roles, ∃ role, member registry "roles" r = some role ∧
        isProduction role = true ∧ declares role "supported_targets" cell.target = true
  distinct : ∀ profile targetDisposition cells,
    buildMatrix registry profile targetDisposition = .ok cells →
      cells.Pairwise fun c c' => (c.scenario, c.target) ≠ (c'.scenario, c'.target)
  /-- A cell carries the one image field of its target that is not empty. -/
  pictured : ∀ profile targetDisposition cells,
    buildMatrix registry profile targetDisposition = .ok cells → ∀ cell ∈ cells,
      ∃ target, member registry "targets" cell.target = some target ∧
        imageFields target = [cell.image.1] ∧ field target cell.image.1 = cell.image.2

/-- No target that a production role declares has a key `image` beside an image variable. -/
def ImagesPlain (registry : Fields) : Prop :=
  ∀ r role, member registry "roles" r = some role → isProduction role = true →
    ∀ targetField ∈ targetFields, ∀ t, declares role targetField t = true →
      ∀ target, member registry "targets" t = some target →
        (field target "image_variable").truthy = true → hasField target "image" = false

theorem of_buildMatrix {registry : Fields} {profile targetDisposition : PyStr} {cells : List Cell}
    (h : buildMatrix registry profile targetDisposition = .ok cells) :
    profile ∈ profiles ∧ targetDisposition ∈ dispositions := by
  simp only [buildMatrix, bind_eq_ok, raiseUnless_eq_ok] at h
  obtain ⟨-, hprofile, -, hdisposition, -⟩ := h
  exact ⟨hprofile, hdisposition⟩

section Valid

variable {registry targets roles scenarios : Fields}
  (v : ValidRegistry registry targets roles scenarios)

include v

/-- Each cell is one of the cells of a scenario. -/
theorem cell_origin {profile targetDisposition : PyStr} {cells : List Cell} {cell : Cell}
    (h : buildMatrix registry profile targetDisposition = .ok cells) (hcell : cell ∈ cells) :
    ∃ name scenario part, field scenarios name = .dict scenario ∧ cell ∈ part ∧
      CellsOf targets roles profile targetDisposition name scenario part := by
  obtain ⟨hprofile, hdisposition⟩ := of_buildMatrix h
  obtain ⟨entries, parts, hrun, -, -, hall⟩ := buildMatrix_spec v hprofile hdisposition
  rw [h] at hrun
  cases hrun
  obtain ⟨part, hpart, hmem⟩ := List.mem_flatten.mp hcell
  obtain ⟨e, -, scenario, hfound, hof⟩ := exists_left_of_forall₂ hall hpart
  exact ⟨e.1, scenario, part, hfound, hmem, hof⟩

/-- A target that a production role declares has a cell with the role. -/
theorem exists_cell {profile targetDisposition r t : PyStr} {role : Fields} {cells : List Cell}
    (h : buildMatrix registry profile targetDisposition = .ok cells)
    (hrole : field roles r = .dict role) (hproduction : isProduction role = true)
    (ht : declares role (dispositionField targetDisposition) t = true) :
    ∃ cell ∈ cells, cell.target = t ∧ r ∈ cell.roles := by
  obtain ⟨hprofile, hdisposition⟩ := of_buildMatrix h
  obtain ⟨-, scenarioName, scenario, hruns⟩ :=
    (validRole v hrole).supported hproduction profile hprofile
  obtain ⟨entries, parts, hrun, -, hmem, hall⟩ := buildMatrix_spec v hprofile hdisposition
  rw [h] at hrun
  cases hrun
  obtain ⟨part, hpart, scenario', hfound, hof⟩ :=
    exists_of_forall₂ hall (hmem scenarioName scenario hruns.found)
  obtain rfl : scenario = scenario' := Yaml.dict.inj (hruns.found.symm.trans hfound)
  obtain ⟨cell, hcell, htarget, hr⟩ :=
    hof.covers hruns.profile hruns.real r role hrole hproduction hruns.reports t ht
  exact ⟨cell, List.mem_flatten.mpr ⟨part, hpart, hcell⟩, htarget, hr⟩

theorem distinct_cells {profile targetDisposition : PyStr} {cells : List Cell}
    (h : buildMatrix registry profile targetDisposition = .ok cells) :
    cells.Pairwise fun c c' => (c.scenario, c.target) ≠ (c'.scenario, c'.target) := by
  obtain ⟨hprofile, hdisposition⟩ := of_buildMatrix h
  obtain ⟨entries, parts, hrun, hnodup, -, hall⟩ := buildMatrix_spec v hprofile hdisposition
  rw [h] at hrun
  cases hrun
  clear h
  induction hall with
  | nil => exact List.Pairwise.nil
  | @cons e part entries parts hpart hrest ih =>
    obtain ⟨scenario, -, hof⟩ := hpart
    rw [List.map_cons, List.nodup_cons] at hnodup
    rw [List.flatten_cons, List.pairwise_append]
    refine ⟨?_, ih hnodup.2, ?_⟩
    · refine (List.pairwise_map.mp hof.nodup).imp fun hne heq => hne ?_
      exact (Prod.mk.inj heq).2
    · intro c hc c' hc' heq
      obtain ⟨part', hpart', hmem'⟩ := List.mem_flatten.mp hc'
      obtain ⟨e', he', scenario', -, hof'⟩ := exists_left_of_forall₂ hrest hpart'
      obtain ⟨_, _, hcell⟩ := hof.cell c hc
      obtain ⟨_, _, hcell'⟩ := hof'.cell c' hmem'
      have hname : e.1 = e'.1 := by
        rw [← hcell.scenario_eq, ← hcell'.scenario_eq]
        exact (Prod.mk.inj heq).1
      exact hnodup.1 (hname ▸ List.mem_map_of_mem he')

/-- The image of a cell is the one that was counted, or its target hides it. -/
theorem cell_image {profile targetDisposition : PyStr} {cells : List Cell} {cell : Cell}
    (h : buildMatrix registry profile targetDisposition = .ok cells) (hcell : cell ∈ cells) :
    ∃ target, field targets cell.target = .dict target ∧
      ((imageFields target = [cell.image.1] ∧ field target cell.image.1 = cell.image.2) ↔
        ((field target "image_variable").truthy = true → hasField target "image" = false)) := by
  obtain ⟨name, scenario, part, -, hmem, hof⟩ := cell_origin v h hcell
  obtain ⟨productionRoles, t, hcellOf⟩ := hof.cell cell hmem
  obtain ⟨target, htarget, himage⟩ := hcellOf.image
  obtain ⟨target', htarget', hvalid⟩ := exists_target v (hasField_of_field htarget (by simp))
  rw [htarget] at htarget'
  cases htarget'
  exact ⟨target, hcellOf.target_eq ▸ htarget, cellImage_iff hvalid himage⟩

end Valid

theorem exists_disposition : ∀ targetField ∈ targetFields, ∃ d ∈ dispositions,
    targetField = dispositionField d := by
  decide

/-- An accepted registry is executed if and only if no key `image` hides an image variable. -/
theorem executed_iff (checkout : Checkout) (registry : Fields) (scope : Scope)
    (haccepted : validateRegistry checkout registry scope = .ok []) :
    Executed registry ↔ ImagesPlain registry := by
  obtain ⟨targets, roles, scenarios, v⟩ := valid_of_accepted haccepted
  have hrole : ∀ {r role}, member registry "roles" r = some role ↔ field roles r = .dict role :=
    member_iff v.roles_eq
  have htarget : ∀ {t target}, member registry "targets" t = some target ↔
      field targets t = .dict target := member_iff v.targets_eq
  have hbuilds : ∀ profile ∈ profiles, ∀ targetDisposition ∈ dispositions,
      ∃ cells, buildMatrix registry profile targetDisposition = .ok cells := by
    intro profile hprofile targetDisposition hdisposition
    obtain ⟨entries, parts, hrun, -⟩ := buildMatrix_spec v hprofile hdisposition
    exact ⟨_, hrun⟩
  constructor
  · intro h r role hr hproduction targetField htf t ht target hmember htruthy
    obtain ⟨targetDisposition, hdisposition, rfl⟩ := exists_disposition targetField htf
    obtain ⟨cells, hcells⟩ := hbuilds "tiny" (by decide) targetDisposition hdisposition
    obtain ⟨cell, hcell, rfl, -⟩ := exists_cell v hcells (hrole.mp hr) hproduction ht
    obtain ⟨target', hfound, hiff⟩ := cell_image v hcells hcell
    obtain ⟨target'', hfound', himage⟩ := h.pictured _ _ _ hcells cell hcell
    rw [htarget.mp hmember] at hfound
    cases hfound
    rw [hmember] at hfound'
    cases hfound'
    exact hiff.mp himage htruthy
  · intro hplain
    refine ⟨hbuilds, ?_, ?_, fun _ _ _ h => distinct_cells v h, ?_⟩
    · intro r role hr hproduction profile hprofile t ht cells hcells
      exact exists_cell v hcells (hrole.mp hr) hproduction ht
    · intro profile cells hcells cell hcell
      obtain ⟨name, scenario, part, hfound, hmem, hof⟩ := cell_origin v hcells hcell
      obtain ⟨_, _, hcellOf⟩ := hof.cell cell hmem
      obtain ⟨hself, hreal⟩ := hof.selected (List.ne_nil_of_mem hmem)
      refine ⟨scenario, (member_iff v.scenarios_eq).mpr (hcellOf.scenario_eq ▸ hfound), hreal,
        hself, ?_⟩
      intro r hr
      obtain ⟨role, hfoundRole, h⟩ := (hof.declared cell hmem).2 r hr
      exact ⟨role, hrole.mpr hfoundRole, h⟩
    · intro profile targetDisposition cells hcells cell hcell
      obtain ⟨target, hfound, hiff⟩ := cell_image v hcells hcell
      obtain ⟨name, scenario, part, -, hmem, hof⟩ := cell_origin v hcells hcell
      obtain ⟨hsome, hdeclared⟩ := hof.declared cell hmem
      obtain ⟨r, hr⟩ := List.exists_mem_of_ne_nil _ hsome
      obtain ⟨role, hfoundRole, hproduction, hdeclares⟩ := hdeclared r hr
      refine ⟨target, htarget.mpr hfound, hiff.mpr ?_⟩
      exact hplain r role (hrole.mpr hfoundRole) hproduction _ (dispositionField_mem _) _ hdeclares
        target (htarget.mpr hfound)

/-! ## 6. A key that hides a variable -/

def texts (xs : List PyStr) : Yaml := .list (xs.map .str)

/-- A mapping with texts as keys. -/
def mapping (entries : List (PyStr × Yaml)) : Fields := entries.map fun e => (Key.str e.1, e.2)

def sampleScenario (profile : PyStr) : PyStr × Yaml :=
  ("vault_" ++ profile, .dict (mapping [("profile", .str profile), ("state", .str "supported"),
    ("implementation", .str "real"), ("roles", texts ["vault"]), ("junit", .bool true),
    ("allure", .bool true), ("evidence", .bool true),
    ("test_application", .dict (mapping [("mode", .str "runtime-container"),
      ("reason", .str "The scenario runs the service."), ("dependencies", .list [])]))]))

def sampleRole : Fields :=
  mapping [("component", .str "vault"), ("classification", .str "service"),
    ("maturity", .str "production"), ("supported_targets", texts ["rhel-9"]),
    ("candidate_targets", texts []), ("tiny", .str "supported"), ("heavy", .str "supported"),
    ("application_acceptance", .str "supported"), ("acceptance_surface", .str "api"),
    ("dependencies", texts []), ("external_dependencies", texts []),
    ("known_limitations", texts ["one node"]), ("deprecation_state", .str "active"),
    ("scenario_support", .dict (mapping (profiles.map fun p => (p, texts ["vault_" ++ p]))))]

def sampleTarget (images : List (PyStr × Yaml)) : Fields :=
  mapping (("family", .str "RedHat") :: ("version", .str "9") ::
    ("instance_type", .str "container") ::
    ("runner", texts ["self-hosted", "linux", "x64", "incus"]) :: images)

/-- One production role on one target with the given image fields. -/
def sampleRegistry (images : List (PyStr × Yaml)) : Fields :=
  mapping [("schema_version", .int 1), ("allowed_profile_states", texts requiredProfileStates),
    ("targets", .dict (mapping [("rhel-9", .dict (sampleTarget images))])),
    ("roles", .dict (mapping [("vault", .dict sampleRole)])),
    ("scenarios", .dict (mapping (profiles.map sampleScenario)))]

/-- A checkout in which the files around the registry are in order. -/
def sampleCheckout : Checkout where
  discoveredRoles := .ok ["vault"]
  discoveredScenarios := .ok (profiles.map fun p => "vault_" ++ p)
  roleLocalScenarios := .ok []
  isFile _ := .ok true
  readText _ := .ok (join " " (governanceMarkers ++ governanceTokens))
  load _ := .ok (.ok (.dict (mapping
    [("scenario", .dict (mapping [("test_sequence", texts ["converge", "verify"])]))])))
  declaredPlatforms _ := .ok (.ok [("EL", "9")])
  supportedScenarioStructureErrors _ _ := .ok []
  validateAapOverlay _ := .ok []
  generatedFreshnessErrors _ := .ok []
  claimsSupport _ := false
  lower s := s

def fullScope : Scope := ⟨true, true, true⟩

/-- A registry in which each target has one of the two keys. -/
theorem executed_iff_sample :
    Executed (sampleRegistry [("image_variable", .str "RHEL9_INCUS_IMAGE")]) ↔
      ImagesPlain (sampleRegistry [("image_variable", .str "RHEL9_INCUS_IMAGE")]) :=
  executed_iff sampleCheckout _ fullScope (by decide +kernel)

/-- A registry with an empty `image` beside the image variable. -/
def hiddenRegistry : Fields :=
  sampleRegistry [("image", .str ""), ("image_variable", .str "RHEL9_INCUS_IMAGE")]

/-- The validator accepts the image variable, and the cell carries the empty `image`. -/
theorem hidden_image_variable : ¬ ∀ (checkout : Checkout) (registry : Fields) (scope : Scope),
    validateRegistry checkout registry scope = .ok [] → Executed registry := by
  intro h
  have hexecuted := h sampleCheckout hiddenRegistry fullScope (by decide +kernel)
  have hcells : (buildMatrix hiddenRegistry "tiny" "supported").map
      (fun cells => cells.map fun cell => (cell.target, cell.image.1)) =
        .ok [("rhel-9", "image")] := by decide +kernel
  obtain ⟨cells, hbuild⟩ := hexecuted.builds "tiny" (by decide) "supported" (by decide)
  rw [hbuild] at hcells
  simp only [Except.map, Except.ok.injEq] at hcells
  cases cells with
  | nil => cases hcells
  | cons cell rest =>
    simp only [List.map_cons, List.cons.injEq, Prod.mk.injEq] at hcells
    obtain ⟨⟨htarget, himage⟩, -⟩ := hcells
    obtain ⟨target, hmember, hfields, -⟩ :=
      hexecuted.pictured _ _ _ hbuild cell (List.mem_cons_self ..)
    rw [htarget] at hmember
    rw [himage] at hfields
    have hcounted : (member hiddenRegistry "targets" "rhel-9").map imageFields =
        some ([("image_variable" : PyStr)]) := by decide +kernel
    rw [hmember, Option.map_some, hfields] at hcounted
    revert hcounted
    decide

end Supplementary.Roles
