/-
# The verdict of a matrix cell

`_aggregate_reports` merges the report rows of each role, profile, scenario, target and attempt.  A row
whose logical digest was seen before is skipped, before its Allure results are looked at, so that of two
rows with one digest the one that comes first decides.  `orderFree_iff` says exactly when that does not
matter: what a row contributes must be contributed by all rows of some one digest.
-/
import Supplementary.Lib.Firsts
import Supplementary.Python.Text
import Supplementary.Python.Value
import Mathlib.Data.List.Find
import Mathlib.Algebra.BigOperators.Group.List.Basic

namespace Supplementary.Evidence

open PyStr Firsts

/-! ## 1. Rows -/

/-- `[a-zA-Z0-9_.-]`. -/
def isSlugChar (c : Nat) : Bool :=
  (97 ≤ c && c ≤ 122) || (65 ≤ c && c ≤ 90) || (48 ≤ c && c ≤ 57) || c = 95 || c = 46 || c = 45

/-- `re.sub(r"[^a-zA-Z0-9_.-]+", "-", text)`; `inside` says that a run is being replaced. -/
def dashRuns : (inside : Bool) → List Nat → List Nat
  | _, [] => []
  | inside, c :: rest =>
    if isSlugChar c then c :: dashRuns false rest
    else if inside then dashRuns true rest else 45 :: dashRuns true rest

/-- `text.strip(chars)`, for the characters that `drop` tells. -/
def stripBy (drop : Nat → Bool) (s : List Nat) : List Nat :=
  ((s.dropWhile drop).reverse.dropWhile drop).reverse

/-- `slug(value)`. -/
def slug (s : PyStr) : PyStr :=
  let rendered := stripBy (fun c => c = 45 || c = 46) (dashRuns false (stripBy isSpace s.codePoints))
  if rendered = [] then "unknown" else ⟨rendered⟩

/-- `Identity`. -/
structure Identity where
  role : PyStr
  profile : PyStr
  scenario : PyStr
  target : PyStr
  runAttempt : PyStr
  deriving DecidableEq

/-- `identity.result_key`. -/
def Identity.resultKey (i : Identity) : List PyStr :=
  [i.role, i.profile, i.scenario, i.target, i.runAttempt]

/-- `identity.identifier`. -/
def Identity.identifier (i : Identity) : PyStr :=
  join "/" ([i.role, i.profile, i.scenario, i.target, "attempt-" ++ i.runAttempt].map slug)

/-- The statuses of a report. -/
inductive Status
  | passed
  | skippedWithApprovedJustification
  | failed
  | infrastructureError
  deriving DecidableEq

structure Totals where
  tests : Int
  failures : Int
  errors : Int
  skipped : Int
  deriving DecidableEq

def Totals.add (t u : Totals) : Totals :=
  ⟨t.tests + u.tests, t.failures + u.failures, t.errors + u.errors, t.skipped + u.skipped⟩

/-- What a report has that is read here. -/
structure Report where
  logicalSha256 : Option PyStr
  contentSha256 : Option PyStr
  status : Status
  totals : Totals
  testCases : List Value
  framework : Option PyStr
  meaningful : Option Bool
  infrastructureError : Option PyStr

structure Row where
  identity : Identity
  report : Report
  junit : PyStr
  allureResults : Option (List PyStr)
  allureComplete : Option Bool

/-- `report.get("logical_sha256", report.get("content_sha256", row["junit"]))`. -/
def Row.digest (row : Row) : PyStr :=
  row.report.logicalSha256.getD (row.report.contentSha256.getD row.junit)

/-- `bool(report.get("meaningful"))`. -/
def Row.isMeaningful (row : Row) : Bool := row.report.meaningful.getD false

def unapprovedSkip : PyStr := "mandatory JUnit contains an unapproved skip"

def missingAllure : PyStr := "missing meaningful Allure results for one or more JUnit testcases"

/-- The blockers that a row adds. -/
def Row.blockers (row : Row) : List PyStr :=
  (match row.report.infrastructureError with
    | some text => if text.codePoints = [] then [] else [text]
    | none => []) ++
  (if row.report.status = .failed ∧ row.report.totals.skipped ≠ 0 then [unapprovedSkip] else []) ++
  (if row.allureComplete.getD false then [] else [missingAllure])

/-! ## 2. `_aggregate_reports` -/

/-- A group; `statuses` and the digests of `seen_hashes` are dropped in the end. -/
structure Group where
  id : PyStr
  role : PyStr
  profile : PyStr
  scenario : PyStr
  target : PyStr
  runAttempt : PyStr
  status : Status
  totals : Totals
  testCases : List Value
  junit : List PyStr
  allureResults : List PyStr
  frameworks : List PyStr
  meaningful : Bool
  blockers : List PyStr
  statuses : List Status
  seen : List PyStr

/-- The group of `groups.setdefault`. -/
def Group.start (i : Identity) : Group where
  id := i.identifier
  role := i.role
  profile := i.profile
  scenario := i.scenario
  target := i.target
  runAttempt := i.runAttempt
  status := .passed
  totals := ⟨0, 0, 0, 0⟩
  testCases := []
  junit := []
  allureResults := []
  frameworks := []
  meaningful := true
  blockers := []
  statuses := []
  seen := []

/-- What the body of the loop does to the group of a row. -/
def Group.add (group : Group) (row : Row) : Group :=
  if row.digest ∈ group.seen then group
  else
    { group with
      seen := row.digest :: group.seen
      statuses := group.statuses ++ [row.report.status]
      totals := group.totals.add row.report.totals
      testCases := group.testCases ++ row.report.testCases
      junit := group.junit ++ [row.junit]
      allureResults := group.allureResults ++ row.allureResults.getD []
      frameworks := group.frameworks ++ [row.report.framework.getD "junit"]
      meaningful := group.meaningful && row.isMeaningful
      blockers := group.blockers ++ row.blockers }

/-- `_merge_status(statuses)`. -/
def mergeStatus (statuses : List Status) : Status :=
  if .infrastructureError ∈ statuses then .infrastructureError
  else if .failed ∈ statuses then .failed
  else if .skippedWithApprovedJustification ∈ statuses then .skippedWithApprovedJustification
  else if .passed ∈ statuses then .passed
  else .infrastructureError

/-- `sorted(set(texts))`. -/
def sortedSet (texts : List PyStr) : List PyStr := sorted texts.dedup

/-- What the last loop makes of a group. -/
def Group.finish (group : Group) : Group :=
  let status := mergeStatus group.statuses
  let blockers := sortedSet group.blockers
  { group with
    junit := sortedSet group.junit
    allureResults := sortedSet group.allureResults
    frameworks := sortedSet group.frameworks
    blockers := blockers
    status := if blockers ≠ [] ∧ status = .passed then .failed else status }

/-- The groups with the group of a key set up, if there is none, and changed. -/
def upsert (key : List PyStr) (init : Group) (change : Group → Group) :
    List (List PyStr × Group) → List (List PyStr × Group)
  | [] => [(key, change init)]
  | (k, group) :: groups =>
    if k = key then (k, change group) :: groups else (k, group) :: upsert key init change groups

/-- The first loop. -/
def collect (reportRows : List Row) : List (List PyStr × Group) :=
  reportRows.foldl
    (fun groups row =>
      upsert row.identity.resultKey (Group.start row.identity) (fun group => group.add row) groups) []

/-- The order of tuples of texts. -/
def keyLe : List PyStr → List PyStr → Bool
  | [], _ => true
  | _ :: _, [] => false
  | s :: key, t :: key' => if s = t then keyLe key key' else decide (s.le t)

/-- `_aggregate_reports(report_rows)`. -/
def aggregateReports (reportRows : List Row) : List Group :=
  ((collect reportRows).insertionSort fun a b => keyLe a.1 b.1).map fun entry => entry.2.finish

/-! ## 3. Verdicts -/

/-- What a report says of a cell. -/
@[ext] structure Verdict where
  status : Status
  totals : Totals
  blockers : List PyStr
  meaningful : Bool
  deriving DecidableEq

def Group.verdict (group : Group) : Verdict :=
  ⟨group.status, group.totals, group.blockers, group.meaningful⟩

/-- The key of a result. -/
def Group.key (group : Group) : List PyStr :=
  [group.role, group.profile, group.scenario, group.target, group.runAttempt]

/-- The verdict on a key. -/
def verdictOn (reportRows : List Row) (key : List PyStr) : Option Verdict :=
  ((aggregateReports reportRows).find? fun group => group.key = key).map Group.verdict

/-- The rows of a key. -/
def rowsOf (key : List PyStr) (reportRows : List Row) : List Row :=
  reportRows.filter fun row => row.identity.resultKey = key

/-- A row with nothing to object to. -/
def Row.IsClean (row : Row) : Prop := row.report.status = .passed ∧ row.allureComplete = some true

/-- The law of the verdicts: no order matters, a cell that passed has only rows that passed with
complete Allure results, and no added row makes a cell pass. -/
structure Lawful (reportRows : List Row) : Prop where
  orderFree : ∀ rows, rows.Perm reportRows → ∀ key, verdictOn rows key = verdictOn reportRows key
  clean : ∀ key v, verdictOn reportRows key = some v → v.status = .passed →
    ∀ row ∈ rowsOf key reportRows, row.IsClean
  monotone : ∀ row rows, reportRows.Perm (row :: rows) → ∀ key v v', verdictOn rows key = some v →
    v.status ≠ .passed → verdictOn reportRows key = some v' → v'.status ≠ .passed

/-! ## 4. One group -/

section

variable {rows rows' reps reps' : List Row} {row : Row} {group : Group} {key : List PyStr}

/-- The totals of the rows that count. -/
def sumTotals (reps : List Row) : Totals :=
  ⟨(reps.map fun row => row.report.totals.tests).sum,
    (reps.map fun row => row.report.totals.failures).sum,
    (reps.map fun row => row.report.totals.errors).sum,
    (reps.map fun row => row.report.totals.skipped).sum⟩

/-- The status of a group with those blockers. -/
def finalStatus (blocked : Bool) (status : Status) : Status :=
  if blocked = true ∧ status = .passed then .failed else status

/-- The verdict on the rows that count. -/
def judge (reps : List Row) : Verdict :=
  let blockers := sortedSet (reps.flatMap Row.blockers)
  { status := finalStatus (!blockers.isEmpty) (mergeStatus (reps.map fun row => row.report.status))
    totals := sumTotals reps
    blockers := blockers
    meaningful := reps.all Row.isMeaningful }

/-- The key of a group does not change. -/
@[simp] theorem Group.key_add : (group.add row).key = group.key := by
  unfold Group.add
  split <;> rfl

@[simp] theorem Group.key_start {i : Identity} : (Group.start i).key = i.resultKey := rfl

@[simp] theorem Group.key_finish : group.finish.key = group.key := rfl

theorem Totals.add_assoc (t u v : Totals) : (t.add u).add v = t.add (u.add v) := by
  simp [Totals.add, Int.add_assoc]

theorem sumTotals_cons : sumTotals (row :: reps) = row.report.totals.add (sumTotals reps) := rfl

theorem Totals.add_left_cancel {t u v : Totals} (h : t.add v = u.add v) : t = u := by
  simp only [Totals.add, Totals.mk.injEq] at h
  obtain ⟨h₁, h₂, h₃, h₄⟩ := h
  cases t
  cases u
  simp only [Totals.mk.injEq]
  simp only at h₁ h₂ h₃ h₄
  omega

/-- What the first loop has of a group after some rows: the first row of each digest counts. -/
theorem foldl_add :
    (rows.foldl Group.add group).statuses =
        group.statuses ++ (firstsFrom Row.digest group.seen rows).map (fun row => row.report.status) ∧
      (rows.foldl Group.add group).totals =
        group.totals.add (sumTotals (firstsFrom Row.digest group.seen rows)) ∧
      (rows.foldl Group.add group).meaningful =
        (group.meaningful && (firstsFrom Row.digest group.seen rows).all Row.isMeaningful) ∧
      (rows.foldl Group.add group).blockers =
        group.blockers ++ (firstsFrom Row.digest group.seen rows).flatMap Row.blockers := by
  induction rows generalizing group with
  | nil => simp [firstsFrom, sumTotals, Totals.add]
  | cons row rows ih =>
    rw [List.foldl_cons, firstsFrom]
    by_cases hseen : row.digest ∈ group.seen
    · have hadd : group.add row = group := by
        rw [Group.add, if_pos hseen]
      rw [if_pos hseen, hadd]
      exact ih
    · have hadd : (group.add row).statuses = group.statuses ++ [row.report.status] ∧
          (group.add row).totals = group.totals.add row.report.totals ∧
          (group.add row).meaningful = (group.meaningful && row.isMeaningful) ∧
          (group.add row).blockers = group.blockers ++ row.blockers ∧
          (group.add row).seen = row.digest :: group.seen := by
        rw [Group.add, if_neg hseen]
        exact ⟨rfl, rfl, rfl, rfl, rfl⟩
      obtain ⟨hstatuses, htotals, hmeaningful, hblockers, hseen'⟩ := hadd
      obtain ⟨ih₁, ih₂, ih₃, ih₄⟩ := @ih (group.add row)
      rw [if_neg hseen, ih₁, ih₂, ih₃, ih₄, hstatuses, htotals, hmeaningful, hblockers, hseen',
        sumTotals_cons, ← Totals.add_assoc]
      simp [Bool.and_assoc]

theorem verdict_foldl_start {i : Identity} :
    (rows.foldl Group.add (Group.start i)).finish.verdict = judge (firsts Row.digest rows) := by
  obtain ⟨hstatuses, htotals, hmeaningful, hblockers⟩ := @foldl_add rows (Group.start i)
  have hzero : ∀ t : Totals, Totals.add ⟨0, 0, 0, 0⟩ t = t := by
    intro t
    simp [Totals.add]
  have hsum : (rows.foldl Group.add (Group.start i)).totals = sumTotals (firsts Row.digest rows) :=
    htotals.trans (hzero _)
  have hstatuses' : (rows.foldl Group.add (Group.start i)).statuses =
      (firsts Row.digest rows).map fun row => row.report.status := hstatuses
  have hmeaningful' : (rows.foldl Group.add (Group.start i)).meaningful =
      (firsts Row.digest rows).all Row.isMeaningful := hmeaningful
  have hblockers' : (rows.foldl Group.add (Group.start i)).blockers =
      (firsts Row.digest rows).flatMap Row.blockers := hblockers
  simp only [Group.verdict, Group.finish, judge, finalStatus, hsum, hstatuses', hmeaningful',
    hblockers']
  simp

/-! ## 5. All groups -/

/-- The group of a key. -/
def groupOf (key : List PyStr) (groups : List (List PyStr × Group)) : Option Group :=
  (groups.find? fun entry => entry.1 = key).map Prod.snd

theorem groupOf_upsert {groups : List (List PyStr × Group)} {init : Group} {change : Group → Group}
    (key' : List PyStr) : groupOf key' (upsert key init change groups) =
      if key' = key then some (change ((groupOf key groups).getD init))
      else groupOf key' groups := by
  induction groups with
  | nil =>
    by_cases h : key' = key
    · simp [upsert, groupOf, h]
    · simp [upsert, groupOf, h, Ne.symm h]
  | cons entry groups ih =>
    obtain ⟨k, g⟩ := entry
    rw [upsert]
    by_cases hk : k = key
    · subst hk
      by_cases h : key' = k
      · simp [groupOf, h]
      · simp [groupOf, h, Ne.symm h]
    · rw [if_neg hk]
      by_cases hk' : k = key'
      · subst hk'
        simp [groupOf, hk]
      · simp only [groupOf, List.find?_cons, hk, hk', decide_false] at ih ⊢
        exact ih

theorem map_fst_upsert {groups : List (List PyStr × Group)} {init : Group}
    {change : Group → Group} : (upsert key init change groups).map Prod.fst =
      if key ∈ groups.map Prod.fst then groups.map Prod.fst else groups.map Prod.fst ++ [key] := by
  induction groups with
  | nil => rfl
  | cons entry groups ih =>
    obtain ⟨k, g⟩ := entry
    rw [upsert]
    by_cases hk : k = key
    · simp [hk]
    · rw [if_neg hk, List.map_cons, List.map_cons, ih]
      simp only [List.mem_cons, Ne.symm hk, false_or]
      split
      · rfl
      · rfl

/-- What holds of the groups after each row. -/
theorem collect_spec : ((collect rows).map Prod.fst).Nodup ∧
    ∀ key, (rowsOf key rows = [] → groupOf key (collect rows) = none) ∧
      (rowsOf key rows ≠ [] → ∃ i : Identity, i.resultKey = key ∧
        groupOf key (collect rows) = some ((rowsOf key rows).foldl Group.add (Group.start i))) := by
  induction rows using List.reverseRec with
  | nil => exact ⟨List.nodup_nil, fun key => ⟨fun _ => rfl, fun h => absurd rfl h⟩⟩
  | append_singleton rows row ih =>
    obtain ⟨hnodup, hgroups⟩ := ih
    have hcollect : collect (rows ++ [row]) = upsert row.identity.resultKey
        (Group.start row.identity) (fun group => group.add row) (collect rows) := by
      rw [collect, List.foldl_append]
      rfl
    rw [hcollect]
    constructor
    · rw [map_fst_upsert]
      split
      · exact hnodup
      · next hnot =>
        refine List.Nodup.append hnodup (List.nodup_singleton _) ?_
        simpa using hnot
    · intro key
      rw [groupOf_upsert, rowsOf, List.filter_append]
      by_cases hkey : key = row.identity.resultKey
      · subst hkey
        obtain ⟨hnone, hsome⟩ := hgroups row.identity.resultKey
        rw [rowsOf] at hnone hsome
        constructor
        · intro h
          simp at h
        · intro _
          rw [if_pos rfl]
          by_cases hrows : (rows.filter fun r =>
              decide (r.identity.resultKey = row.identity.resultKey)) = []
          · refine ⟨row.identity, rfl, ?_⟩
            rw [hnone hrows, hrows]
            simp
          · obtain ⟨i, hi, hgroup⟩ := hsome hrows
            refine ⟨i, hi, ?_⟩
            rw [hgroup, List.foldl_append]
            simp
      · have hother : ([row].filter fun r => decide (r.identity.resultKey = key)) = [] := by
          simp [Ne.symm hkey]
        rw [if_neg hkey, hother, List.append_nil]
        exact hgroups key

/-- A key is found in another order as well. -/
theorem find?_of_perm {l l' : List (List PyStr × Group)} (h : l'.Perm l)
    (hnodup : (l.map Prod.fst).Nodup) :
    (l'.find? fun entry => entry.1 = key) = l.find? fun entry => entry.1 = key := by
  cases hfind : l.find? fun entry => decide (entry.1 = key) with
  | none =>
    rw [List.find?_eq_none] at hfind ⊢
    exact fun entry hentry => hfind entry (h.mem_iff.mp hentry)
  | some entry =>
    have hkey := List.find?_some hfind
    have hmem := List.mem_of_find?_eq_some hfind
    cases hfind' : l'.find? fun entry => decide (entry.1 = key) with
    | none =>
      rw [List.find?_eq_none] at hfind'
      exact absurd hkey (hfind' entry (h.mem_iff.mpr hmem))
    | some entry' =>
      have hkey' := List.find?_some hfind'
      have hmem' := h.mem_iff.mp (List.mem_of_find?_eq_some hfind')
      simp only [decide_eq_true_eq] at hkey hkey'
      rw [List.inj_on_of_nodup_map hnodup hmem' hmem (hkey'.trans hkey.symm)]

/-- The verdict on a key is the verdict on its rows, the first of each digest counting. -/
theorem verdictOn_eq (rows : List Row) (key : List PyStr) : verdictOn rows key =
    if rowsOf key rows = [] then none
    else some (judge (firsts Row.digest (rowsOf key rows))) := by
  obtain ⟨hnodup, hgroups⟩ := @collect_spec rows
  have hkeys : ∀ entry ∈ collect rows, entry.2.key = entry.1 := by
    intro entry hentry
    have hfind : groupOf entry.1 (collect rows) = some entry.2 := by
      have hsome : ((collect rows).find? fun e => decide (e.1 = entry.1)) = some entry := by
        cases hfind : (collect rows).find? fun e => decide (e.1 = entry.1) with
        | none =>
          rw [List.find?_eq_none] at hfind
          exact absurd (by simp) (hfind entry hentry)
        | some entry' =>
          have hkey := List.find?_some hfind
          rw [List.inj_on_of_nodup_map hnodup (List.mem_of_find?_eq_some hfind) hentry
            (by simpa using hkey)]
      rw [groupOf, hsome]
      rfl
    obtain ⟨hnone, hsome⟩ := hgroups entry.1
    by_cases hrows : rowsOf entry.1 rows = []
    · rw [hnone hrows] at hfind
      cases hfind
    · obtain ⟨i, hi, hgroup⟩ := hsome hrows
      rw [hgroup, Option.some.injEq] at hfind
      have hkey : ∀ (rs : List Row) (g : Group), (rs.foldl Group.add g).key = g.key := by
        intro rs
        induction rs with
        | nil => exact fun _ => rfl
        | cons r rs ih => exact fun g => (ih (g.add r)).trans Group.key_add
      rw [← hfind, hkey, Group.key_start, hi]
  have hfind : verdictOn rows key =
      (groupOf key (collect rows)).map fun group => group.finish.verdict := by
    rw [verdictOn, aggregateReports, List.find?_map, groupOf]
    have hperm := List.perm_insertionSort (fun a b : List PyStr × Group => keyLe a.1 b.1)
      (collect rows)
    have hcongr : ((collect rows).insertionSort fun a b => keyLe a.1 b.1).find?
          ((fun group => decide (group.key = key)) ∘ fun entry => entry.2.finish) =
        ((collect rows).insertionSort fun a b => keyLe a.1 b.1).find?
          fun entry => decide (entry.1 = key) := by
      refine List.find?_congr fun entry hentry => ?_
      have hkey := hkeys entry (hperm.mem_iff.mp hentry)
      simp [hkey]
    rw [hcongr, find?_of_perm hperm hnodup, Option.map_map, Option.map_map]
    rfl
  obtain ⟨hnone, hsome⟩ := hgroups key
  rw [hfind]
  split
  · next hrows =>
    rw [hnone hrows]
    rfl
  · next hrows =>
    obtain ⟨i, -, hgroup⟩ := hsome hrows
    rw [hgroup, Option.map_some, verdict_foldl_start]

end

/-! ## 6. Sets of texts, and the worst status -/

theorem mem_sortedSet {b : PyStr} {texts : List PyStr} : b ∈ sortedSet texts ↔ b ∈ texts := by
  rw [sortedSet, sorted, List.mem_insertionSort, List.mem_dedup]

theorem sortedSet_eq_nil {texts : List PyStr} : sortedSet texts = [] ↔ texts = [] := by
  rw [List.eq_nil_iff_forall_not_mem, List.eq_nil_iff_forall_not_mem]
  exact forall_congr' fun b => not_congr mem_sortedSet

/-- A set of texts is sorted in one way. -/
theorem sortedSet_congr {texts texts' : List PyStr} (h : ∀ b, b ∈ texts ↔ b ∈ texts') :
    sortedSet texts = sortedSet texts' := by
  refine sorted_congr ?_
  rw [List.perm_ext_iff_of_nodup (List.nodup_dedup _) (List.nodup_dedup _)]
  intro b
  rw [List.mem_dedup, List.mem_dedup, h b]

/-- How bad a status is. -/
def Status.severity : Status → Nat
  | .passed => 0
  | .skippedWithApprovedJustification => 1
  | .failed => 2
  | .infrastructureError => 3

theorem Status.eq_of_severity {s t : Status} (h : s.severity = t.severity) : s = t := by
  cases s <;> cases t <;> first | rfl | cases h

/-- Statuses merge into the worst one. -/
theorem mergeStatus_eq_iff {statuses : List Status} {w : Status} (h : statuses ≠ []) :
    mergeStatus statuses = w ↔ w ∈ statuses ∧ ∀ s ∈ statuses, s.severity ≤ w.severity := by
  have hmem : mergeStatus statuses ∈ statuses ∧
      ∀ s ∈ statuses, s.severity ≤ (mergeStatus statuses).severity := by
    unfold mergeStatus
    split_ifs with h₁ h₂ h₃ h₄
    · refine ⟨h₁, fun s _ => ?_⟩
      cases s <;> decide
    · refine ⟨h₂, fun s hs => ?_⟩
      cases s <;> first | decide | exact absurd hs h₁
    · refine ⟨h₃, fun s hs => ?_⟩
      cases s <;> first | decide | exact absurd hs h₁ | exact absurd hs h₂
    · refine ⟨h₄, fun s hs => ?_⟩
      cases s <;>
        first | decide | exact absurd hs h₁ | exact absurd hs h₂ | exact absurd hs h₃
    · obtain ⟨s, hs⟩ := List.exists_mem_of_ne_nil _ h
      cases s <;> contradiction
  constructor
  · rintro rfl
    exact hmem
  · rintro ⟨hw, hworst⟩
    exact Status.eq_of_severity (Nat.le_antisymm (hworst _ hmem.1) (hmem.2 w hw))

/-! ## 7. When the order does not matter -/

/-- All rows of some digest have the property. -/
def Whole (rows : List Row) (p : Row → Prop) : Prop :=
  ∃ r ∈ rows, ∀ r' ∈ rows, r'.digest = r.digest → p r'

/-- What the rows of a group contribute does not hang on which row of a digest counts: rows of one
digest have the same totals, and each blocker, the lack of meaning and the worst status come from all
rows of some digest.  The status may also be hidden by a blocker, if no row was skipped. -/
structure Settled (rows : List Row) : Prop where
  totals : ∀ r ∈ rows, ∀ r' ∈ rows, r.digest = r'.digest → r.report.totals = r'.report.totals
  blockers : ∀ b, ∀ r ∈ rows, b ∈ r.blockers → Whole rows fun r' => b ∈ r'.blockers
  meaningful : ∀ r ∈ rows, r.isMeaningful = false → Whole rows fun r' => r'.isMeaningful = false
  status : rows ≠ [] →
    (∃ w : Status, (∀ r ∈ rows, r.report.status.severity ≤ w.severity) ∧
        Whole rows fun r => r.report.status = w) ∨
      ((∃ r ∈ rows, r.blockers ≠ []) ∧
        ∀ r ∈ rows, r.report.status = .passed ∨ r.report.status = .failed)

section

variable {rows rows' : List Row} {key : List PyStr}

theorem sumTotals_perm {reps reps' : List Row}
    (h : (reps.map fun r => r.report.totals).Perm (reps'.map fun r => r.report.totals)) :
    sumTotals reps = sumTotals reps' := by
  have hsum : ∀ f : Totals → Int,
      (reps.map fun r => f r.report.totals).sum = (reps'.map fun r => f r.report.totals).sum := by
    intro f
    have hmap := (h.map f).sum_eq
    rw [List.map_map, List.map_map] at hmap
    exact hmap
  rw [sumTotals, sumTotals, hsum Totals.tests, hsum Totals.failures, hsum Totals.errors,
    hsum Totals.skipped]

theorem firsts_ne_nil (h : rows ≠ []) : firsts Row.digest rows ≠ [] := by
  obtain ⟨r, hr⟩ := List.exists_mem_of_ne_nil _ h
  obtain ⟨y, hy, -⟩ := exists_first (κ := Row.digest) hr
  exact List.ne_nil_of_mem hy

/-- Whether a group is blocked. -/
theorem judge_blockers_isEmpty {reps : List Row} :
    (judge reps).blockers.isEmpty = false ↔ ∃ r ∈ reps, r.blockers ≠ [] := by
  rw [judge, List.isEmpty_eq_false_iff, Ne, sortedSet_eq_nil, List.flatMap_eq_nil_iff]
  push Not
  rfl

theorem judge_status {reps : List Row} : (judge reps).status =
    finalStatus (!(judge reps).blockers.isEmpty)
      (mergeStatus (reps.map fun r => r.report.status)) := rfl

theorem all_isMeaningful {reps : List Row} :
    (judge reps).meaningful = false ↔ ∃ r ∈ reps, r.isMeaningful = false := by
  rw [judge, List.all_eq_false]
  simp

/-- The worst status of a whole digest is there in every order. -/
theorem merge_firsts_of_whole {w : Status} (hperm : rows'.Perm rows)
    (hworst : ∀ r ∈ rows, r.report.status.severity ≤ w.severity)
    (hwhole : Whole rows fun r => r.report.status = w) :
    mergeStatus ((firsts Row.digest rows').map fun r => r.report.status) = w := by
  obtain ⟨r, hr, hsame⟩ := hwhole
  obtain ⟨y, hy, hdigest⟩ := exists_first (κ := Row.digest) (hperm.mem_iff.mpr hr)
  have hmem : ∀ z ∈ firsts Row.digest rows', z ∈ rows := fun z hz =>
    hperm.mem_iff.mp (mem_of_mem_firsts hz)
  rw [mergeStatus_eq_iff (List.ne_nil_of_mem (List.mem_map_of_mem hy))]
  constructor
  · exact List.mem_map.mpr ⟨y, hy, hsame y (hmem y hy) hdigest⟩
  · intro s hs
    obtain ⟨z, hz, rfl⟩ := List.mem_map.mp hs
    exact hworst z (hmem z hz)

/-- A blocked group of passed and failed rows has failed. -/
theorem finalStatus_blocked {status : Status} (h : status = .passed ∨ status = .failed) :
    finalStatus true status = .failed := by
  rcases h with rfl | rfl <;> rfl

/-- The verdict on a settled group does not depend on the order. -/
theorem Settled.judge_perm (h : Settled rows) (hperm : rows'.Perm rows) :
    judge (firsts Row.digest rows') = judge (firsts Row.digest rows) := by
  have hblockers : (judge (firsts Row.digest rows')).blockers =
      (judge (firsts Row.digest rows)).blockers := by
    refine sortedSet_congr fun b => ?_
    rw [List.mem_flatMap, List.mem_flatMap, exists_firsts_of_whole (h.blockers b) hperm,
      exists_firsts_of_whole (h.blockers b) (.refl rows)]
  have htotals : (judge (firsts Row.digest rows')).totals =
      (judge (firsts Row.digest rows)).totals := by
    refine sumTotals_perm (perm_map_firsts_of_const (fun r hr r' hr' hdigest => ?_) hperm)
    exact h.totals r (hperm.mem_iff.mp hr) r' (hperm.mem_iff.mp hr') hdigest
  have hmeaningful : (judge (firsts Row.digest rows')).meaningful =
      (judge (firsts Row.digest rows)).meaningful := by
    have hiff : (judge (firsts Row.digest rows')).meaningful = false ↔
        (judge (firsts Row.digest rows)).meaningful = false := by
      rw [all_isMeaningful, all_isMeaningful, exists_firsts_of_whole h.meaningful hperm,
        exists_firsts_of_whole h.meaningful (.refl rows)]
    have hbool : ∀ a b : Bool, (a = false ↔ b = false) → a = b := by decide
    exact hbool _ _ hiff
  have hstatus : (judge (firsts Row.digest rows')).status =
      (judge (firsts Row.digest rows)).status := by
    rw [judge_status, judge_status, hblockers]
    by_cases hrows : rows = []
    · subst hrows
      rw [hperm.eq_nil]
    · rcases h.status hrows with ⟨w, hworst, hwhole⟩ | ⟨⟨r, hr, hblocked⟩, hpassed⟩
      · rw [merge_firsts_of_whole hperm hworst hwhole,
          merge_firsts_of_whole (.refl rows) hworst hwhole]
      · obtain ⟨b, hb⟩ := List.exists_mem_of_ne_nil _ hblocked
        have hsome := (exists_firsts_of_whole (h.blockers b) (.refl rows)).mpr ⟨r, hr, hb⟩
        obtain ⟨y, hy, hyb⟩ := hsome
        rw [judge_blockers_isEmpty.mpr ⟨y, hy, List.ne_nil_of_mem hyb⟩]
        have hmerge : ∀ zs : List Row, zs.Perm rows → finalStatus (!false)
            (mergeStatus ((firsts Row.digest zs).map fun r => r.report.status)) = .failed := by
          intro zs hzs
          refine finalStatus_blocked ?_
          have hne : zs ≠ [] := fun hnil => hrows (by rw [hnil] at hzs; exact hzs.symm.eq_nil)
          have hnemap : ((firsts Row.digest zs).map fun r => r.report.status) ≠ [] := by
            rw [Ne, List.map_eq_nil_iff]
            exact firsts_ne_nil hne
          obtain ⟨z, hz, heq⟩ := List.mem_map.mp ((mergeStatus_eq_iff hnemap).mp rfl).1
          rw [← heq]
          exact hpassed z (hzs.mem_iff.mp (mem_of_mem_firsts hz))
        rw [hmerge _ hperm, hmerge _ (.refl rows)]
  exact Verdict.ext hstatus htotals hblockers hmeaningful

/-- A blocker hides only a failure. -/
theorem failed_of_hidden {w m : Status} (h : finalStatus true w = finalStatus true m)
    (hne : m ≠ w) (hle : m.severity ≤ w.severity) : w = .failed := by
  cases w <;> cases m <;> first
    | rfl
    | exact absurd rfl hne
    | exact absurd hle (by decide)
    | exact absurd h (by decide)

theorem skipped_of_severity {s : Status} (h : s.severity ≤ Status.failed.severity)
    (hpassed : s ≠ .passed) (hfailed : s ≠ .failed) : s = .skippedWithApprovedJustification := by
  cases s with
  | passed => exact absurd rfl hpassed
  | skippedWithApprovedJustification => rfl
  | failed => exact absurd rfl hfailed
  | infrastructureError => exact absurd h (by decide)

theorem severity_le_skipped {s : Status} (h : s.severity ≤ Status.failed.severity)
    (hfailed : s ≠ .failed) :
    s.severity ≤ Status.skippedWithApprovedJustification.severity := by
  cases s with
  | failed => exact absurd rfl hfailed
  | infrastructureError => exact absurd h (by decide)
  | _ => decide

/-- Rows of one digest have the same totals, or swapping them tells. -/
theorem totals_eq_of_stable
    (h : ∀ rows', rows'.Perm rows →
      judge (firsts Row.digest rows') = judge (firsts Row.digest rows))
    {r r' : Row} (hr : r ∈ rows) (hr' : r' ∈ rows) (hdigest : r.digest = r'.digest) :
    r.report.totals = r'.report.totals := by
  by_cases hsame : r = r'
  · rw [hsame]
  · obtain ⟨l₁, l₂, rfl⟩ := List.append_of_mem hr
    have hrest : r' ∈ l₁ ++ l₂ := by
      simp only [List.mem_append, List.mem_cons, Ne.symm hsame, false_or] at hr' ⊢
      exact hr'
    obtain ⟨k₁, k₂, hk⟩ := List.append_of_mem hrest
    have hfirst : (r :: r' :: (k₁ ++ k₂)).Perm (l₁ ++ r :: l₂) := by
      refine .trans ?_ List.perm_middle.symm
      rw [hk]
      exact List.perm_middle.symm.cons r
    have hsecond := (List.Perm.swap r r' (k₁ ++ k₂)).trans hfirst
    obtain ⟨reps, hreps, hreps'⟩ := firsts_swap (κ := Row.digest) (x := r) (y := r') hdigest
    have htotals := congrArg Verdict.totals ((h _ hfirst).trans (h _ hsecond).symm)
    rw [hreps, hreps'] at htotals
    exact Totals.add_left_cancel (v := sumTotals reps) htotals

/-- The worst status comes from all rows of some digest, or a blocker hides it. -/
theorem status_of_stable
    (h : ∀ rows', rows'.Perm rows →
      judge (firsts Row.digest rows') = judge (firsts Row.digest rows)) (hrows : rows ≠ []) :
    (∃ w : Status, (∀ r ∈ rows, r.report.status.severity ≤ w.severity) ∧
        Whole rows fun r => r.report.status = w) ∨
      ((∃ r ∈ rows, r.blockers ≠ []) ∧
        ∀ r ∈ rows, r.report.status = .passed ∨ r.report.status = .failed) := by
  have hstatuses : (rows.map fun r => r.report.status) ≠ [] := by
    rwa [Ne, List.map_eq_nil_iff]
  obtain ⟨w, hw⟩ : ∃ w, mergeStatus (rows.map fun r => r.report.status) = w := ⟨_, rfl⟩
  obtain ⟨hmem, hbound⟩ := (mergeStatus_eq_iff hstatuses).mp hw
  obtain ⟨r₁, hr₁, hr₁w⟩ := List.mem_map.mp hmem
  have hworst : ∀ r ∈ rows, r.report.status.severity ≤ w.severity :=
    fun r hr => hbound _ (List.mem_map_of_mem hr)
  by_cases hwhole : Whole rows fun r => r.report.status = w
  · exact .inl ⟨w, hworst, hwhole⟩
  · right
    -- the worst status in front, and last
    let p : Row → Bool := fun r => decide (r.report.status = w)
    have hfront : (rows.filter p ++ rows.filter fun r => !p r).Perm rows :=
      List.filter_append_perm p rows
    have hback : (rows.filter (fun r => !p r) ++ rows.filter fun r => !!p r).Perm rows :=
      List.filter_append_perm (fun r => !p r) rows
    have hmerged : ∀ zs : List Row, zs.Perm rows → ∀ m,
        mergeStatus ((firsts Row.digest zs).map fun r => r.report.status) = m ↔
          (∃ y ∈ firsts Row.digest zs, y.report.status = m) ∧
            ∀ y ∈ firsts Row.digest zs, y.report.status.severity ≤ m.severity := by
      intro zs hzs m
      have hne : zs ≠ [] := fun hnil => hrows (by rw [hnil] at hzs; exact hzs.symm.eq_nil)
      rw [mergeStatus_eq_iff (by rw [Ne, List.map_eq_nil_iff]; exact firsts_ne_nil hne),
        List.mem_map, List.forall_mem_map]
    have hin : ∀ {zs : List Row}, zs.Perm rows → ∀ y ∈ firsts Row.digest zs, y ∈ rows :=
      fun hzs y hy => hzs.mem_iff.mp (mem_of_mem_firsts hy)
    have hfrontw : mergeStatus ((firsts Row.digest
        (rows.filter p ++ rows.filter fun r => !p r)).map fun r => r.report.status) = w := by
      rw [hmerged _ hfront]
      obtain ⟨y, hy, -, hyp⟩ := exists_first_front (κ := Row.digest) p rfl hr₁ (by simp [p, hr₁w])
      exact ⟨⟨y, hy, by simpa [p] using hyp⟩, fun z hz => hworst z (hin hfront z hz)⟩
    obtain ⟨m, hm⟩ : ∃ m, mergeStatus ((firsts Row.digest
        (rows.filter (fun r => !p r) ++ rows.filter fun r => !!p r)).map
          fun r => r.report.status) = m := ⟨_, rfl⟩
    have hmw : m ≠ w := by
      rintro rfl
      obtain ⟨⟨y, hy, hym⟩, -⟩ := (hmerged _ hback m).mp hm
      refine hwhole ⟨y, hin hback y hy, fun z hz hdigest => ?_⟩
      have hnot := not_of_firsts_front (fun r => !p r) rfl hy (by simp [p, hym]) hz hdigest
      simpa [p] using hnot
    obtain ⟨⟨y, hy, hym⟩, -⟩ := (hmerged _ hback m).mp hm
    have hle := hworst y (hin hback y hy)
    rw [hym] at hle
    -- both orders have the same blockers and the same final status
    have hfinal : finalStatus (!(judge (firsts Row.digest rows)).blockers.isEmpty) w =
        finalStatus (!(judge (firsts Row.digest rows)).blockers.isEmpty) m := by
      have hstatus := congrArg Verdict.status ((h _ hfront).trans (h _ hback).symm)
      rw [judge_status, judge_status, hfrontw, hm, h _ hfront, h _ hback] at hstatus
      exact hstatus
    cases hblocked : (judge (firsts Row.digest rows)).blockers.isEmpty with
    | true =>
      rw [hblocked] at hfinal
      simp only [finalStatus, Bool.not_true, Bool.false_eq_true, false_and, if_false] at hfinal
      exact absurd hfinal.symm hmw
    | false =>
      rw [hblocked] at hfinal
      have hfailed : w = .failed := failed_of_hidden hfinal hmw hle
      subst hfailed
      obtain ⟨y', hy', hyb⟩ := judge_blockers_isEmpty.mp hblocked
      refine ⟨⟨y', mem_of_mem_firsts hy', hyb⟩, fun r₀ hr₀ => ?_⟩
      by_contra hskipped
      have hskip : r₀.report.status = .skippedWithApprovedJustification := by
        rw [not_or] at hskipped
        exact skipped_of_severity (hworst r₀ hr₀) hskipped.1 hskipped.2
      -- a skipped row in front, then what did not fail
      obtain ⟨l₁, l₂, hsplit⟩ := List.append_of_mem hr₀
      have hfirst : (r₀ :: (l₁ ++ l₂)).Perm rows := by
        rw [hsplit]
        exact List.perm_middle.symm
      have hthird := (List.filter_append_perm (fun r => !p r) (r₀ :: (l₁ ++ l₂))).trans hfirst
      have hhead : r₀ ∈ firsts Row.digest ((r₀ :: (l₁ ++ l₂)).filter (fun r => !p r) ++
          (r₀ :: (l₁ ++ l₂)).filter fun r => !!p r) := by
        refine mem_firsts.mpr ⟨[], (l₁ ++ l₂).filter (fun r => !p r) ++
          (r₀ :: (l₁ ++ l₂)).filter (fun r => !!p r), ?_, by simp⟩
        rw [List.filter_cons_of_pos (by simp [p, hskip])]
        rfl
      have hskippedAll : mergeStatus ((firsts Row.digest
          ((r₀ :: (l₁ ++ l₂)).filter (fun r => !p r) ++
            (r₀ :: (l₁ ++ l₂)).filter fun r => !!p r)).map fun r => r.report.status) =
          .skippedWithApprovedJustification := by
        rw [hmerged _ hthird]
        refine ⟨⟨r₀, hhead, hskip⟩, fun z hz => ?_⟩
        have hzrows := hin hthird z hz
        have hzw : z.report.status ≠ .failed := by
          intro hzw
          refine hwhole ⟨z, hzrows, fun z' hz' hdigest => ?_⟩
          have hnot := not_of_firsts_front (fun r => !p r) rfl hz (by simp [p, hzw])
            (hfirst.mem_iff.mpr hz') hdigest
          simpa [p] using hnot
        exact severity_le_skipped (hworst z hzrows) hzw
      have hstatus := congrArg Verdict.status ((h _ hthird).trans (h _ hfront).symm)
      rw [judge_status, judge_status, hfrontw, hskippedAll, h _ hfront, h _ hthird, hblocked]
        at hstatus
      cases hstatus

theorem settled_of_stable
    (h : ∀ rows', rows'.Perm rows →
      judge (firsts Row.digest rows') = judge (firsts Row.digest rows)) : Settled rows where
  totals := fun _ hr _ hr' hdigest => totals_eq_of_stable h hr hr' hdigest
  blockers := by
    intro b r hr hb
    have hstable : ∀ ys, ys.Perm rows →
        ((∃ x ∈ firsts Row.digest ys, decide (b ∈ x.blockers) = true) ↔
          ∃ x ∈ firsts Row.digest rows, decide (b ∈ x.blockers) = true) := by
      intro ys hys
      have hmem : ∀ zs, (∃ x ∈ firsts Row.digest zs, decide (b ∈ x.blockers) = true) ↔
          b ∈ (judge (firsts Row.digest zs)).blockers := by
        intro zs
        rw [judge, mem_sortedSet, List.mem_flatMap]
        simp
      rw [hmem, hmem, h ys hys]
    obtain ⟨y, hy, hwhole⟩ := whole_of_stable _ hstable hr (by simpa using hb)
    exact ⟨y, hy, fun z hz hdigest => by simpa using hwhole z hz hdigest⟩
  meaningful := by
    intro r hr hnot
    have hstable : ∀ ys, ys.Perm rows →
        ((∃ x ∈ firsts Row.digest ys, (!x.isMeaningful) = true) ↔
          ∃ x ∈ firsts Row.digest rows, (!x.isMeaningful) = true) := by
      intro ys hys
      simp only [Bool.not_eq_true']
      rw [← all_isMeaningful, ← all_isMeaningful, h ys hys]
    obtain ⟨y, hy, hwhole⟩ := whole_of_stable _ hstable hr (by simpa using hnot)
    exact ⟨y, hy, fun z hz hdigest => by simpa using hwhole z hz hdigest⟩
  status := status_of_stable h

/-- A row without blockers has its Allure results. -/
theorem allureComplete_of_blockers {row : Row} (h : row.blockers = []) :
    row.allureComplete = some true := by
  rw [Row.blockers, List.append_eq_nil_iff] at h
  have hallure := h.2
  split at hallure
  · next hcomplete =>
    cases hrow : row.allureComplete with
    | none =>
      rw [hrow] at hcomplete
      cases hcomplete
    | some complete =>
      rw [hrow] at hcomplete
      exact congrArg some hcomplete
  · cases hallure

/-- A settled group that passed has nothing to object to in any row. -/
theorem Settled.of_passed (h : Settled rows) (hrows : rows ≠ [])
    (hpassed : (judge (firsts Row.digest rows)).status = .passed) :
    ∀ r ∈ rows, r.report.status = .passed ∧ r.blockers = [] := by
  have hunblocked : (judge (firsts Row.digest rows)).blockers.isEmpty = true := by
    by_contra hblocked
    rw [Bool.not_eq_true] at hblocked
    rw [judge_status, hblocked] at hpassed
    unfold finalStatus at hpassed
    split at hpassed
    · cases hpassed
    · next hnot => exact hnot ⟨rfl, hpassed⟩
  have hmerged : mergeStatus ((firsts Row.digest rows).map fun r => r.report.status) = .passed := by
    rw [judge_status, hunblocked] at hpassed
    exact hpassed
  have hnone : ∀ r ∈ rows, r.blockers = [] := by
    intro r hr
    rw [List.eq_nil_iff_forall_not_mem]
    intro b hb
    obtain ⟨y, hy, hyb⟩ := (exists_firsts_of_whole (h.blockers b) (.refl rows)).mpr ⟨r, hr, hb⟩
    have hblocked := judge_blockers_isEmpty.mpr ⟨y, hy, List.ne_nil_of_mem hyb⟩
    rw [hunblocked] at hblocked
    cases hblocked
  intro r hr
  refine ⟨?_, hnone r hr⟩
  rcases h.status hrows with ⟨w, hworst, hwhole⟩ | ⟨⟨r', hr', hblocked⟩, -⟩
  · rw [merge_firsts_of_whole (.refl rows) hworst hwhole] at hmerged
    subst hmerged
    exact Status.eq_of_severity (Nat.le_zero.mp (hworst r hr))
  · exact absurd (hnone r' hr') hblocked

/-- Rows without anything to object to pass. -/
theorem judge_passed (hrows : rows ≠ [])
    (h : ∀ r ∈ rows, r.report.status = .passed ∧ r.blockers = []) :
    (judge (firsts Row.digest rows)).status = .passed := by
  have hworst : ∀ r ∈ rows, r.report.status.severity ≤ Status.passed.severity := by
    intro r hr
    rw [(h r hr).1]
  obtain ⟨r, hr⟩ := List.exists_mem_of_ne_nil _ hrows
  have hmerged := merge_firsts_of_whole (.refl rows) hworst ⟨r, hr, fun r' hr' _ => (h r' hr').1⟩
  have hunblocked : (judge (firsts Row.digest rows)).blockers.isEmpty = true := by
    by_contra hblocked
    rw [Bool.not_eq_true, judge_blockers_isEmpty] at hblocked
    obtain ⟨y, hy, hne⟩ := hblocked
    exact hne (h y (mem_of_mem_firsts hy)).2
  rw [judge_status, hmerged, hunblocked]
  rfl

/-- The order of all rows matters where the order of the rows of a key does. -/
theorem judge_perm_of_orderFree
    (h : ∀ zs, zs.Perm rows → ∀ key, verdictOn zs key = verdictOn rows key)
    (hperm : rows'.Perm (rowsOf key rows)) :
    judge (firsts Row.digest rows') = judge (firsts Row.digest (rowsOf key rows)) := by
  have hkey : ∀ r ∈ rows', r.identity.resultKey = key := by
    intro r hr
    simpa using (List.mem_filter.mp (hperm.mem_iff.mp hr)).2
  let others := rows.filter fun r => !decide (r.identity.resultKey = key)
  have hall : (rows' ++ others).Perm rows :=
    (hperm.append_right others).trans (List.filter_append_perm _ rows)
  have hrows' : rowsOf key (rows' ++ others) = rows' := by
    have hsame : rows'.filter (fun r => decide (r.identity.resultKey = key)) = rows' := by
      rw [List.filter_eq_self]
      intro r hr
      simpa using hkey r hr
    have hnone : others.filter (fun r => decide (r.identity.resultKey = key)) = [] := by
      rw [List.filter_eq_nil_iff]
      intro r hr
      simpa using (List.mem_filter.mp hr).2
    rw [rowsOf, List.filter_append, hsame, hnone, List.append_nil]
  have hverdict := h _ hall key
  rw [verdictOn_eq, verdictOn_eq, hrows'] at hverdict
  by_cases hnil : rowsOf key rows = []
  · rw [hnil] at hperm ⊢
    rw [hperm.eq_nil]
  · have hnil' : rows' ≠ [] := fun heq => hnil (by rw [heq] at hperm; exact hperm.symm.eq_nil)
    rw [if_neg hnil, if_neg hnil'] at hverdict
    exact Option.some.inj hverdict

/-- **When the law of the verdicts holds.**  For every list of rows: no order matters, a cell passes
only if all its rows are clean and an added row never makes it pass, if and only if the rows of each
key are settled. -/
theorem lawful_iff (reportRows : List Row) :
    Lawful reportRows ↔ ∀ key, Settled (rowsOf key reportRows) := by
  constructor
  · intro h key
    exact settled_of_stable fun rows' hperm => judge_perm_of_orderFree h.orderFree hperm
  · intro h
    refine ⟨fun rows hperm key => ?_, fun key v hv hpassed row hrow => ?_, ?_⟩
    · have hrows : (rowsOf key rows).Perm (rowsOf key reportRows) := hperm.filter _
      rw [verdictOn_eq, verdictOn_eq, (h key).judge_perm hrows]
      by_cases hnil : rowsOf key reportRows = []
      · rw [hnil] at hrows
        rw [if_pos hnil, if_pos hrows.eq_nil]
      · rw [if_neg hnil, if_neg fun heq => hnil (by rw [heq] at hrows; exact hrows.symm.eq_nil)]
    · have hne := List.ne_nil_of_mem hrow
      rw [verdictOn_eq, if_neg hne, Option.some.injEq] at hv
      subst hv
      obtain ⟨hstatus, hblockers⟩ := (h key).of_passed hne hpassed row hrow
      exact ⟨hstatus, allureComplete_of_blockers hblockers⟩
    · intro row rows hperm key v v' hv hnot hv' hpassed
      have hsub : ∀ r ∈ rowsOf key rows, r ∈ rowsOf key reportRows := by
        intro r hr
        have hr' := List.mem_filter.mp hr
        exact List.mem_filter.mpr ⟨hperm.mem_iff.mpr (List.mem_cons_of_mem _ hr'.1), hr'.2⟩
      rw [verdictOn_eq] at hv hv'
      split at hv
      · cases hv
      · next hrows =>
        obtain ⟨r, hr⟩ := List.exists_mem_of_ne_nil _ hrows
        have hne := List.ne_nil_of_mem (hsub r hr)
        rw [if_neg hne, Option.some.injEq] at hv'
        rw [Option.some.injEq] at hv
        subst hv hv'
        have hclean := (h key).of_passed hne hpassed
        exact hnot (judge_passed hrows fun r hr => hclean r (hsub r hr))

end

/-! ## 8. Two copies of a report -/

/-- A report that passed, with or without its Allure results. -/
def copy (junit : PyStr) (allureComplete : Bool) : Row where
  identity := ⟨"keycloak", "tiny", "default", "ubuntu", "1"⟩
  report :=
    { logicalSha256 := some "ab12"
      contentSha256 := none
      status := .passed
      totals := ⟨1, 0, 0, 0⟩
      testCases := []
      framework := some "pytest"
      meaningful := some true
      infrastructureError := none }
  junit := junit
  allureResults := some []
  allureComplete := some allureComplete

/-- Of two copies of one report the first decides. -/
theorem not_lawful_copies : ¬ Lawful [copy "junit/a.xml" true, copy "junit/b.xml" false] := by
  intro h
  have horder := h.orderFree [copy "junit/b.xml" false, copy "junit/a.xml" true]
    (List.Perm.swap _ _ _) (copy "junit/a.xml" true).identity.resultKey
  rw [verdictOn_eq, verdictOn_eq] at horder
  have hstatus := congrArg (Option.map Verdict.status) horder
  revert hstatus
  decide

end Supplementary.Evidence
