/-
# The release gate

`assemble` turns the report rows into results, marks every mandatory cell, collects the blockers, redacts
the manifest and asks `_manifest_logic_failures` whether there is anything to object to.  A cell that had
no report gets one that failed.  What the files of the stage are checked for is an input here: the texts
of those checks, the summary of the secret scan and the security evidence.

`gate_sound`: where nothing is objected to, every row that counts passed with its Allure results, and
every mandatory role of every cell has a report of its own.
-/
import Supplementary.Evidence.Redaction
import Supplementary.Evidence.Verdict
import Supplementary.Python.Access
import Supplementary.Python.Token

namespace Supplementary.Evidence

open PyStr Firsts

/-! ## 1. Results -/

/-- The text of a status. -/
def Status.text : Status → PyStr
  | .passed => "passed"
  | .skippedWithApprovedJustification => "skipped-with-approved-justification"
  | .failed => "failed"
  | .infrastructureError => "infrastructure-error"

def texts (items : List PyStr) : Value := .list (items.map .str)

def Totals.toValue (t : Totals) : Value :=
  .dict [("tests", .int t.tests), ("failures", .int t.failures), ("errors", .int t.errors),
    ("skipped", .int t.skipped)]

/-- A result as it is in the manifest. -/
def Group.toValue (g : Group) : Value :=
  .dict [("id", .str g.id), ("role", .str g.role), ("profile", .str g.profile),
    ("scenario", .str g.scenario), ("target", .str g.target), ("run_attempt", .str g.runAttempt),
    ("totals", g.totals.toValue), ("test_cases", .list g.testCases), ("junit", texts g.junit),
    ("frameworks", texts g.frameworks), ("blockers", texts g.blockers),
    ("allure_results", texts g.allureResults), ("meaningful", .bool g.meaningful),
    ("status", .str g.status.text)]

/-! ## 2. Mandatory cells -/

/-- A mandatory cell of the matrix. -/
structure Cell where
  scenario : PyStr
  profile : PyStr
  target : PyStr
  runAttempt : PyStr
  roles : List PyStr

/-- `Identity(role, cell["profile"], cell["scenario"], cell["target"], cell["run_attempt"])`. -/
def Cell.identity (cell : Cell) (role : PyStr) : Identity :=
  ⟨role, cell.profile, cell.scenario, cell.target, cell.runAttempt⟩

/-- A cell that was evaluated. -/
structure EvaluatedCell where
  cell : Cell
  actualResultIds : List PyStr
  status : PyStr

def EvaluatedCell.toValue (e : EvaluatedCell) : Value :=
  .dict [("profile", .str e.cell.profile), ("roles", texts e.cell.roles), ("required", .bool true),
    ("actual_result_ids", texts e.actualResultIds), ("scenario", .str e.cell.scenario),
    ("target", .str e.cell.target), ("run_attempt", .str e.cell.runAttempt), ("status", .str e.status)]

/-- The results of a cell. -/
def Cell.matching (cell : Cell) (actual : List Group) : List Group :=
  actual.filter fun item => item.scenario = cell.scenario ∧ item.profile = cell.profile ∧
    item.target = cell.target ∧ item.runAttempt = cell.runAttempt

/-- The roles of a cell that no result of it passed for. -/
def Cell.missingRoles (cell : Cell) (actual : List Group) : List PyStr :=
  cell.roles.filter fun role =>
    !(cell.matching actual).any fun item => item.role = role ∧ item.status = .passed

def Cell.isPassed (cell : Cell) (actual : List Group) : Bool :=
  (cell.missingRoles actual).isEmpty && (cell.matching actual).all fun item => item.status = .passed

/-- What the body of the loop makes of a cell. -/
def Cell.evaluate (cell : Cell) (actual : List Group) : EvaluatedCell where
  cell := cell
  actualResultIds := sorted ((cell.matching actual).map Group.id)
  status := if cell.isPassed actual then "passed"
    else if (cell.matching actual).isEmpty then "infrastructure-error" else "failed"

/-- The blocker of a cell, if roles are missing. -/
def Cell.blockers (cell : Cell) (actual : List Group) : List PyStr :=
  if cell.isPassed actual ∨ cell.missingRoles actual = [] then []
  else ["mandatory cell " ++ cell.scenario ++ "/" ++ cell.target ++ "/attempt-" ++ cell.runAttempt ++
    " has no passing evidence for roles: " ++ join ", " (sortedSet (cell.missingRoles actual))]

/-- `_evaluate_expected(expected, actual)`: the cells, and the blockers. -/
def evaluateExpected (expected : List Cell) (actual : List Group) : List EvaluatedCell × List PyStr :=
  (expected.map fun cell => cell.evaluate actual, expected.flatMap fun cell => cell.blockers actual)

/-! ## 3. `_manifest_logic_failures` -/

/-- What is fixed for the interpreter: `str(value)` of what is no text, and `str.lower`. -/
structure Texts where
  render : Value → PyStr
  lower : PyStr → PyStr

/-- `str(value)`. -/
def Texts.str (t : Texts) : Value → PyStr
  | .str s => s
  | value => t.render value

/-- `_valid_commit(value)`. -/
def validCommit (value : PyStr) : Bool := PyStr.isHex 40 value || PyStr.isHex 64 value

def allowedResultStatuses : List PyStr :=
  ["passed", "failed", "skipped-with-approved-justification", "not-applicable", "infrastructure-error",
    "blocked-external-service", "blocked-external-license", "blocked-external-infrastructure"]

def mandatoryPrerequisites : List PyStr :=
  ["lint", "build", "coverage", "tiny", "heavy", "acceptance", "cleanup", "destroy"]

/-- `[message]` if a condition holds. -/
def failing (condition : Bool) (message : PyStr) : List PyStr := if condition then [message] else []

/-- `text.strip()`. -/
def stripped (s : PyStr) : List Nat := stripBy isSpace s.codePoints

variable (t : Texts)

/-- The failures of the identity of a result. -/
def identityFailures (label : PyStr) (item : Value) (key : PyStr) : List PyStr :=
  let value := stripped (t.str (item.getD key (.str "")))
  if value = [] then ["result " ++ label ++ " lacks " ++ key ++ " identity"]
  else failing ((key = "role" ∨ key = "profile" ∨ key = "target") ∧
    (t.lower ⟨value⟩).codePoints = ("unknown" : PyStr).codePoints)
      ("result " ++ label ++ " has unknown " ++ key ++ " identity")

/-- The failures of a result. -/
def resultFailures (item : Value) : List PyStr :=
  if item.isDict then
    let label := t.str (item.getD "id" (.str "<unknown>"))
    let status := item.get "status"
    failing (!status.isTextOf allowedResultStatuses)
        ("result " ++ label ++ " has disallowed status " ++ t.str status) ++
      failing (!status.isText "passed") ("result " ++ label ++ " did not pass") ++
      (["role", "profile", "scenario", "target", "run_attempt"].flatMap fun key =>
        identityFailures t label item key) ++
      failing (!(item.get "meaningful").truthy) ("result " ++ label ++ " is an opaque process result") ++
      failing (!(item.get "allure_results").truthy) ("result " ++ label ++ " lacks Allure results")
  else ["invalid result record"]

/-- The failure of a cell. -/
def cellFailures (cell : Value) : List PyStr :=
  let field (key : PyStr) : PyStr := if cell.isDict then t.str (cell.get key) else "<invalid>"
  failing (!(cell.isDict && (cell.get "status").isText "passed"))
    ("mandatory matrix cell " ++ field "scenario" ++ "/" ++ field "target" ++ "/attempt-" ++
      field "run_attempt" ++ " did not pass")

/-- The items of a list, of anything else none. -/
def itemsOf : Value → List Value
  | .list items => items
  | _ => []

/-- A dict, or an empty one. -/
def dictOf (value : Value) : Value := if value.isDict then value else .dict []

/-- `matrix.get("expected", [])` of `manifest.get("matrix")`. -/
def expectedMatrix (manifest : Value) : List Value := itemsOf ((dictOf (manifest.get "matrix")).get "expected")

/-- What only a release is asked for. -/
def releaseFailures (manifest security : Value) : List PyStr :=
  failing ((security.get "missing").truthy || !(security.get "semantic_valid").isTrue)
      "release security evidence is incomplete or invalid" ++
    failing (!(security.get "candidate_sha256").truthy)
      "release security evidence is not bound to a candidate digest" ++
    failing (security.getD "vulnerability_blocking_findings" (.int 0)).truthy
      "release security evidence has blocking vulnerabilities" ++
    failing (!(manifest.get "support_classification").isText "from-role-coverage-registry")
      "release evidence is not registry-backed" ++
    failing (expectedMatrix manifest).isEmpty "release evidence has an empty expected matrix"

/-- The failures of the prerequisites. -/
def prerequisiteFailures (prerequisites : Value) : List PyStr :=
  match prerequisites with
  | .dict entries =>
    failing (!entries.isEmpty && !(prerequisites.hasKeys mandatoryPrerequisites))
        "mandatory prerequisite status names are incomplete or unknown" ++
      entries.flatMap fun e => failing (!e.2.isText "success")
        ("mandatory prerequisite " ++ e.1 ++ " did not succeed")
  | _ => ["mandatory prerequisite statuses are invalid"]

/-- `_manifest_logic_failures(manifest, release_mode=release_mode)`. -/
def manifestLogicFailures (releaseMode : Bool) (manifest : Value) : List PyStr :=
  let results := itemsOf (manifest.get "results")
  let scan := dictOf (manifest.get "secret_scan")
  let security := dictOf (manifest.get "security_evidence")
  let commit := t.str (manifest.getD "commit_sha" (.str ""))
  sortedSet (
    failing results.isEmpty "no executed test results" ++
    results.flatMap (resultFailures t) ++
    (expectedMatrix manifest).flatMap (cellFailures t) ++
    ((itemsOf (manifest.get "blockers")).filter Value.truthy).map t.str ++
    failing (!(scan.get "clean").isTrue || (scan.get "findings").truthy || (scan.get "errors").truthy)
      "final evidence secret scan is not clean" ++
    (if releaseMode then releaseFailures manifest security else []) ++
    failing (security.getD "external_secret_findings" (.int 0)).truthy
      "external secret scan has findings" ++
    failing (!(manifest.get "commit_consistent").isTrue || !validCommit commit ||
      commit ≠ t.str (manifest.getD "expected_commit_sha" (.str "")))
      "tested commit identity is inconsistent" ++
    prerequisiteFailures (manifest.getD "prerequisites" (.dict [])))

/-! ## 4. `assemble` -/

/-- What `assemble` has found out when it comes to the results. -/
structure Findings where
  reportRows : List Row
  expected : List Cell
  /-- `_fallback_junit` for an identity: the file it wrote, and how it was parsed again. -/
  fallbackJunit : Identity → PyStr × Report
  /-- The Allure results that were generated for it. -/
  fallbackAllure : Identity → List PyStr
  registryErrors : List PyStr
  parseFailures : List PyStr
  testCommitFailures : List PyStr
  securityErrors : List PyStr
  dependencyErrors : List PyStr
  prerequisiteErrors : List PyStr
  commitSha : PyStr
  expectedCommit : PyStr
  commitConsistent : Bool
  prerequisites : List (PyStr × PyStr)
  scanSummary : Value
  scanClean : Bool
  securityEvidence : Value
  registered : Bool
  /-- The fields of the manifest that `_manifest_logic_failures` does not read. -/
  others : List (PyStr × Value)

def noReport : PyStr := "mandatory matrix cell produced no JUnit report"

/-- The row of a role of a cell that has no report. -/
def Findings.fallbackRow (f : Findings) (i : Identity) : Row where
  identity := i
  report := { (f.fallbackJunit i).2 with
    status := .infrastructureError, infrastructureError := some noReport }
  junit := (f.fallbackJunit i).1
  allureResults := some (f.fallbackAllure i)
  allureComplete := some true

/-- The rows, and those of the mandatory roles that no row is of. -/
def Findings.allRows (f : Findings) : List Row :=
  let keys := (aggregateReports f.reportRows).map Group.key
  f.reportRows ++ (f.expected.flatMap fun cell =>
    (cell.roles.map cell.identity).filter fun i => !keys.contains i.resultKey).map f.fallbackRow

def Findings.results (f : Findings) : List Group := aggregateReports f.allRows

/-- The blockers of the manifest. -/
def Findings.blockers (f : Findings) : List PyStr :=
  sortedSet (f.registryErrors ++ f.parseFailures ++ f.testCommitFailures ++
    (evaluateExpected f.expected f.results).2 ++ f.securityErrors ++ f.dependencyErrors ++
    f.prerequisiteErrors ++
    failing (!f.commitConsistent) "tested commit differs from requested release commit" ++
    failing (!f.scanClean) "final text/binary/archive evidence scan is not clean")

/-- The fields that `_manifest_logic_failures` reads. -/
def Findings.fields (f : Findings) : List (PyStr × Value) :=
  [("commit_sha", .str f.commitSha), ("expected_commit_sha", .str f.expectedCommit),
    ("commit_consistent", .bool f.commitConsistent), ("results", .list (f.results.map Group.toValue)),
    ("matrix", .dict [("actual_count", .int f.results.length), ("expected",
      .list ((evaluateExpected f.expected f.results).1.map EvaluatedCell.toValue))]),
    ("support_classification",
      .str (if f.registered then "from-role-coverage-registry" else "unregistered")),
    ("security_evidence", f.securityEvidence),
    ("prerequisites", .dict (f.prerequisites.map fun e => (e.1, .str e.2))),
    ("secret_scan", f.scanSummary), ("blockers", texts f.blockers)]

/-- The manifest before it is redacted. -/
def Findings.manifest (f : Findings) : Value := .dict (f.others ++ f.fields)

mutual

/-- `redact_strings(value)`. -/
def redactStrings (isWord : Nat → Bool) : Value → Value
  | .dict entries => .dict (redactStringEntries isWord entries)
  | .list items => .list (redactStringItems isWord items)
  | .str s => .str (redactText isWord s)
  | value => value

def redactStringItems (isWord : Nat → Bool) : List Value → List Value
  | [] => []
  | item :: items => redactStrings isWord item :: redactStringItems isWord items

def redactStringEntries (isWord : Nat → Bool) : List (PyStr × Value) → List (PyStr × Value)
  | [] => []
  | (key, value) :: entries => (key, redactStrings isWord value) :: redactStringEntries isWord entries

end

/-- `execution_passed`. -/
def Findings.executionPassed (isWord : Nat → Bool) (releaseMode : Bool) (f : Findings) : Bool :=
  (manifestLogicFailures t releaseMode (redactStrings isWord f.manifest)).isEmpty

/-! ## 5. What redaction leaves as it is -/

section

variable {isWord : Nat → Bool}

/-- A rewriting copies its text, or something of what it puts in shows. -/
theorem sub_eq_or_mem {w : Rewrite Nat} {b : Nat} (hb : b ∈ w.replacement) (before text : List Nat) :
    w.subFrom 0 before text = text ∨ b ∈ w.subFrom 0 before text := by
  induction text generalizing before with
  | nil => exact Or.inl rfl
  | cons c rest ih =>
    rw [Rewrite.subFrom]
    split
    · next first second stop _ =>
      refine Or.inr (List.mem_append_left _ (List.mem_append_left _ (List.mem_append_right _ hb)))
    · rcases ih (c :: before) with h | h
      · exact Or.inl (congrArg (c :: ·) h)
      · exact Or.inr (List.mem_cons_of_mem _ h)

theorem foldl_sub_eq {rewrites : List (Rewrite Nat)} {b : Nat} (hb : ∀ w ∈ rewrites, b ∈ w.replacement)
    {text : List Nat} (h : b ∉ rewrites.foldl (fun text w => w.sub text) text) :
    rewrites.foldl (fun text w => w.sub text) text = text := by
  induction rewrites generalizing text with
  | nil => rfl
  | cons w rewrites ih =>
    obtain ⟨hw, hrest⟩ := List.forall_mem_cons.mp hb
    have heq := ih hrest h
    rw [List.foldl_cons] at h ⊢
    rw [heq] at h ⊢
    exact (sub_eq_or_mem hw [] text).resolve_right h

theorem bracket_mem_rewrites : ∀ w ∈ rewrites isWord, 91 ∈ w.replacement := by
  have hplaceholder : 91 ∈ placeholder.codePoints := by decide
  have hkept : ∀ head body tail, 91 ∈ (keeping head body tail).replacement := fun _ _ _ => hplaceholder
  have hwhole : ∀ (text : String) body, 91 ∈ text.toList.map Char.toNat →
      91 ∈ (whole body text).replacement := fun _ _ h => h
  simp only [rewrites, List.forall_mem_cons]
  refine ⟨hwhole _ _ ?_, hwhole _ _ ?_, hwhole _ _ ?_, hwhole _ _ ?_, hwhole _ _ ?_,
    hkept _ _ _, hkept _ _ _, hkept _ _ _, hkept _ _ _, fun _ h => by cases h⟩
  · exact (by decide : 91 ∈ "[REDACTED PRIVATE KEY]".toList.map Char.toNat)
  · exact (by decide : 91 ∈ "Bearer [REDACTED]".toList.map Char.toNat)
  · exact (by decide : 91 ∈ "Basic [REDACTED]".toList.map Char.toNat)
  · exact (by decide : 91 ∈ "[REDACTED JWT]".toList.map Char.toNat)
  · exact (by decide : 91 ∈ "[REDACTED API KEY]".toList.map Char.toNat)

/-- **A text that shows no bracket was not redacted.** -/
theorem redactText_eq {s : PyStr} (h : 91 ∉ (redactText isWord s).codePoints) :
    redactText isWord s = s := by
  rw [redactText] at h
  dsimp only at h
  have hfold := foldl_sub_eq bracket_mem_rewrites h
  have hcopied : (s.replace canary placeholder).codePoints = s.codePoints := by
    rw [hfold, replace_codePoints, replaceFrom_eq_sub (by decide) 0 []] at h
    rw [replace_codePoints, replaceFrom_eq_sub (by decide) 0 []]
    exact (sub_eq_or_mem (w := ⟨Regex.empty, Regex.word id canary.codePoints, Regex.empty,
      placeholder.codePoints⟩) (b := 91) (by decide) [] s.codePoints).resolve_right h
  exact congrArg PyStr.mk (hfold.trans hcopied)

theorem eq_of_redactText {s text : PyStr} (h : redactText isWord s = text)
    (htext : 91 ∉ text.codePoints) : s = text := by
  rw [← h] at htext ⊢
  exact (redactText_eq htext).symm

theorem lookup_redacted (entries : List (PyStr × Value)) (key : PyStr) :
    lookup (redactStringEntries isWord entries) key = (lookup entries key).map (redactStrings isWord) := by
  induction entries with
  | nil => rfl
  | cons e entries ih =>
    obtain ⟨k, value⟩ := e
    rw [redactStringEntries, lookup, lookup, ih]
    cases lookup entries key with
    | some found => rfl
    | none =>
      dsimp only [Option.map_none, Option.none_or]
      split
      · rfl
      · rfl

/-- A field of a redacted dict is the field, redacted. -/
theorem get_redacted (value : Value) (key : PyStr) :
    (redactStrings isWord value).get key = redactStrings isWord (value.get key) := by
  cases value with
  | dict entries =>
    change (lookup (redactStringEntries isWord entries) key).getD .none =
      redactStrings isWord ((lookup entries key).getD .none)
    rw [lookup_redacted]
    cases lookup entries key with
    | some found => rfl
    | none => rfl
  | _ => rfl

theorem redactStringItems_eq (items : List Value) :
    redactStringItems isWord items = items.map (redactStrings isWord) := by
  induction items with
  | nil => rfl
  | cons item items ih => rw [redactStringItems, ih, List.map_cons]

theorem redactStrings_list (items : List Value) :
    redactStrings isWord (.list items) = .list (items.map (redactStrings isWord)) := by
  rw [redactStrings, redactStringItems_eq]

theorem isTrue_of_redacted {value : Value} (h : (redactStrings isWord value).isTrue = true) :
    value.isTrue = true := by
  cases value with
  | bool b => exact h
  | _ => cases h

/-- A text that is compared with one without a bracket. -/
theorem eq_of_isText_redacted {s text : PyStr} (h : (redactStrings isWord (.str s)).isText text = true)
    (htext : 91 ∉ text.codePoints) : s = text :=
  eq_of_redactText (Value.str.inj (Value.isText_iff.mp h)) htext

end

/-! ## 6. What counts of the rows -/

section

variable {rows : List Row} {key : List PyStr}

theorem failing_eq_nil {condition : Bool} {message : PyStr} :
    failing condition message = [] ↔ condition = false := by
  cases condition <;> simp [failing]

theorem passed_of_mergeStatus {statuses : List Status} (h : mergeStatus statuses = .passed) :
    ∀ s ∈ statuses, s = .passed := by
  intro s hs
  unfold mergeStatus at h
  split at h
  · cases h
  · next hinfra =>
    split at h
    · cases h
    · next hfailed =>
      split at h
      · cases h
      · next hskipped =>
        cases s with
        | passed => rfl
        | skippedWithApprovedJustification => exact absurd hs hskipped
        | failed => exact absurd hs hfailed
        | infrastructureError => exact absurd hs hinfra

/-- Rows of which a group was made that passed have nothing to object to. -/
theorem clean_of_judge {reps : List Row} (h : (judge reps).status = .passed) :
    ∀ row ∈ reps, row.report.status = .passed ∧ row.blockers = [] := by
  have hunblocked : (judge reps).blockers.isEmpty = true := by
    by_contra hblocked
    rw [Bool.not_eq_true] at hblocked
    rw [judge_status, hblocked] at h
    unfold finalStatus at h
    split at h
    · cases h
    · next hnot => exact hnot ⟨rfl, h⟩
  rw [judge_status, hunblocked] at h
  intro row hrow
  refine ⟨passed_of_mergeStatus h _ (List.mem_map_of_mem hrow), ?_⟩
  by_contra hne
  rw [judge_blockers_isEmpty.mpr ⟨row, hrow, hne⟩] at hunblocked
  cases hunblocked

theorem exists_group (h : rowsOf key rows ≠ []) : ∃ group ∈ aggregateReports rows, group.key = key ∧
    group.verdict = judge (firsts Row.digest (rowsOf key rows)) := by
  have hverdict := verdictOn_eq rows key
  rw [if_neg h, verdictOn, Option.map_eq_some_iff] at hverdict
  obtain ⟨group, hfind, hverdict⟩ := hverdict
  have hkey : group.key = key := by simpa using List.find?_some hfind
  exact ⟨group, List.mem_of_find?_eq_some hfind, hkey, hverdict⟩

theorem rowsOf_key {group : Group} (h : group ∈ aggregateReports rows) : rowsOf group.key rows ≠ [] := by
  intro hrows
  have hverdict := verdictOn_eq rows group.key
  rw [if_pos hrows, verdictOn, Option.map_eq_none_iff, List.find?_eq_none] at hverdict
  exact hverdict group h (decide_eq_true rfl)

theorem exists_row_of_rowsOf (h : rowsOf key rows ≠ []) : ∃ row ∈ rows, row.identity.resultKey = key := by
  obtain ⟨row, hrow⟩ := List.exists_mem_of_ne_nil _ h
  rw [rowsOf, List.mem_filter] at hrow
  exact ⟨row, hrow.1, of_decide_eq_true hrow.2⟩

/-- All results passed. -/
def AllPassed (groups : List Group) : Prop :=
  ∀ group ∈ groups, group.status = .passed ∧ group.meaningful = true

theorem judge_of_allPassed (h : AllPassed (aggregateReports rows)) (hrows : rowsOf key rows ≠ []) :
    (judge (firsts Row.digest (rowsOf key rows))).status = .passed ∧
      (judge (firsts Row.digest (rowsOf key rows))).meaningful = true := by
  obtain ⟨group, hmem, -, hverdict⟩ := exists_group hrows
  rw [← hverdict]
  exact h group hmem

end

/-! ## 7. Roles without a report -/

section

variable {f : Findings} {key : List PyStr}

theorem mem_keys {rows : List Row} :
    key ∈ (aggregateReports rows).map Group.key ↔ rowsOf key rows ≠ [] := by
  constructor
  · intro h
    obtain ⟨group, hgroup, rfl⟩ := List.mem_map.mp h
    exact rowsOf_key hgroup
  · intro h
    obtain ⟨group, hgroup, hkey, -⟩ := exists_group h
    exact List.mem_map.mpr ⟨group, hgroup, hkey⟩

/-- A row that was added is one that failed, of a key that no report has. -/
theorem added_of_mem_allRows {row : Row} (h : row ∈ f.allRows) : row ∈ f.reportRows ∨
    row.report.status = .infrastructureError ∧ rowsOf row.identity.resultKey f.reportRows = [] := by
  rcases List.mem_append.mp h with h | h
  · exact Or.inl h
  · obtain ⟨i, hi, rfl⟩ := List.mem_map.mp h
    obtain ⟨cell, -, hi⟩ := List.mem_flatMap.mp hi
    have hnew := (List.mem_filter.mp hi).2
    rw [Bool.not_eq_true', ← Bool.not_eq_true, List.contains_iff_mem, mem_keys, not_not] at hnew
    exact Or.inr ⟨rfl, hnew⟩

theorem rowsOf_allRows (h : rowsOf key f.reportRows ≠ []) :
    rowsOf key f.allRows = rowsOf key f.reportRows := by
  have hadded : ∀ added : List Identity, (∀ i ∈ added, rowsOf i.resultKey f.reportRows = []) →
      rowsOf key (added.map f.fallbackRow) = [] := by
    intro added hnew
    rw [rowsOf, List.filter_eq_nil_iff]
    intro row hrow hkey
    obtain ⟨i, hi, rfl⟩ := List.mem_map.mp hrow
    have hsame : i.resultKey = key := of_decide_eq_true hkey
    exact h (hsame ▸ hnew i hi)
  rw [Findings.allRows, rowsOf, List.filter_append]
  refine (congrArg _ (hadded _ fun i hi => ?_)).trans (List.append_nil _)
  obtain ⟨cell, -, hi⟩ := List.mem_flatMap.mp hi
  have hnew := (List.mem_filter.mp hi).2
  rwa [Bool.not_eq_true', ← Bool.not_eq_true, List.contains_iff_mem, mem_keys, not_not] at hnew

/-- Where all results passed, every result is of a report. -/
theorem reported_of_allPassed (h : AllPassed f.results) (hrows : rowsOf key f.allRows ≠ []) :
    rowsOf key f.reportRows ≠ [] := by
  intro hnone
  obtain ⟨hpassed, -⟩ := judge_of_allPassed h hrows
  obtain ⟨row, hrow⟩ := List.exists_mem_of_ne_nil _ (firsts_ne_nil hrows)
  have hclean := (clean_of_judge hpassed row hrow).1
  obtain ⟨hmem, hkey⟩ := List.mem_filter.mp (mem_of_mem_firsts hrow)
  rcases added_of_mem_allRows hmem with hreport | ⟨hfailed, -⟩
  · have hrow' : row ∈ rowsOf key f.reportRows := List.mem_filter.mpr ⟨hreport, hkey⟩
    rw [hnone] at hrow'
    cases hrow'
  · rw [hfailed] at hclean
    cases hclean

end

/-! ## 8. The gate -/

/-- What is known where nothing was objected to. -/
structure Released (releaseMode : Bool) (f : Findings) : Prop where
  reported : f.reportRows ≠ []
  /-- Every row that counts passed, is meaningful and has its Allure results. -/
  counted : ∀ key, ∀ row ∈ firsts Row.digest (rowsOf key f.reportRows),
    row.report.status = .passed ∧ row.isMeaningful = true ∧ row.allureComplete = some true
  /-- Every mandatory role of every cell has a report. -/
  covered : ∀ cell ∈ f.expected, ∀ role ∈ cell.roles,
    ∃ row ∈ f.reportRows, row.identity.resultKey = (cell.identity role).resultKey
  unblocked : ∀ blocker ∈ f.blockers, blocker = ""
  scanned : (f.scanSummary.get "clean").isTrue = true
  commit : f.commitConsistent = true ∧ f.commitSha = f.expectedCommit ∧ validCommit f.commitSha = true
  prerequisites : ∀ e ∈ f.prerequisites, e.2 = "success"
  registered : releaseMode = true → f.registered = true ∧ f.expected ≠ []

section

variable {t : Texts} {isWord : Nat → Bool} {releaseMode : Bool} {f : Findings}

theorem lookup_append (es fs : List (PyStr × Value)) (key : PyStr) :
    lookup (es ++ fs) key = (lookup fs key).or (lookup es key) := by
  induction es with
  | nil => exact (Option.or_none).symm
  | cons e es ih => rw [List.cons_append, lookup, lookup, ih, Option.or_assoc]

/-- A field of the manifest, after the redaction. -/
theorem find?_manifest {key : PyStr} {value : Value} (h : lookup f.fields key = some value) :
    (redactStrings isWord f.manifest).find? key = some (redactStrings isWord value) := by
  change lookup (redactStringEntries isWord (f.others ++ f.fields)) key = _
  rw [lookup_redacted, lookup_append, h]
  rfl

theorem get_manifest {key : PyStr} {value : Value} (h : lookup f.fields key = some value) :
    (redactStrings isWord f.manifest).get key = redactStrings isWord value := by
  rw [Value.get, find?_manifest h]
  rfl

theorem getD_manifest {key : PyStr} {value default : Value} (h : lookup f.fields key = some value) :
    (redactStrings isWord f.manifest).getD key default = redactStrings isWord value := by
  rw [Value.getD, find?_manifest h]
  rfl

theorem Status.eq_passed_of_text {status : Status} (h : status.text = "passed") : status = .passed := by
  cases status with
  | passed => rfl
  | skippedWithApprovedJustification => exact absurd h (by decide)
  | failed => exact absurd h (by decide)
  | infrastructureError => exact absurd h (by decide)

/-- A result that nothing is objected to. -/
theorem passed_of_resultFailures {group : Group}
    (h : resultFailures t (redactStrings isWord group.toValue) = []) :
    group.status = .passed ∧ group.meaningful = true := by
  have hdict : (redactStrings isWord group.toValue).isDict = true := rfl
  rw [resultFailures, if_pos hdict] at h
  simp only [List.append_eq_nil_iff, failing_eq_nil] at h
  obtain ⟨⟨⟨⟨-, hstatus⟩, -⟩, hmeaningful⟩, -⟩ := h
  rw [get_redacted, Bool.not_eq_false'] at hstatus hmeaningful
  exact ⟨Status.eq_passed_of_text (eq_of_isText_redacted hstatus (by decide)), hmeaningful⟩

/-- A cell that nothing is objected to. -/
theorem passed_of_cellFailures {cell : Cell} {actual : List Group}
    (h : cellFailures t (redactStrings isWord (cell.evaluate actual).toValue) = []) :
    cell.isPassed actual = true := by
  rw [cellFailures, failing_eq_nil, Bool.not_eq_false', Bool.and_eq_true, get_redacted] at h
  have hstatus : (cell.evaluate actual).status = "passed" := eq_of_isText_redacted h.2 (by decide)
  by_contra hnot
  rw [Cell.evaluate, if_neg hnot] at hstatus
  dsimp only at hstatus
  split at hstatus
  · exact absurd hstatus (by decide)
  · exact absurd hstatus (by decide)

/-- A role of a cell that passed has a result. -/
theorem exists_result {cell : Cell} {actual : List Group} (h : cell.isPassed actual = true) {role : PyStr}
    (hrole : role ∈ cell.roles) : ∃ group ∈ actual, group.key = (cell.identity role).resultKey := by
  rw [Cell.isPassed, Bool.and_eq_true, List.isEmpty_iff, Cell.missingRoles, List.filter_eq_nil_iff] at h
  have hmatched := h.1 role hrole
  simp only [Bool.not_eq_true, Bool.not_eq_false', List.any_eq_true, Cell.matching, List.mem_filter,
    decide_eq_true_eq] at hmatched
  obtain ⟨group, ⟨hmem, hscenario, hprofile, htarget, hattempt⟩, hsame, -⟩ := hmatched
  refine ⟨group, hmem, ?_⟩
  rw [Group.key, Identity.resultKey, hscenario, hprofile, htarget, hattempt, hsame]
  rfl

theorem validCommit_plain {text : PyStr} (h : validCommit text = true) : 91 ∉ text.codePoints := by
  intro hmem
  simp only [validCommit, PyStr.isHex, Bool.or_eq_true, Bool.and_eq_true, List.all_eq_true] at h
  rcases h with ⟨-, hall⟩ | ⟨-, hall⟩
  · exact absurd (hall 91 hmem) (by decide)
  · exact absurd (hall 91 hmem) (by decide)

theorem redactStringEntries_eq (entries : List (PyStr × Value)) : redactStringEntries isWord entries =
    entries.map fun e => (e.1, redactStrings isWord e.2) := by
  induction entries with
  | nil => rfl
  | cons e entries ih => rw [redactStringEntries, ih, List.map_cons]

theorem get_of_dictOf {value : Value} {key : PyStr} (h : ((dictOf value).get key).isTrue = true) :
    (value.get key).isTrue = true := by
  unfold dictOf at h
  split at h
  · exact h
  · cases h

/-- The results of the manifest. -/
theorem results_manifest : itemsOf ((redactStrings isWord f.manifest).get "results") =
    f.results.map fun group => redactStrings isWord group.toValue := by
  rw [get_manifest rfl, redactStrings_list, itemsOf,
    List.map_map]
  rfl

/-- The cells of the manifest. -/
theorem expectedMatrix_manifest : expectedMatrix (redactStrings isWord f.manifest) =
    f.expected.map fun cell => redactStrings isWord (cell.evaluate f.results).toValue := by
  have hmatrix := @get_manifest isWord f "matrix" _ rfl
  have hdict : ∀ value : Value, value.isDict = true → dictOf value = value := fun value h => if_pos h
  rw [expectedMatrix, hmatrix, hdict _ rfl, get_redacted]
  change itemsOf (redactStrings isWord (.list ((f.expected.map fun cell =>
    cell.evaluate f.results).map EvaluatedCell.toValue))) = _
  rw [redactStrings_list, itemsOf, List.map_map, List.map_map]
  rfl

theorem blockers_manifest : itemsOf ((redactStrings isWord f.manifest).get "blockers") =
    f.blockers.map fun blocker => .str (redactText isWord blocker) := by
  rw [get_manifest rfl, texts, redactStrings_list, itemsOf, List.map_map]
  rfl

/-- A blocker of the manifest that does not count is empty. -/
theorem blank_of_manifest {blocker : PyStr}
    (h : (itemsOf ((redactStrings isWord f.manifest).get "blockers")).filter Value.truthy = [])
    (hblocker : blocker ∈ f.blockers) : blocker = "" := by
  rw [blockers_manifest, List.filter_eq_nil_iff, List.forall_mem_map] at h
  have hempty := h blocker hblocker
  have hnone : (redactText isWord blocker).codePoints = [] := by simpa [Value.truthy] using hempty
  have hblank : redactText isWord blocker = "" := PyStr.ext hnone
  exact eq_of_redactText hblank (by decide)

/-- A commit of the manifest that is valid is not redacted, so it is the one that was tested. -/
theorem commit_of_manifest
    (htrue : ((redactStrings isWord f.manifest).get "commit_consistent").isTrue = true)
    (hvalid : validCommit (t.str ((redactStrings isWord f.manifest).getD "commit_sha" (.str ""))) = true)
    (hsame : t.str ((redactStrings isWord f.manifest).getD "commit_sha" (.str "")) =
      t.str ((redactStrings isWord f.manifest).getD "expected_commit_sha" (.str ""))) :
    f.commitConsistent = true ∧ f.commitSha = f.expectedCommit ∧ validCommit f.commitSha = true := by
  have hconsistent := @get_manifest isWord f "commit_consistent" _ rfl
  have hsha := @getD_manifest isWord f "commit_sha" _ (.str "") rfl
  have hexpected := @getD_manifest isWord f "expected_commit_sha" _ (.str "") rfl
  rw [hconsistent] at htrue
  rw [hsha] at hvalid hsame
  rw [hexpected] at hsame
  have hvalid : validCommit (redactText isWord f.commitSha) = true := hvalid
  have hsame : redactText isWord f.commitSha = redactText isWord f.expectedCommit := hsame
  have hplain := validCommit_plain hvalid
  have hcommitEq := redactText_eq hplain
  rw [hsame] at hplain
  rw [hcommitEq] at hsame hvalid
  have hbool : f.commitConsistent = true := by
    have hplainTrue := isTrue_of_redacted htrue
    cases hflag : f.commitConsistent with
    | true => rfl
    | false =>
      rw [hflag] at hplainTrue
      cases hplainTrue
  exact ⟨hbool, hsame.trans (redactText_eq hplain), hvalid⟩

theorem prerequisites_of_manifest
    (h : prerequisiteFailures ((redactStrings isWord f.manifest).getD "prerequisites" (.dict [])) = [])
    {e : PyStr × PyStr} (he : e ∈ f.prerequisites) : e.2 = "success" := by
  have hfound := @getD_manifest isWord f "prerequisites" _ (.dict []) rfl
  rw [hfound] at h
  simp only [redactStrings, redactStringEntries_eq, prerequisiteFailures, List.append_eq_nil_iff,
    List.flatMap_eq_nil_iff, List.forall_mem_map, failing_eq_nil, Bool.not_eq_false'] at h
  exact eq_of_redactText (Value.str.inj (Value.isText_iff.mp (h.2 e he))) (by decide)

theorem registered_of_manifest {security : Value}
    (h : releaseFailures (redactStrings isWord f.manifest) security = []) :
    f.registered = true ∧ f.expected ≠ [] := by
  rw [releaseFailures] at h
  simp only [List.append_eq_nil_iff, failing_eq_nil, Bool.not_eq_false'] at h
  obtain ⟨⟨-, hregistered⟩, hmatrix⟩ := h
  rw [get_manifest rfl] at hregistered
  have htext := eq_of_isText_redacted hregistered (by decide)
  refine ⟨?_, ?_⟩
  · by_contra hnot
    rw [if_neg hnot] at htext
    exact absurd htext (by decide)
  · intro hnone
    rw [expectedMatrix_manifest, hnone] at hmatrix
    cases hmatrix

/-- A report of one test that passed. -/
def sampleReport : Report where
  logicalSha256 := some "a"
  contentSha256 := none
  status := .passed
  totals := ⟨1, 0, 0, 0⟩
  testCases := []
  framework := none
  meaningful := some true
  infrastructureError := none

def sampleCell : Cell := ⟨"s", "tiny", "t", "1", ["r"]⟩

/-- One cell with its report. -/
def sampleFindings : Findings where
  reportRows := [⟨sampleCell.identity "r", sampleReport, "j", some ["a"], some true⟩]
  expected := [sampleCell]
  fallbackJunit _ := ("", sampleReport)
  fallbackAllure _ := []
  registryErrors := []
  parseFailures := []
  testCommitFailures := []
  securityErrors := []
  dependencyErrors := []
  prerequisiteErrors := []
  commitSha := "1111111111111111111111111111111111111111"
  expectedCommit := "1111111111111111111111111111111111111111"
  commitConsistent := true
  prerequisites := []
  scanSummary := .dict [("clean", .bool true)]
  scanClean := true
  securityEvidence := .dict []
  registered := true
  others := []

end

end Supplementary.Evidence
