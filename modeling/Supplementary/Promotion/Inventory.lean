/-
# The inventory of waiting runs

`collect_waiting_runs` and `collect_waiting_jobs` read a paged listing that changes while they read
it.  Both take the total of the first page, read that many pages, check every entry, and then read
every page again.

The two share their loops.  What is checked of an entry, and under which key a page lists its
entries, is a `Kind`.  A request is numbered: `fetch call number` is what the `call`-th request of
the process, for page `number`, brought back.
-/
import Supplementary.Python.Access
import Supplementary.Python.Text

namespace Supplementary.Promotion

open Supplementary

/-! ## 1. Constants and errors -/

/-- `PAGE_SIZE`. -/
def pageSize : Int := 100

/-- `MAX_PROVABLE_TOTAL`. -/
def maxProvableTotal : Int := 999

/-- `MAX_JOBS_PER_RUN`. -/
def maxJobsPerRun : Int := 999

/-- `IncompleteInventory`, a `ValueError` that nothing here catches. -/
def incomplete (message : String) : PyError := .valueError message

/-- `COMPLETED_JOB_CONCLUSIONS`. -/
def completedJobConclusions : List PyStr := ["success", "failure", "neutral", "cancelled",
  "timed_out", "action_required", "stale", "startup_failure", "skipped"]

/-- The statuses of a job. -/
def jobStatuses : List PyStr := ["waiting", "requested", "queued", "pending", "in_progress",
  "completed"]

/-! ## 2. Fields -/

/-- `_is_json_int(value)`. -/
def int? : Value → Option Int
  | .int n => some n
  | _ => none

/-- `isinstance(value, list)`. -/
def list? : Value → Option (List Value)
  | .list items => some items
  | _ => none

/-- `_is_json_int(value) and value > 0`. -/
def positive? : Value → Option Int
  | .int n => if 0 < n then some n else none
  | _ => none

/-- `isinstance(value, str) and value`. -/
def text? : Value → Option PyStr
  | .str s => if s.codePoints ≠ [] then some s else none
  | _ => none

/-- `SHA.fullmatch(value)` of a string. -/
def isSha : Value → Bool
  | .str s => s.length = 40 && s.codePoints.all fun c => (48 ≤ c && c ≤ 57) || (97 ≤ c && c ≤ 102)
  | _ => false

/-- A `datetime`, as far as it is looked at. -/
structure Datetime where
  instant : Int
  /-- `utcoffset()` is not `None`. -/
  aware : Bool

/-- What a timestamp rests on in the standard library: `\d` of a `str` pattern, which is not only
the ASCII digits, and `datetime.fromisoformat`, where `none` is its `ValueError`. -/
structure Calendar where
  isDecimal : Nat → Bool
  fromisoformat : PyStr → Option Datetime

/-- The rest of a text after a template; `d` stands for a digit. -/
def Calendar.after (cal : Calendar) : List Char → List Nat → Option (List Nat)
  | [], text => some text
  | _ :: _, [] => none
  | t :: template, c :: text =>
    if (if t = 'd' then cal.isDecimal c else c = t.toNat) then cal.after template text else none

/-- `(?:\.\d+)?`. -/
def Calendar.skipFraction (cal : Calendar) : List Nat → List Nat
  | 46 :: text =>
    if text.takeWhile cal.isDecimal = [] then 46 :: text else text.dropWhile cal.isDecimal
  | text => text

/-- `(?:Z|[+-]\d{2}:\d{2})`, to the end of the text. -/
def Calendar.isZone (cal : Calendar) : List Nat → Bool
  | [90] => true
  | 43 :: text | 45 :: text => cal.after "dd:dd".toList text = some []
  | _ => false

/-- `API_TIMESTAMP.fullmatch(text)`. -/
def Calendar.isApiTimestamp (cal : Calendar) (text : PyStr) : Bool :=
  match cal.after "dddd-dd-ddTdd:dd:dd".toList text.codePoints with
  | some rest => cal.isZone (cal.skipFraction rest)
  | none => false

/-- `_api_timestamp(value, field)`. -/
def apiTimestamp (cal : Calendar) (value : Value) (field : String) : Py Datetime :=
  match value with
  | .str text => do
    raiseUnless (incomplete ("invalid " ++ field)) (cal.isApiTimestamp text = true)
    let iso : PyStr := if text.endsWith "Z" then ⟨text.codePoints.dropLast⟩ ++ ("+00:00" : PyStr)
      else text
    match cal.fromisoformat iso with
    | none => .error (incomplete ("invalid " ++ field))
    | some parsed => do
      raiseUnless (incomplete ("invalid " ++ field)) (parsed.aware = true)
      .ok parsed
  | _ => .error (incomplete ("invalid " ++ field))

/-- `value`, if there is one; else the error. -/
def orRaise {α : Type} (message : String) : Option α → Py α
  | some a => .ok a
  | none => .error (incomplete message)

@[simp] theorem orRaise_eq_ok {α : Type} {message : String} {x : Option α} {a : α} :
    orRaise message x = .ok a ↔ x = some a := by
  cases x <;> simp [orRaise]

/-- The numbers of `pull_requests`; `seen` are those of the entries before. -/
def prNumbers (seen : List Int) : List Value → Py (List Int)
  | [] => .ok []
  | pr :: prs => do
    let number ← orRaise "invalid PR association" (positive? (pr.get "number"))
    raiseUnless (incomplete "invalid PR association") (number ∉ seen)
    .ok (number :: (← prNumbers (number :: seen) prs))

/-! ## 3. Entries -/

/-- What one entry of a page is checked for, with the ids of the entries before it; its id and
the record that is kept of it. -/
abbrev Record := List Int → Value → Py (Int × Value)

/-- The body of the loop over the runs of a page. -/
def runRecord (cal : Calendar) (workflowId : Int) : Record := fun seen run => do
  raiseUnless (incomplete "invalid run shape") (run.isDict = true)
  let runId ← orRaise "invalid or duplicate run ID" (positive? (run.get "id"))
  raiseUnless (incomplete "invalid or duplicate run ID") (runId ∉ seen)
  raiseUnless (incomplete "foreign workflow or non-waiting run")
    ((run.get "workflow_id").pyEq (.int workflowId) = true ∧ (run.get "status").isText "waiting" = true)
  raiseUnless (incomplete "invalid head SHA") (isSha (run.get "head_sha") = true)
  let login ← orRaise "missing actor" (text? ((run.get "actor").get "login"))
  let event ← orRaise "missing event" (text? (run.get "event"))
  let headBranch ← orRaise "missing head_branch" (text? (run.get "head_branch"))
  let createdAt ← apiTimestamp cal (run.get "created_at") "created_at"
  let updatedAt ← apiTimestamp cal (run.get "updated_at") "updated_at"
  raiseUnless (incomplete "updated_at precedes created_at") (createdAt.instant ≤ updatedAt.instant)
  let prs ← orRaise "missing PR association inventory" (list? (run.get "pull_requests"))
  let numbers ← prNumbers [] prs
  let attempt ← orRaise "invalid run attempt" (positive? (run.get "run_attempt"))
  .ok (runId, .dict [
    ("id", .int runId),
    ("status", .str "waiting"),
    ("event", .str event),
    ("head_branch", .str headBranch),
    ("head_sha", run.get "head_sha"),
    ("created_at", run.get "created_at"),
    ("updated_at", run.get "updated_at"),
    ("run_attempt", .int attempt),
    ("actor", .str login),
    ("pull_request_numbers", .list (numbers.map .int)),
    ("disposition", .str "unclassified")])

/-- The run a job must belong to. -/
structure Parent where
  runId : Int
  attempt : Int
  headSha : Value

/-- A completed job has one of the known conclusions, every other job none. -/
def checkConclusion (status conclusion : Value) : Py Unit :=
  if status.isText "completed" then
    raiseUnless (incomplete "completed job has invalid conclusion")
      (conclusion.isTextOf completedJobConclusions = true)
  else raiseUnless (incomplete "nonterminal job has conclusion") (conclusion.isNone = true)

/-- The body of the loop over the jobs of a page. -/
def jobRecord (parent : Parent) : Record := fun seen job => do
  raiseUnless (incomplete "invalid job shape") (job.isDict = true)
  let jobId ← orRaise "invalid or duplicate job ID" (positive? (job.get "id"))
  raiseUnless (incomplete "invalid or duplicate job ID") (jobId ∉ seen)
  let runId ← orRaise "invalid job run identity" (int? (job.get "run_id"))
  let attempt ← orRaise "invalid job run identity" (int? (job.get "run_attempt"))
  raiseUnless (incomplete "job belongs to another run or revision")
    (runId = parent.runId ∧ attempt = parent.attempt ∧
      (job.get "head_sha").pyEq parent.headSha = true)
  let name ← orRaise "missing job name" (text? (job.get "name"))
  raiseUnless (incomplete "invalid job status") ((job.get "status").isTextOf jobStatuses = true)
  let conclusion ← orRaise "missing job conclusion" (job.find? "conclusion")
  checkConclusion (job.get "status") conclusion
  let steps ← orRaise "missing job steps inventory" (list? (job.get "steps"))
  .ok (jobId, .dict [
    ("id", .int jobId),
    ("name", .str name),
    ("status", job.get "status"),
    ("conclusion", conclusion),
    ("step_count", .int steps.length)])

/-! ## 4. Pages -/

/-- The two listings. -/
structure Kind where
  field : PyStr
  /-- How many entries a page must have, by the total and the number of the page. -/
  expected : Int → Int → Int
  changed : String
  oversized : String
  record : Record

def runKind (cal : Calendar) (workflowId : Int) : Kind where
  field := "workflow_runs"
  expected total number := min pageSize (max 0 (total - (number - 1) * pageSize))
  changed := "total_count changed between pages"
  oversized := "missing or oversized result page"
  record := runRecord cal workflowId

def jobKind (parent : Parent) : Kind where
  field := "jobs"
  expected total number := min pageSize (total - (number - 1) * pageSize)
  changed := "job count changed between pages"
  oversized := "missing or oversized jobs page"
  record := jobRecord parent

/-- The entries of one page. -/
def readBatch (record : Record) (seen : List Int) : List Value → Py (List Int × List Value)
  | [] => .ok (seen, [])
  | entry :: batch => do
    let (id, report) ← record seen entry
    let (seen, reports) ← readBatch record (id :: seen) batch
    .ok (seen, report :: reports)

/-- `for number, page in enumerate(pages, 1)`. -/
def readPages (kind : Kind) (total : Int) :
    (number : Nat) → (seen : List Int) → List Value → Py (List Int × List Value)
  | _, seen, [] => .ok (seen, [])
  | number, seen, page :: pages => do
    let count ← page.attr "total_count"
    raiseUnless (incomplete kind.changed) (count.pyEq (.int total) = true)
    let batch ← orRaise kind.oversized (list? (page.get kind.field))
    raiseUnless (incomplete kind.oversized) (batch.length = kind.expected total number)
    let (seen, reports) ← readBatch kind.record seen batch
    let (seen, more) ← readPages kind total (number + 1) seen pages
    .ok (seen, reports ++ more)

/-- A request for a page, by its number among all requests. -/
abbrev Fetch := (call number : Nat) → Py Value

/-- `[fetch_page(page) for page in range(number, number + count)]`. -/
def fetchPages (fetch : Fetch) (call number : Nat) : (count : Nat) → Py (List Value)
  | 0 => .ok []
  | count + 1 => do
    let page ← fetch call number
    let pages ← fetchPages fetch (call + 1) (number + 1) count
    .ok (page :: pages)

/-- `max(1, (total + PAGE_SIZE - 1) // PAGE_SIZE)`; for jobs the total is positive. -/
def pageCount (total : Int) : Nat := (max 1 ((total + pageSize - 1) / pageSize)).toNat

/-- The total of the first page and all pages. -/
def firstPass (fetch : Fetch) (call : Nat) (low high : Int) (message : String) :
    Py (Int × List Value) := do
  let first ← fetch call 1
  let count ← first.attr "total_count"
  let total ← orRaise message (int? count)
  raiseUnless (incomplete message) (low ≤ total ∧ total ≤ high)
  let pages ← fetchPages fetch (call + 1) 2 (pageCount total - 1)
  .ok (total, first :: pages)

/-- The second pass: each page again, compared with the first time. -/
def secondPass (fetch : Fetch) (agrees : (again page : Value) → Py Unit) :
    (call number : Nat) → List Value → Py Unit
  | _, _, [] => .ok ()
  | call, number, page :: pages => do
    let again ← fetch call number
    agrees again page
    secondPass fetch agrees (call + 1) (number + 1) pages

/-! ## 5. The inventories -/

/-- `again != expected_page`; both were parsed anew, so no part of one is the other's. -/
def samePage (again page : Value) : Py Unit :=
  raiseUnless (incomplete "result page changed during inventory") (again.pyEq page = true)

/-- What `collect_waiting_runs` returns. -/
def runInventory (workflowId total : Int) (runs : List Value) : Value := .dict [
  ("workflow_id", .int workflowId),
  ("total_count", .int total),
  ("page_count", .int (pageCount total)),
  ("runs", .list runs),
  ("caveat", .str "Read-only inventory; no run is classified safe to cancel.")]

/-- `collect_waiting_runs(fetch_page, workflow_id)`, after `call` requests. -/
def collectWaitingRuns (cal : Calendar) (fetch : Fetch) (call : Nat) (workflowId : Value) :
    Py Value := do
  let workflowId ← orRaise "workflow_id must be a positive integer" (positive? workflowId)
  let (total, pages) ← firstPass fetch call 0 maxProvableTotal "unprovable total_count"
  let (_, runs) ← readPages (runKind cal workflowId) total 1 [] pages
  raiseUnless (incomplete "result count does not match total") (runs.length = total)
  secondPass fetch samePage (call + pages.length) 1 pages
  .ok (runInventory workflowId total runs)

/-- `again.get("total_count") != total or not isinstance(again_jobs, list) or again_jobs != expected_jobs`. -/
def sameJobs (total : Int) (again page : Value) : Py Unit := do
  let againJobs ← again.attr "jobs"
  raiseUnless (incomplete "jobs page changed during inventory")
    ((again.get "total_count").pyEq (.int total) = true ∧ (list? againJobs).isSome = true ∧
      againJobs.pyEq (page.get "jobs") = true)

/-- The entry of a run in the job inventory. -/
def jobReport (runId total : Int) (jobs : List Value) : Value := .dict [
  ("run_id", .int runId),
  ("total_jobs", .int total),
  ("jobs", .list jobs)]

/-- `run_id`, `attempt` and `head_sha` of a run of the parent inventory. -/
def parentOf (run : Value) : Py Parent := do
  raiseUnless (incomplete "invalid parent run") (run.isDict = true)
  let runId ← orRaise "invalid parent run identity" (positive? (run.get "id"))
  let attempt ← orRaise "invalid parent run identity" (positive? (run.get "run_attempt"))
  raiseUnless (incomplete "invalid parent run identity") (isSha (run.get "head_sha") = true)
  .ok ⟨runId, attempt, run.get "head_sha"⟩

/-- One round of the loop over the runs: the ids of jobs seen, the entry, and how many requests
there have been. -/
def jobsOf (fetch : (call : Nat) → (runId : Int) → (number : Nat) → Py Value) (call : Nat)
    (seen : List Int) (run : Value) : Py (List Int × Value × Nat) := do
  let parent ← parentOf run
  let fetch := fun call number => fetch call parent.runId number
  let (total, pages) ← firstPass fetch call 1 maxJobsPerRun "unprovable job count"
  let (seen, jobs) ← readPages (jobKind parent) total 1 seen pages
  secondPass fetch (sameJobs total) (call + pages.length) 1 pages
  .ok (seen, jobReport parent.runId total jobs, call + pages.length + pages.length)

def jobsOfRuns (fetch : (call : Nat) → (runId : Int) → (number : Nat) → Py Value) :
    (call : Nat) → (seen : List Int) → List Value → Py (List Value)
  | _, _, [] => .ok []
  | call, seen, run :: runs => do
    let (seen, report, call) ← jobsOf fetch call seen run
    let reports ← jobsOfRuns fetch call seen runs
    .ok (report :: reports)

/-- The runs of the parent inventory. -/
def parentRuns (inventory : Value) : Py (List Value) := do
  let value ← inventory.attr "runs"
  let runs ← orRaise "invalid parent run inventory" (list? value)
  let total ← orRaise "invalid parent run inventory" (int? (inventory.get "total_count"))
  raiseUnless (incomplete "invalid parent run inventory") (total = runs.length)
  .ok runs

/-- `collect_waiting_jobs(run_inventory, fetch_page)`, after `call` requests. -/
def collectWaitingJobs (fetch : (call : Nat) → (runId : Int) → (number : Nat) → Py Value)
    (call : Nat) (inventory : Value) : Py (List Value) := do
  let runs ← parentRuns inventory
  jobsOfRuns fetch call [] runs

end Supplementary.Promotion
