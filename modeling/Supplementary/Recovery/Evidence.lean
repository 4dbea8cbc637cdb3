/-
# What a recovery reads

The recovery of a required verifier looks at the live pull request, at the run, at its neutral check
and the producer of it, and at the review: `snapshot` binds them all, and `infrastructureCause` says
that an attempt failed because no hosted runner took its job.  Everything here only reads.

What is not bound closes the candidate; what cannot be read stops the whole sweep.
-/
import Supplementary.Continuation.Resume

namespace Supplementary.Recovery

open Effects PyStr Native Continuation

/-! ## 1. Checks and reads -/

/-- `require(condition and ... and condition, message)` of the recovery. -/
def demand (message : String) (conditions : List (Py Bool)) : Py Unit := do
  raiseUnless (.candidateClosed message) ((← allOf conditions) = true)

/-- `api(route, fields=fields)`. -/
def read (request : Paging.Request) : ContinuationAct Value :=
  (api request).catching fun e =>
    if e.isValueError || e.isSubprocessError || e = .osError then
      Act.raise (.globalReadFailure "API read failed")
    else Act.raise e

/-- `api(route)`. -/
def fetch (route : PyStr) : ContinuationAct Value := read ⟨route, []⟩

/-- `pages(route, key)`. -/
def inventory (route : PyStr) (key : Option PyStr) : ContinuationAct (List Value) :=
  (pages route key).catching fun e =>
    if e.isValueError || e.isSubprocessError || e = .osError || e = .keyError || e = .typeError then
      Act.raise (.globalReadFailure "API inventory failed")
    else Act.raise e

/-- `digest(value)`. -/
def digest (rt : Runtime) (value : Value) : Py PyStr := do
  return Sha256.hexdigest (← recordBytes rt value)

def receiver : PyStr := ".github/workflows/supplementary-current-revision-required.yml"
def helper : PyStr := ".github/workflows/current-revision-rerun.yml"
def verifierJob : PyStr := "Legacy protected current-revision verifier"
def aggregate : PyStr := "Required current-revision workflow"
def sourceMark : PyStr := "LI-259 receiver source "
def acquisition : PyStr :=
  "The job was not acquired by Runner of type hosted even after multiple attempts"
def causeCode : PyStr := "github-hosted-runner-not-acquired"
def maxAttempt : Int := 4
def reserveSeconds : Int := 3600

/-! ## 2. The receiver -/

/-- The branch and the commit of a source marker. -/
def parseMarker (binding value : PyStr) : Option (PyStr × PyStr) :=
  (["main", "develop"] : List PyStr).findSome? fun branch =>
    let start : PyStr := "lightning-it/.github/" ++ receiver ++ "@refs/heads/" ++ branch ++ " "
    let rest := value.codePoints.drop start.length
    let sha : PyStr := ⟨rest.take 40⟩
    if value.startsWith start = true ∧ isSha (.str sha) = true ∧ rest.drop 40 = binding.codePoints then
      some (branch, sha)
    else none

/-- `step.get("name", "").startswith(SOURCE_MARKER)`. -/
def isMarker (step : Value) : Py Bool := do
  let name ← (← step.attrD "name" (.str "")).text
  return name.startsWith sourceMark

/-- The one marker of the job. -/
def markerOf (job : Value) : Py PyStr := do
  let markers ← (← (← job.item "steps").iter).filterM isMarker
  match markers with
  | [marker] => do
    demand "receiver has no native source seal" [itemIs marker ["status"] (.str "completed"),
      itemIs marker ["conclusion"] (.str "success")]
    let name ← (← marker.item "name").text
    return ⟨name.codePoints.drop sourceMark.length⟩
  | _ => .error (.candidateClosed "receiver has no native source seal")

/-- The source that a marker names. -/
def boundSource (pr : Value) (value : PyStr) : Py (PyStr × PyStr) := do
  let number ← pr.item "number"
  let base ← itemAt pr ["base", "sha"]
  let head ← itemAt pr ["head", "sha"]
  match parseMarker (" PR " ++ pyText number ++ " base " ++ pyText base ++ " head " ++ pyText head) value
  with
  | some source => return source
  | none => .error (.candidateClosed "unwired receiver source")

/-- `source_marker(job, pr)`. -/
def sourceMarker (job pr : Value) : ContinuationAct Value := do
  let value ← markerOf job
  let (branch, sha) ← boundSource pr value
  let current ← fetch ("repos/lightning-it/.github/branches/" ++ branch)
  demand "receiver controller drift" [itemIs current ["name"] (.str branch),
    (do return (← current.item "protected").isTrue), itemIs current ["commit", "sha"] (.str sha)]
  return .dict [("repository", .str "lightning-it/.github"), ("path", .str receiver),
    ("branch", .str branch), ("sha", .str sha)]

/-- The titles that a run of the receiver has. -/
def receiverTitles (pr : Value) : Py (List PyStr) := do
  let number ← pr.item "number"
  let head ← itemAt pr ["head", "sha"]
  return (["opened", "synchronize", "reopened", "ready_for_review", "edited"] : List PyStr).map fun event =>
    "Protected current revision PR #" ++ pyText number ++ " " ++ event ++ " " ++ pyText head

/-- The pull request that a run names is this one. -/
def checkRecorded (repo : PyStr) (pr recorded : Value) : Py Unit := do
  let url : Value := .str ("https://api.github.com/repos/" ++ repo)
  demand "native PR binding" [itemsEqual recorded ["number"] pr ["number"],
    (do
      let found ← recorded.item "url"
      let number ← pr.item "number"
      return found.isText ("https://api.github.com/repos/" ++ repo ++ "/pulls/" ++ pyText number)),
    itemsEqual recorded ["head", "sha"] pr ["head", "sha"],
    itemsEqual recorded ["head", "ref"] pr ["head", "ref"],
    itemIs recorded ["head", "repo", "url"] url, itemsEqual recorded ["base", "sha"] pr ["base", "sha"],
    itemsEqual recorded ["base", "ref"] pr ["base", "ref"], itemIs recorded ["base", "repo", "url"] url]

/-- `bound_run(repo, pr, run)`. -/
def boundRun (repo : PyStr) (pr run : Value) : Py Unit := do
  demand "run identity" [attrTest positive run "id", attrTest positive run "workflow_id"]
  let kind : PyStr := if repo = "lightning-it/.github" then "workflows" else "required_workflows" 
  let url : PyStr := "https://api.github.com/repos/" ++ repo ++ "/actions/" ++ kind ++ "/" ++
    pyText (run.get "workflow_id")
  demand "native receiver authority" [itemIs run ["workflow_url"] (.str url),
    itemIs run ["path"] (.str receiver), itemIs run ["event"] (.str "pull_request_target"),
    itemIs run ["repository", "full_name"] (.str repo),
    itemIs run ["head_repository", "full_name"] (.str repo),
    itemsEqual run ["head_sha"] pr ["head", "sha"], itemsEqual run ["head_branch"] pr ["head", "ref"],
    itemIs run ["actor", "login"] (.str "litroc")]
  let check : Py Unit := do
    let titles ← receiverTitles pr
    demand "native event title" [itemIn run ["display_title"] titles]
  match ← run.item "pull_requests" with
  | .list [] => check
  | .list [recorded] => do
    check
    checkRecorded repo pr recorded
  | _ => .error (.candidateClosed "native PR inventory")

/-! ## 3. Jobs -/

/-- The job belongs to the attempt. -/
def jobAt (runId attempt head job : Value) : List (Py Bool) :=
  [itemIs job ["run_id"] runId, itemTest isInt job "run_attempt", itemIs job ["run_attempt"] attempt,
    itemIs job ["head_sha"] head]

/-- The one job with the name. -/
def selectVerifier (runId attempt head : Value) (jobs : List Value) : Py Value := do
  demand "native job binding" (.ok (!jobs.isEmpty) :: jobs.flatMap (jobAt runId attempt head))
  let selected ← jobs.filterM fun job => itemIs job ["name"] (.str verifierJob)
  match selected with
  | [job] => return job
  | _ => .error (.candidateClosed "ambiguous native verifier")

/-- `jobs_for(repo, run_id, attempt, head)`. -/
def jobsFor (repo : PyStr) (runId attempt head : Value) : ContinuationAct (List Value × Value) := do
  let jobs ← inventory ("repos/" ++ repo ++ "/actions/runs/" ++ pyText runId ++ "/attempts/" ++
    pyText attempt ++ "/jobs?filter=all") (some "jobs")
  let job ← selectVerifier runId attempt head jobs
  return (jobs, job)

/-! ## 4. Threads and the metadata -/

/-- The loop of `threads`. -/
def threadsFrom (repo : PyStr) (number : Int) :
    (left : Nat) → (cursor : Option PyStr) → (seen : List PyStr) → List Value →
      ContinuationAct (List Value)
  | 0, _, _, _ => Act.raise (.valueError "thread inventory limit")
  | left + 1, cursor, seen, nodes => do
    let request ← Paging.threadsRequest repo number cursor
    let result ← read request
    let (batch, seen, next) ← Paging.readThreads cursor seen result
    if next = none then Paging.closeThreads (nodes ++ batch)
    else threadsFrom repo number left next seen (nodes ++ batch)

/-- `threads(repo, number)`. -/
def threads (repo : PyStr) (number : Int) : ContinuationAct (List Value) :=
  threadsFrom repo number 10 none [] []

def metadataQuery : PyStr :=
  "query=query($owner:String!,$name:String!,$number:Int!)" ++
  "\x7brepository(owner:$owner,name:$name)\x7bnameWithOwner " ++
  "pullRequest(number:$number)\x7bnumber baseRefOid headRefOid " ++
  "title body lastEditedAt\x7d\x7d\x7d"

def metadataRequest (repo : PyStr) (number : Value) : Py Paging.Request :=
  match repo.split '/' with
  | owner :: name :: _ => .ok ⟨"graphql", ["-f", metadataQuery, "-f", "owner=" ++ owner,
      "-f", "name=" ++ name, "-F", "number=" ++ pyText number]⟩
  | _ => .error .indexError

/-- No error is reported. -/
def isWhole (result : Value) : Bool :=
  result.isDict && match result.find? "errors" with
    | none => true
    | some (.list []) => true
    | some _ => false

/-- When the pull request was edited last, and what the answer binds that to. -/
def editedAt (result : Value) : Py (Value × List Value) := do
  require (isWhole result = true) "partial metadata response"
  let repository ← itemAt result ["data", "repository"]
  let current ← repository.item "pullRequest"
  let edited ← current.item "lastEditedAt"
  if edited.isNone = false then let _ ← Clock.epoch edited
  let name ← repository.item "nameWithOwner"
  let rest ← (["number", "baseRefOid", "headRefOid", "title", "body"] : List PyStr).mapM current.item
  return (edited, name :: rest)

/-- `except (KeyError, TypeError, ValueError)`: another exception in its place. -/
def insteadOf {α : Type} (e : PyError) (y : Py α) : Py α :=
  match y with
  | .error e' => .error (if e' = .keyError || e' = .typeError || e'.isValueError then e else e')
  | .ok a => .ok a

/-- `value or ""`. -/
def orEmpty (value : Value) : Value := if value.truthy then value else .str ""

/-- What the live pull request says. -/
def liveBinding (repo : PyStr) (pr : Value) : Py (List Value) := do
  let number ← pr.item "number"
  let base ← itemAt pr ["base", "sha"]
  let head ← itemAt pr ["head", "sha"]
  let title ← pr.item "title"
  let body ← pr.item "body"
  return [.str repo, number, base, head, title, orEmpty body]

/-- `metadata_revision(repo, pr)`. -/
def metadataRevision (repo : PyStr) (pr : Value) : ContinuationAct Value := do
  let number ← pr.item "number"
  let request ← metadataRequest repo number
  let result ← read request
  let (edited, binding) ← insteadOf (.globalReadFailure "invalid metadata revision response")
    (editedAt result)
  let live ← liveBinding repo pr
  demand "metadata snapshot drift" [.ok (Value.pyEqList binding live)]
  return edited

end Supplementary.Recovery
