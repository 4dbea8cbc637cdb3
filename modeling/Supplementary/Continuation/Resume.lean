/-
# Making a deferred request

`resume` makes the request that `defer` recorded.  It reads the intent at one commit of the journal,
checks the run that deferred it, the review before the head and its own run, sees at the same commit
that neither the operation nor a rerun of the verifier was recorded, and claims the operation there.
Only after its claim was confirmed does it ask for the review.
-/
import Supplementary.Continuation.Defer
import Supplementary.Python.Clock
import Supplementary.Review.Content

namespace Supplementary.Continuation

open Effects PyStr Native

def consumer : PyStr := ".github/workflows/review-request-continuation.yml"

def bot : PyStr := "copilot-pull-request-reviewer[bot]"

def reviewers : List PyStr := [bot, "copilot-pull-request-reviewer"]

def originalSteps : List PyStr := ["Set up job", "Materialize the protected operation claim",
  "Request Copilot review for the current revision", "Complete job"]

/-! ## 1. Instants and jobs -/

/-- `epoch(value[key])`. -/
def itemEpoch (value : Value) (key : PyStr) : Py Int := do
  Clock.epoch (← value.item key)

/-- `left <= right`. -/
def notAfter (left right : Py Int) : Py Bool := do
  return decide ((← left) ≤ (← right))

/-- `require(left <= middle <= right, message)`. -/
def requireBetween (message : String) (left middle right : Py Int) : Py Unit := do
  let middle ← middle
  requireAll message [notAfter left (.ok middle), notAfter (.ok middle) right]

/-- No two of the values are equal. -/
def allDistinct : List Value → Bool
  | [] => true
  | value :: rest => !rest.any value.pyEq && allDistinct rest

/-- An element of a set. -/
def hashable : Value → Py Value
  | .list _ | .dict _ => .error .typeError
  | value => .ok value

/-- The steps of a native job, from the one with this number on; the last instant before them. -/
def checkSteps : (number : Nat) → Int → List (Value × PyStr) → Py Int
  | _, last, [] => .ok last
  | number, last, (step, expected) :: rest => do
    requireAll "native step binding" [itemIs step ["name"] (.str expected), itemTest isInt step "number",
      itemIs step ["number"] (.int number), itemIs step ["status"] (.str "completed"),
      itemIs step ["conclusion"] (.str "success")]
    requireBetween "native step order" (.ok last) (itemEpoch step "started_at")
      (itemEpoch step "completed_at")
    checkSteps (number + 1) (← itemEpoch step "completed_at") rest

/-- The job is one of the run's. -/
def jobBinding (run job : Value) : List (Py Bool) :=
  [itemTest isInt job "run_id", itemsEqual job ["run_id"] run ["id"],
    itemTest isInt job "run_attempt", itemIs job ["run_attempt"] (.int 1),
    itemsEqual job ["head_sha"] run ["head_sha"], itemIs job ["status"] (.str "completed")]

/-- What `native_job` makes of the jobs of the run. -/
def selectJob (run : Value) (name : PyStr) (names : List PyStr) (jobs : List Value) : Py Value := do
  let titles ← jobs.mapM fun job => do hashable (← job.item "name")
  require (allDistinct titles = true) "duplicate job names"
  requireAll "native job binding" (jobs.flatMap (jobBinding run))
  match jobs.filter fun job => (job.get "name").isText name with
  | [job] => do
    requireAll "native job unsuccessful" [itemIs job ["conclusion"] (.str "success"),
      attrTest positive job "runner_id"]
    match ← job.item "steps" with
    | .list steps => do
      require (steps.length = names.length) "native step inventory"
      let started ← itemEpoch job "started_at"
      requireAll "job predates run" [notAfter (itemEpoch run "created_at") (.ok started)]
      let last ← checkSteps 1 started (steps.zip names)
      requireBetween "native job order" (.ok last) (itemEpoch job "completed_at")
        (itemEpoch run "updated_at")
      return job
    | _ => .error (.valueError "native step inventory")
  | _ => .error (.valueError "native job inventory")

/-- `native_job(repo, run, name, names)`, where the names are not those of a resume. -/
def nativeJob (repo : PyStr) (run : Value) (name : PyStr) (names : List PyStr) :
    ContinuationAct Value := do
  let id ← run.item "id"
  let jobs ← pages ("repos/" ++ repo ++ "/actions/runs/" ++ pyText id ++ "/attempts/1/jobs?filter=all")
    (some "jobs")
  selectJob run name names jobs

/-! ## 2. The intent -/

def intentFields : List PyStr := ["schema", "kind", "repository", "repository_id", "operation", "pr",
  "base", "head", "base_ref", "head_ref", "owner_run", "owner_attempt", "source_sha", "event", "action",
  "author", "actor", "triggering_actor", "created_at"]

/-- `{"source_ref"}` where the intent has the second schema. -/
def extraFields (intent : Value) : List PyStr :=
  if (intent.get "schema").pyEq (.int 2) then ["source_ref"] else []

/-- The intent is one of the operation. -/
def checkIntent (repo repoId key : PyStr) (intent : Value) : Py Unit := do
  requireAll "deferred intent" [
    .ok (intent.isDict && intent.hasKeys (intentFields ++ extraFields intent)),
    itemTest (isIntOf [1, 2]) intent "schema", itemIs intent ["kind"] (.str "deferred-first-request"),
    itemIs intent ["repository"] (.str repo), itemIs intent ["repository_id"] (.str repoId),
    itemIs intent ["operation"] (.str key), itemTest positive intent "pr",
    itemTest positive intent "owner_run", itemTest (isIntOf [1]) intent "owner_attempt",
    itemIs intent ["event"] (.str "pull_request_target"),
    itemIn intent ["action"] ["opened", "ready_for_review", "synchronize"],
    itemsEqual intent ["author"] intent ["actor"],
    itemsEqual intent ["actor"] intent ["triggering_actor"],
    itemIs intent ["triggering_actor"] (.str "litroc"), itemIn intent ["base_ref"] ["develop", "main"],
    itemTest Value.isStr intent "head_ref", itemTruthy intent ["head_ref"], itemSha intent ["base"],
    itemSha intent ["head"], itemSha intent ["source_sha"]]
  require (key = keyFor repoId (pyText (intent.get "pr")) (pyText (intent.get "head")))
    "intent budget key"
  requireAll "original default controller ref" (if (intent.get "schema").pyEq (.int 1) then []
    else [itemIs intent ["source_ref"] (.str "develop")])

/-- `validate_intent(intent, repo, repo_id, key)`. -/
def validateIntent (repo repoId key : PyStr) (intent : Value) : ContinuationAct Value := do
  checkIntent repo repoId key intent
  let _ ← repository repo repoId (pyText (intent.get "source_sha")) "develop"
  let run ← originalRun repo intent true
  let job ← nativeJob repo run "Request Copilot review for current revision" originalSteps
  match job.get "steps" with
  | .list (_ :: _ :: step :: _) => do
    requireBetween "intent outside original step" (itemEpoch step "started_at")
      (itemEpoch intent "created_at") (itemEpoch step "completed_at")
    return run
  | _ => Act.raise .indexError

/-! ## 3. The review before the head -/

/-- The key that a review is compared by. -/
def reviewKey (item : Value) : Py (Int × Int) := do
  let submitted ← itemEpoch item "submitted_at"
  let id ← item.item "id"
  return (submitted, identity id)

/-- `max(candidates, key=lambda item: (epoch(item["submitted_at"]), item["id"]))["id"]`. -/
def latestId : List (Int × Int) → Option Int
  | [] => none
  | first :: rest => some (rest.foldl (fun best key =>
      if best.1 < key.1 ∨ (best.1 = key.1 ∧ best.2 < key.2) then key else best) first).2

/-- `epoch(item["submitted_at"]) >= epoch(after) - 604800`. -/
def notOlder (after item : Value) : Py Bool := do
  let submitted ← itemEpoch item "submitted_at"
  let earliest ← Clock.epoch after
  return decide (earliest - 604800 ≤ submitted)

/-- The review is one that a reviewer gave for another head. -/
def checkOldReview (review : Value) (reviewId : Int) (head after : Value) : Py Unit :=
  requireAll "old review identity" [itemTest positive review "id",
    itemIs review ["id"] (.int reviewId), itemSha review ["commit_id"],
    (do return !(← itemIs review ["commit_id"] head)), itemIn review ["user", "login"] reviewers,
    itemIs review ["user", "type"] (.str "Bot"), itemIn review ["state"] ["COMMENTED", "APPROVED"],
    notOlder after review]

/-- `item.get("user", {}).get("login") in REVIEWERS`. -/
def byReviewer (item : Value) : Py Bool := do
  let user ← item.attrD "user" (.dict [])
  isIn reviewers (← user.attr "login")

/-- The reviews of reviewers for other heads that are not too old. -/
def isCandidate (head after item : Value) : Py Bool := allOf [byReviewer item,
  (do return !(← item.attr "commit_id").pyEq head), notOlder after item]

/-- The review is the latest of the candidates. -/
def checkLatest (reviewId : Int) (head after : Value) (reviews : List Value) : Py Unit := do
  let candidates ← reviews.filterM (isCandidate head after)
  let keys ← candidates.mapM reviewKey
  require (latestId keys = some reviewId) "superseded old review"

/-- `require_usable_review_content(review_body, inline_bodies)`. -/
def checkContent (body inline : Value) : Py Unit :=
  match Review.requireUsableReviewContent body inline with
  | .ok () => .ok ()
  | .error e =>
    .error (.reviewContentError (String.ofList (e.message.codePoints.map Char.ofNat)))

/-- `clean_old_review(repo, pr, review_id, head, after)`. -/
def cleanOldReview (repo : PyStr) (pr reviewId : Int) (head after : Value) : ContinuationAct Value := do
  let root : PyStr := "repos/" ++ repo ++ "/pulls/" ++ ofInt pr ++ "/reviews"
  let review ← get (root ++ "/" ++ ofInt reviewId)
  checkOldReview review reviewId head after
  let reference ← Act.call ContinuationOp.timestamp
  let submitted ← itemEpoch review "submitted_at"
  require (0 ≤ reference - submitted ∧ reference - submitted ≤ 604800) "old review age"
  let comments ← pages (root ++ "/" ++ ofInt reviewId ++ "/comments") none
  let body ← review.attr "body"
  checkContent body (.list (comments.map fun item => item.get "body"))
  let reviews ← pages root none
  checkLatest reviewId head after reviews
  return review

/-! ## 4. What has not been consumed -/

variable (rt : Runtime)

/-- The key of the verifier's rerun of the owner run. -/
def rerunKey (intent : Value) : PyStr :=
  "li219-verifier-operation:v1:" ++ pyText (intent.get "pr") ++ ":" ++ pyText (intent.get "base") ++ ":" ++
    pyText (intent.get "head") ++ ":" ++ pyText (intent.get "owner_run")

/-- The owner run has failed and was not run again. -/
def checkOwner (intent current : Value) : Py Unit :=
  requireAll "verifier budget spent or active" [itemsEqual current ["id"] intent ["owner_run"],
    itemTest isInt current "run_attempt", itemIs current ["run_attempt"] (.int 1),
    itemIs current ["status"] (.str "completed"), itemIs current ["conclusion"] (.str "failure")]

/-- The comment marks the request as made or as uncertain. -/
def isMarked (head : PyStr) (item : Value) : Py Bool := do
  let body := item.item "body"
  allOf [itemIs item ["user", "login"] (.str "github-actions[bot]"),
    anyOf [(do Paging.hasKey (← body) ("<!-- mlx90-copilot-request head=" ++ head ++ " -->")),
      (do Paging.hasKey (← body) ("<!-- mlx90-copilot-request-uncertain head=" ++ head ++ " -->"))]]

/-- The part of `unconsumed` after the journal was read. -/
def checkUnrequested (repo : PyStr) (intent : Value) : ContinuationAct Unit := do
  let pr := pyText (intent.get "pr")
  let reviews ← pages ("repos/" ++ repo ++ "/pulls/" ++ pr ++ "/reviews") none
  let seen ← anyOf (reviews.map fun review => allOf
    [(do return (← review.attr "commit_id").pyEq (intent.get "head")), byReviewer review])
  require (seen = false) "current-head review exists"
  let pending ← get ("repos/" ++ repo ++ "/pulls/" ++ pr ++ "/requested_reviewers")
  match ← pending.item "users" with
  | .list users => do
    let waiting ← anyOf (users.map fun item => itemIn item ["login"] reviewers)
    require (waiting = false) "review still pending"
    let comments ← pages ("repos/" ++ repo ++ "/issues/" ++ pr ++ "/comments") none
    let marked ← anyOf (comments.map (isMarked (pyText (intent.get "head"))))
    require (marked = false) "existing request consumption marker"
  | _ => Act.raise (.valueError "review still pending")

/-- `unconsumed(repo, intent, journal)`. -/
def unconsumed (repo : PyStr) (intent : Value) (journal : Journal) : ContinuationAct Unit := do
  let pr ← livePr repo (intent.get "pr") (intent.get "head") (some (intent.get "base"))
  requireAll "live ref drift" [itemsEqual pr ["head", "ref"] intent ["head_ref"],
    itemsEqual pr ["base", "ref"] intent ["base_ref"]]
  let current ← get ("repos/" ++ repo ++ "/actions/runs/" ++ pyText (intent.get "owner_run"))
  checkOwner intent current
  let rerunPath ← recordPath (rerunKey intent) false
  let rerun ← readJournal rt journal rerunPath
  require (rerun.isNone = true) "consumed operation"
  let path ← recordPath (pyText (intent.get "operation")) false
  let operation ← readJournal rt journal path
  require (operation.isNone = true) "consumed operation"
  checkUnrequested repo intent

/-! ## 5. `resume` -/

/-- The environment of the process: its variables, the event, and what `int` makes of the inputs of the
event. -/
structure ResumeInputs where
  environ : PyStr → Option PyStr
  event : Py Value
  intInput : PyStr → Py Int

/-- What a resume is started with. -/
structure Locators where
  repo : PyStr
  repoId : PyStr
  source : PyStr
  pr : Int
  ownerRun : Int
  oldReview : Int
  expectedHead : PyStr

def Locators.key (l : Locators) : PyStr := keyFor l.repoId (ofInt l.pr) l.expectedHead

/-- The part of `resume` that asks for nothing. -/
def locators (inputs : ResumeInputs) : Py Locators := do
  let env : Inputs := ⟨inputs.environ, inputs.event, .ok 0, .ok 0⟩
  let (repo, repoId, source) ← environment env
  requireAll "resume authority" [envIn env "GITHUB_EVENT_NAME" ["workflow_dispatch"],
    envIn env "GITHUB_ACTOR" ["github-actions[bot]"],
    envIn env "GITHUB_TRIGGERING_ACTOR" ["github-actions[bot]"],
    envIn env "GITHUB_REF_PROTECTED" ["true"],
    envIn env "GITHUB_REF" ["refs/heads/develop", "refs/heads/main"]]
  let event ← inputs.event
  let values ← event.item "inputs"
  let pr ← inputs.intInput "pr_number"
  let ownerRun ← inputs.intInput "owner_run"
  let oldReview ← inputs.intInput "old_review"
  require (0 < pr ∧ 0 < ownerRun ∧ 0 < oldReview) "resume locators"
  match ← values.item "expected_head" with
  | .str head => do
    require (isSha (.str head) = true) "resume locators"
    return ⟨repo, repoId, source, pr, ownerRun, oldReview, head⟩
  | _ => .error (.valueError "resume locators")

/-- The run is the one that resumes. -/
def checkResumeRun (l : Locators) (runId : PyStr) (intent run : Value) : Py Unit :=
  let title : PyStr := "First review PR #" ++ pyText (intent.get "pr") ++ " head " ++
    pyText (intent.get "head") ++ " owner " ++ pyText (intent.get "owner_run") ++ " old review " ++
    ofInt l.oldReview
  requireAll "resume native run" [.ok (isSha (.str l.source)), itemTest isInt run "id",
    (do return pyText (← run.item "id") = runId), itemTest isInt run "run_attempt",
    itemIs run ["run_attempt"] (.int 1), itemIs run ["event"] (.str "workflow_dispatch"),
    itemIs run ["path"] (.str consumer), itemIs run ["name"] (.str "Continue deferred first review request"),
    itemIs run ["repository", "full_name"] (.str l.repo),
    itemIs run ["head_repository", "full_name"] (.str l.repo), itemIs run ["head_sha"] (.str l.source),
    .ok ((intent.get "base").isText l.source), itemsEqual run ["head_branch"] intent ["base_ref"],
    itemsEqual run ["actor", "login"] run ["triggering_actor", "login"],
    itemIs run ["triggering_actor", "login"] (.str "github-actions[bot]"),
    itemIs run ["display_title"] (.str title)]

/-- `native_resume_run(repo, run_id, source, intent, review_id, completed=False)`. -/
def nativeResumeRun (l : Locators) (runId : PyStr) (intent : Value) : ContinuationAct Unit := do
  let run ← get ("repos/" ++ l.repo ++ "/actions/runs/" ++ runId ++ "/attempts/1")
  checkResumeRun l runId intent run
  requireAll "resume native active" [itemIs run ["status"] (.str "in_progress"),
    itemTest Value.isNone run "conclusion"]

/-- The checks of the controller and of the reviews, and the review before the head. -/
def authorize (inputs : ResumeInputs) (l : Locators) (intent owner : Value) :
    ContinuationAct (PyStr × Value) := do
  let env : Inputs := ⟨inputs.environ, inputs.event, .ok 0, .ok 0⟩
  requireAll "resume original owner" [itemIs intent ["owner_run"] (.int l.ownerRun)]
  let ref := pyText (intent.get "base_ref")
  requireAll "resume protected source" [envIn env "GITHUB_REF" ["refs/heads/" ++ ref],
    envIn env "GITHUB_SHA" [l.source], .ok ((intent.get "base").isText l.source),
    envIn env "GITHUB_WORKFLOW_REF" [l.repo ++ "/" ++ consumer ++ "@refs/heads/" ++ ref]]
  checkController l.repo l.repoId (.str l.source) (.str ref) "current resume controller"
  let now ← Act.call ContinuationOp.timestamp
  let created ← itemEpoch owner "created_at"
  require (0 ≤ now - created ∧ now - created ≤ 604800) "expired intent"
  let old ← cleanOldReview l.repo l.pr l.oldReview (intent.get "head") (owner.get "created_at")
  let runId ← envVar env "GITHUB_RUN_ID"
  nativeResumeRun l runId intent
  return (runId, old)

/-- The entries of `record`. -/
def claimOf (l : Locators) (journal : Journal) (runId : PyStr) (intent old : Value) :
    List (PyStr × Value) :=
  [("schema", .int 2), ("repository", .str l.repo), ("repository_id", .str l.repoId),
    ("action", .str "request"), ("operation", .str l.key), ("claim_run", .str runId),
    ("claim_attempt", .str "1"), ("source_sha", .str l.source), ("intent", intent),
    ("intent_commit", .str journal.oid), ("old_review", .int l.oldReview),
    ("old_head", old.get "commit_id")]

/-- The live pull request has the references of the intent. -/
def checkRefs (message : String) (intent pr : Value) : Py Unit :=
  requireAll message [itemsEqual pr ["base", "ref"] intent ["base_ref"],
    itemsEqual pr ["head", "ref"] intent ["head_ref"]]

/-- The pull request and the controller are as they were. -/
def checkResumed (l : Locators) (intent : Value) (refs controller : String) : ContinuationAct Unit := do
  let current ← livePr l.repo (.int l.pr) (intent.get "head") (some (intent.get "base"))
  checkRefs refs intent current
  checkController l.repo l.repoId (.str l.source) (intent.get "base_ref") controller

/-- `resume()`. -/
def resume (inputs : ResumeInputs) : ContinuationAct Unit := do
  let l ← locators inputs
  let journal ← openJournal l.repo l.repoId
  let deferred ← recordPath l.key true
  let intent ← readJournal rt journal deferred
  let owner ← validateIntent l.repo l.repoId l.key intent
  let (runId, old) ← authorize inputs l intent owner
  unconsumed rt l.repo intent journal
  checkResumed l intent "claim ref drift" "claim controller drift"
  let path ← recordPath l.key false
  create rt journal path (.dict (claimOf l journal runId intent old))
  checkResumed l intent "effect ref drift" "effect controller drift"
  let _ ← send ("repos/" ++ l.repo ++ "/pulls/" ++ ofInt l.pr ++ "/requested_reviewers")
    (.dict [("reviewers", .list [.str bot])])

end Supplementary.Continuation
