/-
# The contract and the cause

`snapshot` is the contract of a candidate as it stands now, and `infrastructureCause` is why an
attempt of its run failed.  A seed freezes the contract, and a claim the cause.
-/
import Supplementary.Recovery.Evidence

namespace Supplementary.Recovery

open Effects PyStr Native Continuation

variable (rt : Runtime)

/-! ## 1. The neutral check and its producer -/

/-- The live pull request of a person. -/
def checkLive (repo : PyStr) (number : Int) (pr : Value) : Py Unit := do
  demand "live human PR" [itemIs pr ["number"] (.int number), itemIs pr ["state"] (.str "open"),
    itemTest Value.isFalse pr "draft", itemIs pr ["user", "login"] (.str "litroc"),
    itemIs pr ["user", "type"] (.str "User")]
  demand "PR refs" [itemIs pr ["head", "repo", "full_name"] (.str repo),
    itemIs pr ["base", "repo", "full_name"] (.str repo), itemIn pr ["base", "ref"] ["develop", "main"],
    itemTruthy pr ["head", "ref"], itemSha pr ["head", "sha"], itemSha pr ["base", "sha"]]

def summaryFields : List PyStr := ["schema", "producer_run_id", "pull_request_number", "base_sha",
  "head_sha", "controller_sha", "pull_request_last_edited_at"]

/-- `json.loads(check["output"]["summary"], object_pairs_hook=unique)`, with its producer. -/
def summaryOf (check : Value) : Py (Value × Value) := do
  match ← itemAt check ["output", "summary"] with
  | .str text => do
    let summary ← Json.loads rt uniqueHooks text
    demand "neutral contract fields" [.ok (summary.isDict && summaryFields ⊆ summary.keySet)]
    return (summary, ← summary.item "producer_run_id")
  | _ => .error .typeError

/-- The one neutral check. -/
def neutralCheck (head : Value) (checks : List Value) : Py Value := do
  let neutral ← checks.filterM fun check => itemIs check ["name"] (.str "Current revision review")
  match neutral with
  | [check] => do
    demand "neutral evidence" [itemIs check ["app", "id"] (.int 15368),
      itemIs check ["app", "slug"] (.str "github-actions"), itemIs check ["status"] (.str "completed"),
      itemIs check ["conclusion"] (.str "success"), itemIs check ["head_sha"] head]
    return check
  | _ => .error (.candidateClosed "ambiguous neutral evidence")

/-- The summary binds the check to the pull request. -/
def checkSummary (number : Int) (base head check summary owner : Value) : Py Unit :=
  demand "neutral binding" [.ok (positive owner), itemTest (isIntOf [4]) summary "schema",
    itemIs summary ["pull_request_number"] (.int number), itemIs summary ["base_sha"] base,
    itemIs summary ["head_sha"] head, itemSha summary ["controller_sha"],
    itemIs check ["external_id"] (.str ("mlx90-current-revision:copilot:v6:" ++ ofInt number ++ ":" ++
      pyText owner ++ ":" ++ pyText base ++ ":" ++ pyText head))]

/-- The run that made the check. -/
def checkProducer (repo : PyStr) (pr owner producer : Value) : Py Unit :=
  let actor : Py Bool := do
    let attempt ← producer.item "run_attempt"
    let name : PyStr := if attempt.pyEq (.int 1) then "litroc" else "github-actions[bot]"
    itemIs producer ["triggering_actor", "login"] (.str name)
  demand "producer identity" [itemIs producer ["id"] owner,
    itemIs producer ["path"] (.str Continuation.producer),
    itemIs producer ["event"] (.str "pull_request_target"),
    itemIs producer ["repository", "full_name"] (.str repo),
    itemIs producer ["head_repository", "full_name"] (.str repo),
    itemsEqual producer ["head_sha"] pr ["head", "sha"],
    itemsEqual producer ["head_branch"] pr ["head", "ref"],
    itemIs producer ["status"] (.str "completed"), itemTest (isIntOf [1, 2]) producer "run_attempt",
    itemIs producer ["actor", "login"] (.str "litroc"), actor]

/-- One job of the producer has succeeded, or is the one that may fail. -/
def producerJob (owner producer head job : Value) : List (Py Bool) :=
  [itemIs job ["run_id"] owner, itemsEqual job ["run_attempt"] producer ["run_attempt"],
    itemIs job ["head_sha"] head, itemIs job ["status"] (.str "completed"),
    anyOf [(do return (← job.item "conclusion").isTextOf ["success", "skipped"]),
      allOf [itemIs job ["name"] (.str "Request protected verifier re-evaluation"),
        itemIs job ["conclusion"] (.str "failure")]]]

/-- The producer has executed its policy. -/
def checkProducerJobs (owner producer head : Value) (jobs : List Value) : Py Unit := do
  let verified ← jobs.filterM fun job => itemIs job ["name"] (.str "Verify current revision policy")
  match verified with
  | [job] => do
    demand "producer verification" ([itemIs job ["conclusion"] (.str "success"),
      itemTest positive job "runner_id"] ++ jobs.flatMap (producerJob owner producer head))
    let steps ← (← (← job.item "steps").iter).filterM fun step =>
      itemIs step ["name"] (.str "Verify current Copilot review and resolved findings")
    match steps with
    | [step] => demand "producer policy execution" [itemIs step ["conclusion"] (.str "success")]
    | _ => .error (.candidateClosed "producer policy execution")
  | _ => .error (.candidateClosed "producer verification")

/-- The one review of the head. -/
def reviewOf (head check : Value) (reviews : List Value) : Py Value := do
  let reviews ← reviews.filterM fun review => allOf [itemIs review ["commit_id"] head,
    itemIn review ["user", "login"] reviewers]
  match reviews with
  | [review] => do
    demand "review identity/time" [itemIs review ["user", "type"] (.str "Bot"),
      (do return (← review.item "state").isTextOf ["COMMENTED", "APPROVED"]),
      notAfter (itemEpoch review "submitted_at") (itemEpoch check "completed_at")]
    return review
  | _ => .error (.candidateClosed "ambiguous review evidence")

/-- `require_usable_review_content`, which closes the candidate. -/
def checkReview (review : Value) (comments : List Value) : Py Unit := do
  let body ← review.item "body"
  let bodies ← comments.mapM fun comment => comment.item "body"
  match checkContent body (.list bodies) with
  | .error (.reviewContentError _) => .error (.candidateClosed "unusable review content")
  | result => result

/-! ## 2. `snapshot` -/

/-- `sorted(item["name"] for item in labels)`. -/
def labelNames (labels : Value) : Py (List Value) := do
  let names ← (← labels.iter).mapM fun item => item.item "name"
  if names.length ≤ 1 then return names
  else do
    let texts ← names.mapM fun name => match name with
      | .str text => .ok text
      | _ => .error .typeError
    return (texts.insertionSort fun a b => a.le b).map Value.str

/-- What is digested of the pull request itself. -/
def inputOfPr (pr : Value) : Py Value := do
  let title ← pr.item "title"
  let body ← pr.item "body"
  let user ← pr.item "user"
  let author ← (["id", "login", "type"] : List PyStr).mapM fun key => do return (key, ← user.item key)
  let labels ← labelNames (← pr.item "labels")
  return .dict [("title", title), ("body", body), ("author", .dict author), ("labels", .list labels)]

/-- The producer and its summary. -/
structure Produced where
  check : Value
  summary : Value
  owner : Value
  attempt : Value

/-- The part of `snapshot` that reads the neutral check and its producer. -/
def neutralEvidence (repo : PyStr) (number : Int) (pr base head : Value) : ContinuationAct Produced := do
  let checks ← inventory ("repos/" ++ repo ++ "/commits/" ++ pyText head ++ "/check-runs?filter=all")
    (some "check_runs")
  let check ← neutralCheck head checks
  let (summary, owner) ← insteadOf (.candidateClosed "invalid neutral evidence") (summaryOf rt check)
  checkSummary number base head check summary owner
  let producer ← fetch ("repos/" ++ repo ++ "/actions/runs/" ++ pyText owner)
  checkProducer repo pr owner producer
  let attempt := producer.get "run_attempt"
  let jobs ← inventory ("repos/" ++ repo ++ "/actions/runs/" ++ pyText owner ++ "/attempts/" ++
    pyText attempt ++ "/jobs?filter=all") (some "jobs")
  checkProducerJobs owner producer head jobs
  return ⟨check, summary, owner, attempt⟩

/-- The part of `snapshot` that reads the review; the review, its comments and the threads. -/
def reviewEvidence (repo : PyStr) (number : Int) (head check : Value) :
    ContinuationAct (Value × List Value × List Value) := do
  let reviews ← inventory ("repos/" ++ repo ++ "/pulls/" ++ ofInt number ++ "/reviews") none
  let review ← reviewOf head check reviews
  let comments ← inventory ("repos/" ++ repo ++ "/pulls/" ++ ofInt number ++ "/reviews/" ++
    pyText (review.get "id") ++ "/comments") none
  checkReview review comments
  let resolved ← threads repo number
  return (review, comments, resolved)

/-- The base is protected and is the source of the writer. -/
def checkBase (writerSource : PyStr) (pr branch : Value) : Py Unit :=
  demand "base/controller drift" [itemsEqual branch ["name"] pr ["base", "ref"],
    (do return (← branch.item "protected").isTrue),
    itemIs branch ["commit", "sha"] (.str writerSource), itemIs pr ["base", "sha"] (.str writerSource)]

/-- The repository and its two branches. -/
def sourceEvidence (repo repoId writerSource : PyStr) (pr : Value) : ContinuationAct Value := do
  let meta' ← fetch ("repos/" ++ repo)
  requireAll "repository" [itemIs meta' ["full_name"] (.str repo),
    (do return pyText (← meta'.item "id") = repoId), itemIs meta' ["default_branch"] (.str "develop")]
  let scheduler ← fetch ("repos/" ++ repo ++ "/branches/develop")
  demand "scheduler source" [itemIs scheduler ["name"] (.str "develop"),
    (do return (← scheduler.item "protected").isTrue), itemSha scheduler ["commit", "sha"]]
  let baseRef ← itemAt pr ["base", "ref"]
  let branch ← fetch ("repos/" ++ repo ++ "/branches/" ++ pyText baseRef)
  checkBase writerSource pr branch
  itemAt scheduler ["commit", "sha"]

/-- `snapshot(repo, repo_id, pr_number, run_id, writer_source)`, where `policy` is `policy_hash()`. -/
def snapshot (policy repo repoId : PyStr) (number runId : Int) (writerSource : PyStr) :
    ContinuationAct Value := do
  demand "pilot/controller" [.ok (decide (repo ∈ pilots)), .ok (isSha (.str writerSource))]
  let pr ← fetch ("repos/" ++ repo ++ "/pulls/" ++ ofInt number)
  checkLive repo number pr
  let scheduler ← sourceEvidence repo repoId writerSource pr
  let run ← fetch ("repos/" ++ repo ++ "/actions/runs/" ++ ofInt runId)
  demand "target run identity" [itemIs run ["id"] (.int runId)]
  boundRun repo pr run
  let base ← itemAt pr ["base", "sha"]
  let head ← itemAt pr ["head", "sha"]
  let (_, original) ← jobsFor repo (.int runId) (.int 1) head
  let source ← sourceMarker original pr
  let produced ← neutralEvidence rt repo number pr base head
  let (review, comments, resolved) ← reviewEvidence repo number head produced.check
  let edited ← metadataRevision repo pr
  demand "neutral metadata revision" [itemIs produced.summary ["pull_request_last_edited_at"] edited]
  let baseRef ← itemAt pr ["base", "ref"]
  let headRef ← itemAt pr ["head", "ref"]
  let neutral ← digest rt produced.check
  let reviewed ← digest rt (.dict [("review", review), ("comments", .list comments),
    ("threads", .list resolved)])
  let input ← inputOfPr pr
  let inputDigest ← digest rt input
  return .dict [("repository", .str repo), ("repository_id", .str repoId), ("pr", .int number),
    ("base", base), ("head", head), ("base_ref", baseRef), ("head_ref", headRef),
    ("run_id", .int runId), ("workflow_id", run.get "workflow_id"), ("receiver", source),
    ("writer_source", .str writerSource), ("scheduler_source", scheduler),
    ("producer_run", produced.owner), ("producer_attempt", produced.attempt),
    ("producer_controller", produced.summary.get "controller_sha"), ("review_id", review.get "id"),
    ("neutral_id", produced.check.get "id"), ("neutral_sha256", .str neutral),
    ("pull_request_last_edited_at", edited), ("review_sha256", .str reviewed),
    ("input_sha256", .str inputDigest), ("policy_sha256", .str policy)]

/-! ## 3. `infrastructure_cause` -/

/-- The loop of `annotations`, over the pages that are left. -/
def annotationsFrom (repo : PyStr) (id : Value) (count : Int) :
    (left page : Nat) → List Value → ContinuationAct (List Value)
  | 0, _, rows => return rows
  | left + 1, page, rows => do
    let batch ← fetch ("repos/" ++ repo ++ "/check-runs/" ++ pyText id ++
      "/annotations?per_page=100&page=" ++ ofInt page)
    match batch with
    | .list items => do
      require ((items.length : Int) = min 100 (count - rows.length)) "incomplete annotations"
      annotationsFrom repo id count left (page + 1) (rows ++ items)
    | _ => Act.raise (.valueError "incomplete annotations")

/-- `annotations(repo, check)`. -/
def annotations (repo : PyStr) (check : Value) : ContinuationAct (List Value) := do
  let count ← inventoryCountOf check
  demand "no native failure annotation" [.ok (0 < count)]
  let id ← check.item "id"
  annotationsFrom repo id count ((count + 99) / 100).toNat 1 []
where
  inventoryCountOf (check : Value) : Py Int := do
    match ← itemAt check ["output", "annotations_count"] with
    | .int count => do
      require (0 ≤ count ∧ count < 1000) "annotation inventory"
      return count
    | _ => .error (.valueError "annotation inventory")

/-- The gate, which fails because the verifier did. -/
def dependentFailure (item : Value) : Py Bool :=
  allOf [itemIs item ["name"] (.str aggregate), itemIs item ["conclusion"] (.str "failure"),
    attrTest positive item "runner_id",
    (do
      match ← item.attr "steps" with
      | .list steps => do
        let failed ← steps.filterM fun step => itemIs step ["conclusion"] (.str "failure")
        let names ← failed.mapM fun step => step.item "name"
        if names.map (fun name => name.isText "Enforce exactly one terminal verification route") = [true]
        then allOf (steps.flatMap fun step => [itemIs step ["status"] (.str "completed"),
          (do return (← step.item "conclusion").isTextOf ["success", "skipped", "failure"])])
        else return false
      | _ => return false)]

/-- A job that does not fail on its own. -/
def harmlessJob (job item : Value) : List (Py Bool) :=
  [itemIs item ["status"] (.str "completed"), anyOf [itemsEqual item ["id"] job ["id"],
    (do return (← item.item "conclusion").isTextOf ["success", "skipped"]), dependentFailure item]]

/-- The job was cancelled because no runner took it. -/
def checkCancelled (repo : PyStr) (job : Value) (jobs : List Value) : Py Unit := do
  demand "not native runner acquisition" [itemIs job ["status"] (.str "completed"),
    itemIs job ["conclusion"] (.str "cancelled"), itemTest (isIntOf [0]) job "runner_id",
    itemIs job ["runner_name"] (.str ""), itemIs job ["steps"] (.list []),
    itemIs job ["labels"] (.list [.str "ubuntu-latest"]),
    (do
      let url ← job.item "check_run_url"
      let id ← job.item "id"
      return url.isText ("https://api.github.com/repos/" ++ repo ++ "/check-runs/" ++ pyText id))]
  demand "independent failed job" (jobs.flatMap (harmlessJob job))

/-- The times of the job are in order; when it was completed. -/
def checkTiming (job : Value) : Py Int := do
  let created ← itemEpoch job "created_at"
  let started ← itemEpoch job "started_at"
  demand "job timing" [.ok (decide (created ≤ started))]
  let completed ← itemEpoch job "completed_at"
  demand "job timing" [.ok (decide (started ≤ completed))]
  return completed

/-- The annotations name one failure, and it is the cause. -/
def checkAnnotations (rows : List Value) : Py Unit := do
  let failures ← rows.filterM fun item => itemIs item ["annotation_level"] (.str "failure")
  match failures with
  | [failure] => demand "unclassified native failure" ([itemIs failure ["message"] (.str acquisition),
      itemIs failure ["path"] (.str ".github"), itemIs failure ["start_line"] (.int 1),
      itemIs failure ["end_line"] (.int 1)] ++ rows.map fun item => (do
        return (← item.item "annotation_level").isTextOf ["failure", "notice"]))
  | _ => .error (.candidateClosed "unclassified native failure")

/-- `infrastructure_cause(repo, run, head, now)`. -/
def infrastructureCause (repo : PyStr) (run head : Value) : ContinuationAct Value := do
  demand "terminal native attempt" [itemTest (isIntOf [2, 3]) run "run_attempt",
    itemIs run ["status"] (.str "completed"),
    (do return (← run.item "conclusion").isTextOf ["failure", "cancelled"]),
    itemIs run ["triggering_actor", "login"] (.str "github-actions[bot]")]
  let id ← run.item "id"
  let (jobs, job) ← jobsFor repo id (run.get "run_attempt") head
  checkCancelled repo job jobs
  let completed ← checkTiming job
  let now ← Act.call ContinuationOp.timestamp
  demand "job timing" [.ok (decide ((completed : ℚ) ≤ now))]
  let check ← fetch ("repos/" ++ repo ++ "/check-runs/" ++ pyText (job.get "id"))
  demand "native cause check" [itemsEqual check ["id"] job ["id"],
    itemIs check ["name"] (.str verifierJob), itemIs check ["head_sha"] head,
    itemIs check ["app", "id"] (.int 15368), itemIs check ["app", "slug"] (.str "github-actions"),
    itemIs check ["status"] (.str "completed"), itemIs check ["conclusion"] (.str "cancelled")]
  let rows ← annotations repo check
  checkAnnotations rows
  let digested ← digest rt (.list rows)
  return .dict [("code", .str causeCode), ("job_id", job.get "id"), ("attempt", run.get "run_attempt"),
    ("completed_at", job.get "completed_at"), ("annotations_sha256", .str digested)]

end Supplementary.Recovery
