/-
# What a reconciliation dispatches

`reconcile` goes over the open pull requests and dispatches what may have been missed for them: the
rerun of the protected verifier, the refresh of a review that is clean, or the continuation of a request
for a review.  It may run at any time, and what it has dispatched it does not know but from the
inventory of dispatched runs.

Everything that it reads is answered by the environment: the API, `dispatch_inventory`, and the locator
of a deferred request, whose reads are its own.  `plan` is what is found for one pull request,
`carryOut` what is done with it.
-/
import Supplementary.Lib.Effects
import Supplementary.Native.Election
import Supplementary.Python.Clock
import Supplementary.Python.Lower
import Supplementary.Python.Token
import Supplementary.Reconcile.Inventory

namespace Supplementary.Reconcile

open Effects PyStr

/-! ## 1. The environment -/

inductive ReconcileOp
  /-- `api(route)`. -/
  | read (route : PyStr)
  /-- `dispatch_inventory(prefix, now)`. -/
  | inventory (pref : PyStr)
  /-- `continuation.reconcile_candidate(repository, repository_id, number, head, now)`. -/
  | candidate (repository repositoryId : PyStr) (number : Int) (head : PyStr)
  /-- `api(route, {"ref": ref, "inputs": inputs})`. -/
  | dispatch (route : PyStr) (ref inputs : Value)

abbrev ReconcileOp.Result : ReconcileOp → Type
  | .inventory _ => List Value
  | .read _ | .candidate _ _ _ _ | .dispatch _ _ _ => Value

abbrev ReconcileAns : ReconcileOp → Type := Fallible PyError ReconcileOp.Result

abbrev ReconcileAct (α : Type) : Type := Act ReconcileAns Unit PyError α

/-- What the interpreter does with texts; `fromisoformat` gives microseconds since 1970, and raises for
what has no time zone, which could not be subtracted. -/
structure Host where
  fromisoformat : PyStr → Py Int
  loads : Value → Py Value
  str : Value → PyStr
  lowering : Lowering

/-- The environment variables that are read. -/
structure Job where
  eventMode : Option PyStr
  ref : Option PyStr
  refProtected : Option PyStr

/-! ## 2. Conditions -/

/-- `a and b and ...`, where what comes after a false one is not looked at. -/
def allOf : List (Py Bool) → Py Bool
  | [] => .ok true
  | c :: cs => do
    if ← c then allOf cs else return false

/-- `a or b or ...`. -/
def anyOf : List (Py Bool) → Py Bool
  | [] => .ok false
  | c :: cs => do
    if ← c then return true else anyOf cs

/-- `[item for item in items if test(item)]`. -/
def keep (test : Value → Py Bool) : List Value → Py (List Value)
  | [] => .ok []
  | item :: items => do
    let holds ← test item
    let rest ← keep test items
    return if holds then item :: rest else rest

/-- `hash(value)` is asked for. -/
def hashable : Value → Py Value
  | .list _ | .dict _ => .error .typeError
  | value => .ok value

/-- `value in texts` for a set of string literals. -/
def inSet (value : Value) (texts : List PyStr) : Py Bool := do
  let value ← hashable value
  return value.isTextOf texts

/-- `value.get(key, {}).get(name)` of a dict. -/
def nested (value : Value) (key name : PyStr) : Py Value := (value.getD key (.dict [])).attr name

/-- `value[key][name]`. -/
def item₂ (value : Value) (key name : PyStr) : Py Value := do
  (← value.item key).item name

def isPositive (value : Value) : Bool := Native.positive value

/-- `max(items, key=...)` for keys that are compared by `lt`: the first that none exceeds. -/
def largest (lt : Value → Value → Py Bool) : Value → List Value → Py Value
  | best, [] => .ok best
  | best, item :: items => do
    if ← lt best item then largest lt item items else largest lt best items

/-- `a["id"] < b["id"]`. -/
def idLess (a b : Value) : Py Bool := do
  let i ← a.item "id"
  let j ← b.item "id"
  match i, j with
  | .str s, .str t => return !t.le s
  | _, _ => match i.number?, j.number? with
    | some m, some n => return m < n
    | _, _ => .error .typeError

/-! ## 3. `pages` -/

/-- `f"{route}{'&' if '?' in route else '?'}per_page=100&page={page}"`. -/
def pageRoute (route : PyStr) (page : Nat) : PyStr :=
  route ++ (if route.contains "?" then "&" else "?" : String) ++ "per_page=100&page=" ++ ofInt page

/-- What is in a response, and the total that it reports where one is asked for. -/
def checkPage (key : Option PyStr) (page : Nat) (total : Option Int) (response : Value) :
    Py (List Value × Option Int) := do
  let batch ← match key with
    | none => pure response
    | some key => response.item key
  match batch with
  | .list batch =>
    if 100 < batch.length then .error (.valueError "invalid inventory")
    else if key.isNone then return (batch, total)
    else match response.get "total_count" with
      | .int count =>
        if count < 0 ∨ 1000 ≤ count then .error (.valueError "invalid inventory total")
        else if total.any (· ≠ count) then .error (.valueError "changing inventory total")
        else if batch.length ≠ min 100 (count.toNat - (page - 1) * 100) then
          .error (.valueError "incomplete inventory page")
        else return (batch, some count)
      | _ => .error (.valueError "invalid inventory total")
  | _ => .error (.valueError "invalid inventory")

/-- The last page was read. -/
def checkItems (total : Option Int) (items : List Value) : Py (List Value) := do
  raiseUnless (.valueError "incomplete inventory total") (total.all (· = (items.length : Int)) = true)
  let ids ← items.mapM fun item => do hashable (← item.item "id")
  raiseUnless (.valueError "duplicate inventory") (ids.Pairwise fun i j => i.pyEq j = false)
  return items

/-- The loop of `pages` over the pages that are left. -/
def pagesFrom (route : PyStr) (key : Option PyStr) :
    List Nat → Option Int → List Value → ReconcileAct (List Value)
  | [], _, _ => Act.raise (.valueError "incomplete inventory")
  | page :: left, total, items => do
    let response ← Act.call (ReconcileOp.read (pageRoute route page))
    let (batch, total) ← checkPage key page total response
    if batch.length < 100 then checkItems total (items ++ batch)
    else pagesFrom route key left total (items ++ batch)

/-- `pages(route, key)`. -/
def pages (route : PyStr) (key : Option PyStr) : ReconcileAct (List Value) :=
  pagesFrom route key (List.range' 1 10) none []

/-! ## 4. Reviews -/

def reviewers : List PyStr := ["copilot-pull-request-reviewer", "copilot-pull-request-reviewer[bot]"]

/-- `MARKERS`, which have no white space. -/
def markers : List PyStr :=
  ["unabletoreviewthispullrequest", "cannotreviewthispullrequest", "notabletoreviewthispullrequest",
    "wasnotabletoreviewthispullrequest", "nofilestoreview", "nofileswerereviewed",
    "unabletoreviewanyfiles", "cannotreviewanyfiles", "notabletoreviewanyfiles",
    "wasnotabletoreviewanyfiles", "quotaexhausted", "quotaexceeded", "premiumrequestquota",
    "premiumrequestsquota", "suppressedcomment", "encounteredanerror"]

/-- `text.upper() == word` for a word of the letters that only a Latin letter becomes. -/
def isUpperOf (text word : PyStr) : Bool :=
  text.codePoints.map (fun c => if PyStr.isLower c then c - 32 else c) = word.codePoints

/-- A body in lower case, without contractions and white space. -/
def normalized (host : Host) (body : Value) : PyStr :=
  let text : PyStr := match body with
    | .str text => ⟨host.lowering.lower text⟩
    | _ => ""
  let text := ((text.replace "can't" "cannot").replace ("can" ++ ⟨[0x2019]⟩ ++ "t") "cannot")
  let text := (text.replace "n't" " not").replace ("n" ++ ⟨[0x2019]⟩ ++ "t") " not"
  ⟨text.codePoints.filter fun c => !isSpace c⟩

/-- `review.get("commit_id") == head and review.get("user", {}).get("login") in REVIEWERS`. -/
def isOfReviewer (head : PyStr) (review : Value) : Py Bool := do
  if (← review.attr "commit_id").isText head then inSet (← nested review "user" "login") reviewers
  else return false

/-- `clean_review(review, comments, head)`. -/
def cleanReview (host : Host) (review : Value) (comments : List Value) (head : PyStr) : Py Bool := do
  let submitted ← allOf [isOfReviewer head review, do
    let state ← (review.getD "state" (.str "")).text
    return isUpperOf state "COMMENTED" || isUpperOf state "APPROVED"]
  if !submitted then return false
  else
    let bodies ← comments.mapM fun comment => comment.attr "body"
    let texts := review.get "body" :: bodies
    raiseUnless (.valueError "malformed review body")
      (texts.all (fun text => text.isNone || text.isStr) = true)
    let texts := texts.map (normalized host)
    return texts.any (· ≠ "") && !markers.any fun marker => texts.any fun text => text.contains marker

/-! ## 5. Dispatched runs -/

/-- `datetime.fromisoformat(value.replace("Z", "+00:00"))`. -/
def instant (host : Host) (value : Value) : Py Int := do
  host.fromisoformat ((← value.text).replace "Z" "+00:00")

/-- A dispatched run of a workflow that has the title. -/
def isRunOf (path title : PyStr) (run : Value) : Py Bool := do
  return (← run.attr "path").isText (pathOf path) && (run.get "event").isText "workflow_dispatch" &&
    (run.get "display_title").isText title

/-- How long after the last run of its title nothing is dispatched, in microseconds. -/
def pause : Int := 10 * 60 * 1000000

/-- `recent_dispatch(runs, path, title, now)`. -/
def recentDispatch (host : Host) (runs : List Value) (path title : PyStr) (now : Int) : Py Bool := do
  let matching ← keep (isRunOf path title) runs
  if matching.any fun run => !(run.get "status").isText "completed" then return true
  else match matching with
    | [] => return false
    | run :: others =>
      let latest ← largest idLess run others
      let timestamp ← instant host (← latest.item "updated_at")
      return now - timestamp < pause

/-! ## 6. Pull requests and runs -/

/-- An open pull request whose binding was checked. -/
structure Pull where
  value : Value
  number : Int
  head : PyStr
  base : PyStr
  headRepository : PyStr

/-- `[A-Za-z0-9][A-Za-z0-9-]*/[A-Za-z0-9_.-]+`. -/
def isRepositoryName (s : PyStr) : Bool :=
  let alnum (c : Nat) : Bool := PyStr.isUpper c || PyStr.isLower c || PyStr.isDigit c
  let (owner, name) := s.codePoints.span (· ≠ 47)
  match owner, name with
  | c :: owner, _ :: d :: name => alnum c && owner.all (fun c => alnum c || c = 45) &&
      (d :: name).all fun c => alnum c || c = 95 || c = 46 || c = 45
  | _, _ => false

/-- `head_repository(pr)`. -/
def headRepository (pr : Value) : Py PyStr := do
  match ((← pr.attr "head").get "repo").get "full_name" with
  | .str name =>
    if isRepositoryName name then return name else .error (.valueError "invalid head repository")
  | _ => .error (.valueError "invalid head repository")

/-- The number, the head and the base of a listed pull request, and the repository of its head. -/
def boundPull (pr : Value) : Py Pull := do
  let number ← pr.item "number"
  let head ← item₂ pr "head" "sha"
  let base ← item₂ pr "base" "sha"
  let isSha (value : Value) : Py Bool := match value with
    | .str s => .ok (PyStr.isHex 40 s)
    | _ => .error .typeError
  if ← allOf [.ok (isPositive number), isSha head, isSha base] then
    match number, head, base with
    | .int number, .str head, .str base =>
      return { value := pr, number, head, base, headRepository := ← headRepository pr }
    | _, _, _ => .error (.valueError "malformed PR binding")
  else .error (.valueError "malformed PR binding")

/-- `pr["base"].get("repo", {}).get("full_name")`. -/
def baseRepository (pr : Value) : Py Value := do
  (← (← pr.item "base").attrD "repo" (.dict [])).attr "full_name"

/-- Whether a pull request is none that a dispatch could be for. -/
def isPassedOver (repository : PyStr) (pr : Pull) : Py Bool :=
  anyOf [do return (← pr.value.item "draft").truthy,
    do return !(← baseRepository pr.value).isText repository,
    do return !(← inSet (← item₂ pr.value "base" "ref") ["develop", "main"]),
    do return !(← item₂ pr.value "user" "type").isText "User"]

/-- The route of the API that a URL is of. -/
def apiUrl (repository : PyStr) : PyStr := "https://api.github.com/repos/" ++ repository

/-- What is said of one end of the pull request in a run. -/
def isEnd (recorded : Value) (side sha : PyStr) (ref : Value) (url : PyStr) : Py Bool :=
  allOf [do return (← nested recorded side "sha").isText sha,
    do return (← nested recorded side "ref").pyEq ref,
    do return (← ((recorded.getD side (.dict [])).getD "repo" (.dict [])).attr "url").isText url]

/-- The actions on a pull request that the verifier runs for. -/
def actions : List PyStr :=
  ["opened", "synchronize", "reopened", "ready_for_review", "edited", "labeled", "unlabeled"]

/-- `required_locator(run, repository, pr)`. -/
def requiredLocator (run : Value) (repository : PyStr) (pr : Pull) : Py Bool := do
  let central := repository = "lightning-it/.github"
  let path : PyStr := if central then "dot-github-current-revision-required.yml"
    else "supplementary-current-revision-required.yml"
  let title : PyStr := if central then "Cross-protect .github" else "Protected current revision"
  let name : PyStr := if central then "Protected dot-github current-revision verifier"
    else "Protected current-revision evidence verifier"
  let number := ofInt pr.number
  match ← run.attr "pull_requests" with
  | .list [recorded] =>
    let workflowId := run.get "workflow_id"
    allOf [.ok (isPositive (run.get "id") && isPositive workflowId &&
        (run.get "event").isText "pull_request_target" &&
        (run.get "path").isText (".github/workflows/" ++ path)),
      match workflowId with
      | .int n => .ok ((run.get "workflow_url").isText
          (apiUrl repository ++ "/actions/required_workflows/" ++ ofInt n))
      | _ => .ok false,
      do return (← nested run "repository" "full_name").isText repository,
      do return (← nested run "head_repository" "full_name").isText pr.headRepository,
      .ok ((run.get "head_sha").isText pr.head),
      do return (run.get "head_branch").pyEq (← item₂ pr.value "head" "ref"),
      do return (← recorded.attr "number").pyEq (.int pr.number),
      .ok ((recorded.get "url").isText (apiUrl repository ++ "/pulls/" ++ number)),
      do isEnd recorded "head" pr.head (← item₂ pr.value "head" "ref") (apiUrl pr.headRepository),
      do isEnd recorded "base" pr.base (← item₂ pr.value "base" "ref") (apiUrl repository),
      inSet (run.get "display_title") (actions.map fun action =>
        title ++ " PR #" ++ number ++ " " ++ action ++ " " ++ pr.head),
      .ok ((run.get "name").isText name || (run.get "name").pyEq (run.get "display_title"))]
  | _ => return false

/-- The fields in which the first attempt of a run is the same. -/
def sameFields : List PyStr :=
  ["id", "created_at", "display_title", "actor", "workflow_id", "workflow_url", "path", "event",
    "repository", "head_repository", "head_sha", "head_branch", "pull_requests"]

/-- The sender of a run, if it is the terminal run of a verifier in the attempt. -/
def terminalSender (run : Value) : Py (Option (PyStr × Int)) := do
  match run.get "created_at" with
  | .str created => match Clock.epoch (.str created) with
    | .error _ => return none
    | .ok _ =>
      let sender ← nested run "actor" "login"
      match run.get "run_attempt", sender with
      | .int attempt, .str sender =>
        let isSender := sender ≠ "" && !sender.codePoints.any isSpace
        let trigger : PyStr := if attempt = 1 then sender else "github-actions[bot]"
        let terminal ← allOf [.ok ((attempt = 1 || attempt = 2) && isSender),
          do return (← nested run "triggering_actor" "login").isText trigger,
          .ok ((run.get "status").isText "completed"),
          inSet (run.get "conclusion") ["success", "failure", "cancelled"]]
        return if terminal then some (sender, attempt) else none
      | _, _ => return none
  | _ => return none

/-- The first attempt of a run that is in its second one. -/
def isOriginal (repository : PyStr) (pr : Pull) (run original : Value) (sender : PyStr) : Py Bool :=
  allOf [.ok original.isDict, requiredLocator original repository pr,
    .ok (match original.get "run_attempt" with | .int n => n = 1 | _ => false),
    .ok ((original.get "status").isText "completed"),
    inSet (original.get "conclusion") ["failure", "cancelled"],
    do return (← nested original "triggering_actor" "login").isText sender,
    .ok (sameFields.all fun field => (original.get field).pyEq (run.get field))]

def runNumber (run : Value) : Int := match run.get "id" with
  | .int n => n
  | _ => 0

/-- The loop over the runs: whether each one has ended, in its first or its second attempt. -/
def areTerminal (repository : PyStr) (pr : Pull) : List Value → ReconcileAct Bool
  | [] => pure true
  | run :: runs => do
    match ← terminalSender run with
    | none => pure false
    | some (sender, attempt) =>
      if attempt = 2 then
        let original ← Act.call (ReconcileOp.read ("repos/" ++ repository ++ "/actions/runs/" ++
          ofInt (runNumber run) ++ "/attempts/1"))
        if ← isOriginal repository pr run original sender then areTerminal repository pr runs
        else pure false
      else areTerminal repository pr runs

/-- `(a["created_at"], a["id"]) < (b["created_at"], b["id"])`, for runs that were checked. -/
def createdLess (a b : Value) : Py Bool :=
  match a.get "created_at", b.get "created_at" with
  | .str s, .str t => .ok ((s.le t && s ≠ t) || (s = t && runNumber a < runNumber b))
  | _, _ => .error .typeError

/-- `latest_required(runs, repository, pr)`. -/
def latestRequired (runs : List Value) (repository : PyStr) (pr : Pull) : ReconcileAct (Option Value) := do
  let selected ← keep (fun run => requiredLocator run repository pr) runs
  match selected with
  | [] => pure none
  | run :: others =>
    if (selected.map runNumber).Nodup then
      if ← areTerminal repository pr selected then
        let latest ← largest createdLess run others
        pure (some latest)
      else pure none
    else pure none

/-! ## 7. What is dispatched -/

/-- `PRODUCER`. -/
def producer : PyStr := ".github/workflows/copilot-review.yml"

/-- What is to be dispatched for a pull request. -/
structure Plan where
  path : PyStr
  title : PyStr
  ref : Value
  inputs : Value

/-- A run of the producer for the head. -/
def isProducer (repository : PyStr) (pr : Pull) (run : Value) : Py Bool :=
  allOf [do return (← run.attr "event").isText "pull_request_target",
    do return (← nested run "repository" "full_name").isText repository,
    do return (← nested run "head_repository" "full_name").isText pr.headRepository,
    .ok ((run.get "path").isText producer && (run.get "head_sha").isText pr.head),
    do return (run.get "head_branch").pyEq (← item₂ pr.value "head" "ref"),
    do
      let entries ← run.item "pull_requests"
      let ofPull ← anyOf ((← entries.iter).map fun entry => do
        return (← entry.item "number").pyEq (.int pr.number))
      return ofPull || entries.pyEq (.list [])]

/-- The neutral check of the head. -/
def isNeutral (check : Value) : Py Bool :=
  allOf [do return (← check.item "name").isText "Current revision review",
    do return (← item₂ check "app" "id").pyEq (.int 15368),
    do return (← item₂ check "app" "slug").isText "github-actions",
    do return (← check.item "status").isText "completed",
    do return (← check.item "conclusion").isText "success"]

/-- A job of the producer that does not stand in the way of a rerun. -/
def isSettled (job : Value) : Py Bool := do
  if !(← job.attr "status").isText "completed" then return false
  else
    anyOf [inSet (job.get "conclusion") ["success", "skipped"],
      .ok ((job.get "name").isText "Request protected verifier re-evaluation" &&
        (job.get "conclusion").isText "failure")]

/-- The loop of `any` over the items: whether each one passes, up to the first that does not. -/
def allPass (test : Value → Py Bool) (items : List Value) : Py Bool := allOf (items.map test)

/-- A positive number that a field holds. -/
def ownerOf (summary : Value) : Py Int := do
  match ← summary.item "producer_run_id" with
  | .int owner => if 0 < owner then return owner else .error (.valueError "malformed producer locator")
  | _ => .error (.valueError "malformed producer locator")

def attemptOf (run : Value) : Py Int := do
  match ← run.item "run_attempt" with
  | .int attempt =>
    if attempt = 1 ∨ attempt = 2 then return attempt else .error (.valueError "invalid producer attempt")
  | _ => .error (.valueError "invalid producer attempt")

section

variable (host : Host) (repository : PyStr) (now : Int)

/-- The branch with a neutral check: the rerun of the protected verifier. -/
def planRerun (pr : Pull) (check : Value) : ReconcileAct (Option Plan) := do
  let pref := "repos/" ++ repository
  let summary ← host.loads (← item₂ check "output" "summary")
  let owner ← ownerOf summary
  let run ← Act.call (ReconcileOp.read (pref ++ "/actions/runs/" ++ ofInt owner))
  if !(← run.item "status").isText "completed" then pure none
  else do
    let attempt ← attemptOf run
    let jobs ← pages (pref ++ "/actions/runs/" ++ ofInt owner ++ "/attempts/" ++ ofInt attempt ++ "/jobs")
      (some "jobs")
    if jobs = [] then pure none
    else if !(← allPass isSettled jobs) then pure none
    else do
      let ref ← item₂ pr.value "base" "ref"
      let runs ← pages (pref ++ "/actions/runs?head_sha=" ++ pr.head) (some "workflow_runs")
      match ← latestRequired runs repository pr with
      | none => pure none
      | some target =>
        if (← target.item "conclusion").isText "success" then pure none
        else pure (some {
          path := helper
          title := "Protected verifier handoff PR #" ++ ofInt pr.number ++ " producer " ++ ofInt owner ++
            " attempt " ++ ofInt attempt ++ " head " ++ pr.head
          ref := ref
          inputs := .dict [("base_ref", ref), ("pr_number", .str (ofInt pr.number)),
            ("expected_base", .str pr.base), ("expected_head", .str pr.head),
            ("producer_run_id", .str (ofInt owner)), ("producer_run_attempt", .str (ofInt attempt))] })

/-- The reviews of the head by a reviewer that are clean. -/
def usableReviews (pr : Pull) : List Value → ReconcileAct (List Value)
  | [] => pure []
  | review :: reviews => do
    if ← isOfReviewer pr.head review then
      let id ← review.item "id"
      let comments ← pages ("repos/" ++ repository ++ "/pulls/" ++ ofInt pr.number ++ "/reviews/" ++
        host.str id ++ "/comments") none
      let clean ← cleanReview host review comments pr.head
      let rest ← usableReviews pr reviews
      pure (if clean then review :: rest else rest)
    else usableReviews pr reviews

/-- What `except` of the deferred locator catches. -/
def isClosed (e : PyError) : Bool :=
  e = .keyError || e = .typeError || e.isValueError || e = .osError || e.isSubprocessError

/-- The inputs of a continuation without its branch. -/
def planContinuation (pr : Pull) (inputs : Value) : Py Plan := do
  let ref ← inputs.item "resume_ref"
  let inputs := inputs.erase "resume_ref"
  let run ← inputs.item "owner_run"
  let review ← inputs.item "old_review"
  return {
    path := continuation
    title := "First review PR #" ++ ofInt pr.number ++ " head " ++ pr.head ++ " owner " ++ host.str run ++
      " old review " ++ host.str review
    ref, inputs }

/-- `continuation.reconcile_candidate(repository, str(metadata["id"]), number, head, now)`. -/
def askCandidate (repositoryId : Py PyStr) (pr : Pull) : ReconcileAct Value := do
  let repositoryId ← repositoryId
  Act.call (ReconcileOp.candidate repository repositoryId pr.number pr.head)

/-- The branch without a neutral check, where a review may be usable. -/
def planReview (repositoryId : Py PyStr) (pr : Pull) : ReconcileAct (Option Plan) := do
  let reviews ← pages ("repos/" ++ repository ++ "/pulls/" ++ ofInt pr.number ++ "/reviews") none
  match ← usableReviews host repository pr reviews with
  | [] =>
    if pr.headRepository ≠ repository then pure none
    else if reviews = [] then pure none
    else if ← anyOf (reviews.map (isOfReviewer pr.head)) then pure none
    else do
      match ← Act.attempt (askCandidate repository repositoryId pr) with
      | .error e => if isClosed e then pure none else Act.raise e
      | .ok .none => pure none
      | .ok inputs =>
        let plan ← planContinuation host pr inputs
        pure (some plan)
  | review :: others => do
    let latest ← largest idLess review others
    let ref ← item₂ pr.value "base" "ref"
    let id ← latest.item "id"
    pure (some {
      path := refresh
      title := "Reconcile review PR #" ++ ofInt pr.number ++ " head " ++ pr.head
      ref := ref
      inputs := .dict [("pr_number", .str (ofInt pr.number)), ("expected_head", .str pr.head),
        ("expected_base", .str pr.base), ("review_id", .str (host.str id))] })

/-- When runs were created. -/
def creations (runs : List Value) : Py (List Int) :=
  runs.mapM fun run => do instant host (← run.item "created_at")

/-- What the loop over the pull requests finds to dispatch for one of them. -/
def plan (repositoryId : Py PyStr) (pr : Pull) : ReconcileAct (Option Plan) := do
  let pref := "repos/" ++ repository
  let runs ← pages (pref ++ "/actions/runs?event=pull_request_target&head_sha=" ++ pr.head)
    (some "workflow_runs")
  let producers ← keep (isProducer repository pr) runs
  if producers = [] then pure none
  else do
    let created ← creations host producers
    if created.any fun t => ttl * 1000000 < now - t then pure none
    else if !(← allPass (fun run => do return (← run.item "status").isText "completed") producers) then
      pure none
    else do
      let checks ← pages (pref ++ "/commits/" ++ pr.head ++ "/check-runs?filter=all") (some "check_runs")
      match ← keep isNeutral checks with
      | [] => planReview host repository repositoryId pr
      | [check] => planRerun host repository pr check
      | _ => pure none

/-- The pull request as it is read again is the one that was listed. -/
def isLive (pr : Pull) (live : Value) : Py Bool :=
  allOf [do return (← live.item "state").isText "open",
    do return !(← live.item "draft").truthy,
    do return decide ((← headRepository live) = pr.headRepository),
    do return (← item₂ live "head" "ref").pyEq (← item₂ pr.value "head" "ref"),
    do return (← live.item "user").pyEq (← pr.value.item "user"),
    do return (← baseRepository live).isText repository,
    do return (← item₂ live "head" "sha").isText pr.head,
    do return (← item₂ live "base" "sha").isText pr.base,
    do return (← item₂ live "base" "ref").pyEq (← item₂ pr.value "base" "ref")]

def pullRoute (repository : PyStr) (pr : Pull) : PyStr :=
  "repos/" ++ repository ++ "/pulls/" ++ ofInt pr.number

def dispatchRoute (repository path : PyStr) : PyStr :=
  "repos/" ++ repository ++ "/actions/workflows/" ++ path ++ "/dispatches"

def dispatchOf (repository : PyStr) (p : Plan) : ReconcileOp :=
  .dispatch (dispatchRoute repository p.path) p.ref p.inputs

/-- What is done for a plan. -/
def carryOut (dispatches : List Value) (pr : Pull) (p : Plan) : ReconcileAct Unit := do
  if ← recentDispatch host dispatches p.path p.title now then pure ()
  else do
    let live ← Act.call (ReconcileOp.read (pullRoute repository pr))
    if ← isLive repository pr live then do
      let _ ← Act.call (dispatchOf repository p)
      pure ()
    else pure ()

/-- The body of the loop. -/
def reconcilePull (repositoryId : Py PyStr) (dispatches : List Value) (value : Value) :
    ReconcileAct Unit := do
  let pr ← boundPull value
  if ← isPassedOver repository pr then pure ()
  else do
    match ← plan host repository now repositoryId pr with
    | none => pure ()
    | some p => carryOut host repository now dispatches pr p

/-- The loop over the pull requests. -/
def reconcilePulls (repositoryId : Py PyStr) (dispatches : List Value) : List Value → ReconcileAct Unit
  | [] => pure ()
  | value :: values => do
    reconcilePull host repository now repositoryId dispatches value
    reconcilePulls repositoryId dispatches values

/-- `PILOTS`. -/
def pilots : List PyStr :=
  ["lightning-it/.github", "lightning-it/shared-assets-lit",
    "lightning-it/ansible-collection-supplementary"]

/-- The branch that the job runs on, which is the protected default branch. -/
def protectedBranch (job : Job) (metadata : Value) : Py Unit := do
  let branch ← metadata.item "default_branch"
  let known ← allOf [inSet branch ["develop", "main"],
    match job.ref, branch with
    | some ref, .str branch => .ok (ref = "refs/heads/" ++ branch)
    | some _, _ => .ok false
    | none, _ => .error .keyError,
    match job.refProtected with
    | some value => .ok (value = "true")
    | none => .error .keyError]
  raiseUnless (.valueError "unprotected reconciliation source") (known = true)

/-- `reconcile(repository, now)`. -/
def reconcile (job : Job) : ReconcileAct Unit := do
  if repository ∉ pilots ∨ job.eventMode ≠ some ("enabled" : PyStr) then pure ()
  else do
    let metadata ← Act.call (ReconcileOp.read ("repos/" ++ repository))
    protectedBranch job metadata
    let dispatches ← Act.call (ReconcileOp.inventory ("repos/" ++ repository))
    let pulls ← pages ("repos/" ++ repository ++ "/pulls?state=open") none
    let repositoryId := (metadata.item "id").map host.str
    reconcilePulls host repository now repositoryId dispatches pulls

end

end Supplementary.Reconcile
