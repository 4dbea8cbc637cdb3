/-
# The original run

`original_run`: the run that defers a request is compared with the intent, before the request is deferred
and again before it is made.  A run that does not name its pull request is found through its branch and its policy
job; before the request is deferred these may not be visible at once, and are looked for four times under
a budget of reads and time.

All of it only reads.
-/
import Supplementary.Continuation.Journal

namespace Supplementary.Continuation

open Effects PyStr Native

def pilots : List PyStr := ["lightning-it/.github", "lightning-it/shared-assets-lit",
  "lightning-it/ansible-collection-supplementary"]

/-- The pilots whose native run may stand for the pull request. -/
def nativeSenders : List PyStr := ["lightning-it/.github", "lightning-it/shared-assets-lit"]

def producer : PyStr := ".github/workflows/copilot-review.yml"

/-! ## 1. Inventories and pull requests -/

/-- The loop of `pages` from a page on, with the total and what was read so far. -/
def pagesFrom (route : PyStr) (key : Option PyStr) :
    (left page : Nat) → (total : Option Int) → List Value → ContinuationAct (List Value)
  | 0, _, _, _ => Act.raise (.valueError "inventory limit")
  | left + 1, page, total, result => do
    let response ← api (Paging.pageRequest route page)
    let (batch, total) ← Paging.readPage key total response
    if batch.length < 100 then Paging.checkComplete total (result ++ batch)
    else pagesFrom route key left (page + 1) total (result ++ batch)

/-- `pages(route, key)`. -/
def pages (route : PyStr) (key : Option PyStr) : ContinuationAct (List Value) :=
  pagesFrom route key 10 1 none []

/-- `live_pr(repo, pr, head, base)`; `None` where the caller gives no base. -/
def livePr (repo : PyStr) (pr head : Value) (base : Option Value) : ContinuationAct Value := do
  require (positive pr = true) "PR ID"
  let value ← get ("repos/" ++ repo ++ "/pulls/" ++ pyText pr)
  requireAll "live human PR" [itemIs value ["number"] pr, itemIs value ["state"] (.str "open"),
    itemTest Value.isFalse value "draft", itemIs value ["user", "login"] (.str "litroc"),
    itemIs value ["user", "type"] (.str "User")]
  requireAll "PR refs" [itemIs value ["head", "repo", "full_name"] (.str repo),
    itemIs value ["base", "repo", "full_name"] (.str repo),
    itemIn value ["base", "ref"] ["develop", "main"], itemTruthy value ["head", "ref"],
    itemSha value ["head", "sha"], itemSha value ["base", "sha"]]
  requireAll "stale head" [itemIs value ["head", "sha"] head]
  requireAll "stale base" (match base with
    | none => []
    | some base => [itemIs value ["base", "sha"] base])
  return value

def hexUpper (n : Nat) : Nat := if n < 10 then 48 + n else 55 + n

/-- One octet under `quote_plus`. -/
def quoteOctet (b : UInt8) : List Nat :=
  let n := b.toNat
  if (48 ≤ n ∧ n ≤ 57) ∨ (65 ≤ n ∧ n ≤ 90) ∨ (97 ≤ n ∧ n ≤ 122) ∨ n ∈ [95, 46, 45, 126] then [n]
  else if n = 32 then [43]
  else [37, hexUpper (n / 16), hexUpper (n % 16)]

/-- `quote_plus(text)`. -/
def quotePlus (text : PyStr) : Py PyStr :=
  match text.utf8Encode with
  | none => .error .unicodeError
  | some octets => .ok ⟨octets.flatMap quoteOctet⟩

/-- `left + value` for a text. -/
def textAdd (left : PyStr) : Value → Py PyStr
  | .str text => .ok (left ++ text)
  | _ => .error .typeError

/-- `branch_pr(repo, run)`. -/
def branchPr (repo : PyStr) (run : Value) : ContinuationAct Value := do
  let branch ← run.item "head_branch"
  let head ← textAdd ((repo.split '/').headD "" ++ ":") branch
  let quoted ← quotePlus head
  let candidates ← pages ("repos/" ++ repo ++ "/pulls?state=open&head=" ++ quoted) none
  match candidates with
  | [candidate] => do
    let number ← candidate.item "number"
    let headSha ← run.item "head_sha"
    let pr ← livePr repo number headSha none
    requireAll "branch drift" [itemsEqual pr ["head", "ref"] run ["head_branch"]]
    return pr
  | _ => Act.raise (.valueError "ambiguous live branch")

/-- `recorded_pr(repo, intent, pr)`. -/
def recordedPr (repo : PyStr) (intent pr : Value) : Py Unit :=
  let side (name reference : PyStr) : List (Py Bool) :=
    [itemsEqual pr [name, "sha"] intent [name], itemsEqual pr [name, "ref"] intent [reference]]
  let url : Value := .str ("https://api.github.com/repos/" ++ repo)
  requireAll "original recorded PR" ([itemsEqual pr ["number"] intent ["pr"]] ++
    side "base" "base_ref" ++ side "head" "head_ref" ++
    [itemIs pr ["base", "repo", "url"] url, itemIs pr ["head", "repo", "url"] url])

/-! ## 2. A run that does not name its pull request -/

/-- `type(value) is int and value in numbers`. -/
def isIntOf (numbers : List Int) : Value → Bool
  | .int n => decide (n ∈ numbers)
  | _ => false

/-- `raise NativeBindingPending(message)` if the conditions hold. -/
def pendingIf (message : String) (conditions : List (Py Bool)) : Py Unit := do
  raiseUnless (.nativeBindingPending message) ((← allOf conditions) = false)

/-- The run is one that `empty_owner` looks at. -/
def checkNativeOwner (repo : PyStr) (run owner base head : Value) : Py Unit :=
  let actor (attempt : Value) : Value :=
    .str (if isIntOf [1] attempt then "litroc" else "github-actions[bot]" : String)
  requireAll "fallback native owner" [.ok (decide (repo ∈ pilots)), .ok (positive owner),
    attrTest positive run "id", attrTest (isIntOf [1, 2]) run "run_attempt",
    itemIs run ["event"] (.str "pull_request_target"), itemIs run ["path"] (.str producer),
    itemIs run ["name"] (.str "Current revision review gate"), itemIs run ["head_sha"] head,
    itemIs run ["actor", "login"] (.str "litroc"),
    itemIs run ["triggering_actor", "login"] (actor (run.get "run_attempt")),
    itemIs run ["repository", "full_name"] (.str repo),
    itemIs run ["head_repository", "full_name"] (.str repo), itemIs run ["pull_requests"] (.list []),
    .ok (isSha base), .ok (isSha head)]

/-- `type(job.get(key)) is int and job[key] == run[key']`. -/
def sameInt (job : Value) (key : PyStr) (run : Value) (key' : PyStr) : List (Py Bool) :=
  [attrTest isInt job key, itemsEqual job [key] run [key']]

/-- The job is the one of this run and attempt, at this head. -/
def policyIdentity (run head job : Value) : List (Py Bool) :=
  sameInt job "run_id" run "id" ++ sameInt job "run_attempt" run "run_attempt" ++
    [itemIs job ["head_sha"] head]

/-- The policy job of the run, in a state that its steps can be read in. -/
def checkPolicy (allowPending : Bool) (run head job : Value) : Py Unit := do
  requireAll "fallback native policy identity" (policyIdentity run head job)
  pendingIf "policy job queued" [.ok allowPending, itemIn job ["status"] ["queued", "waiting", "pending"],
    itemTest Value.isNone job "conclusion"]
  let concluded : Py Bool := do
    let status ← job.item "status"
    if status.isText "in_progress" then itemTest Value.isNone job "conclusion"
    else itemIn job ["conclusion"] ["success", "failure"]
  requireAll "fallback native policy" (policyIdentity run head job ++
    [attrTest positive job "runner_id", itemIn job ["status"] ["in_progress", "completed"], concluded])

/-- The name of the step that binds the event. -/
def bindingOf (repo : PyStr) (run owner base head baseRef : Value) : PyStr :=
  if repo = "lightning-it/.github" then
    "Event binding #" ++ pyText owner ++ ":" ++ pyText base ++ ":" ++ pyText head ++ ":" ++
      pyText (run.get "id")
  else
    "Current revision tuple #" ++ pyText owner ++ " " ++ pyText baseRef ++ "@" ++ pyText base ++
      " -> " ++ repo ++ ":" ++ pyText (run.get "head_branch") ++ "@" ++ pyText head ++ " run " ++
      pyText (run.get "id")

/-- The step that binds the event has succeeded. -/
def checkBinding (allowPending : Bool) (binding : PyStr) (job : Value) : Py Unit := do
  let steps ← job.item "steps"
  match steps with
  | .list steps => do
    require ((steps.all fun step => step.isDict && (step.get "name").isStr) = true)
      "fallback step inventory"
    let running := itemIs job ["status"] (.str "in_progress")
    pendingIf "policy binding not visible"
      [.ok allowPending, running, .ok (!steps.any fun step => (step.get "number").pyEq (.int 2))]
    match steps.filter fun step => (step.get "name").isText binding with
    | [step] => do
      pendingIf "policy binding unfinished" [.ok allowPending, running, attrTest (isIntOf [2]) step "number",
        itemIn step ["status"] ["queued", "in_progress"], itemTest Value.isNone step "conclusion"]
      requireAll "fallback binding step" [attrTest (isIntOf [2]) step "number",
        itemIs step ["status"] (.str "completed"), itemIs step ["conclusion"] (.str "success")]
    | _ => .error (.valueError "fallback event binding")
  | _ => .error (.valueError "fallback step inventory")

/-- `empty_owner(repo, run, owner, base, head, base_ref, allow_pending)`. -/
def emptyOwner (repo : PyStr) (run owner base head baseRef : Value) (allowPending : Bool) :
    ContinuationAct Value := do
  checkNativeOwner repo run owner base head
  require (repo ∈ nativeSenders) "no native fallback sender"
  let pr ← branchPr repo run
  requireAll "fallback PR binding" [itemIs pr ["number"] owner, itemIs pr ["base", "sha"] base,
    itemIs pr ["base", "ref"] baseRef]
  let jobs ← pages ("repos/" ++ repo ++ "/actions/runs/" ++ pyText (run.get "id") ++ "/attempts/" ++
    pyText (run.get "run_attempt") ++ "/jobs?filter=all") (some "jobs")
  match jobs.filter fun job => (job.get "name").isText "Verify current revision policy" with
  | [] => Act.raise (if allowPending then .nativeBindingPending "policy job not visible"
      else .valueError "fallback policy job")
  | [job] => do
    checkPolicy allowPending run head job
    checkBinding allowPending (bindingOf repo run owner base head baseRef) job
    return pr
  | _ => Act.raise (.valueError "fallback policy job")

/-- The budget of `await_empty_owner`, which has set it. -/
def visibility : ContinuationAct Visibility := do
  match ← Act.read with
  | some visibility => return visibility
  | none => Act.raise .typeError

/-- The loop of `await_empty_owner`. -/
def observe (repo : PyStr) (run owner base head baseRef : Value) : (left : Nat) → ContinuationAct Value
  | 0 => return .none
  | left + 1 =>
    (emptyOwner repo run owner base head baseRef true).catching fun e =>
      match e with
      | .nativeBindingPending _ => do
        require (0 < left) "native binding visibility exhausted"
        let budget ← visibility
        let now ← Act.call ContinuationOp.monotonic
        require (0 < budget.reads ∧ 2 < budget.deadline - now) "visibility read/time budget exhausted"
        Act.call (ContinuationOp.sleep 2)
        observe repo run owner base head baseRef left
      | e => Act.raise e

/-- `await_empty_owner(repo, run, owner, base, head, base_ref)`. -/
def awaitEmptyOwner (repo : PyStr) (run owner base head baseRef : Value) : ContinuationAct Value := do
  require ((← Act.read) = none) "nested visibility wait"
  let now ← Act.call ContinuationOp.monotonic
  Act.update fun _ => some ⟨24, now + 20⟩
  (observe repo run owner base head baseRef 4).ensuring (Act.update fun _ => none)

/-! ## 3. `original_run` -/

/-- The run is the first attempt of the gate, for the head of the intent. -/
def checkOriginal (repo : PyStr) (intent run : Value) : Py Unit :=
  requireAll "original run" [itemsEqual run ["id"] intent ["owner_run"], itemTest isInt run "id",
    itemTest isInt run "run_attempt", itemIs run ["run_attempt"] (.int 1),
    itemIs run ["event"] (.str "pull_request_target"), itemIs run ["path"] (.str producer),
    itemIs run ["name"] (.str "Current revision review gate"),
    itemsEqual run ["head_sha"] intent ["head"], itemsEqual run ["head_branch"] intent ["head_ref"],
    itemIs run ["actor", "login"] (.str "litroc"),
    itemIs run ["triggering_actor", "login"] (.str "litroc"),
    itemIs run ["repository", "full_name"] (.str repo),
    itemIs run ["head_repository", "full_name"] (.str repo)]

/-- `lookup(repo, run, intent["pr"], intent["base"], intent["head"], intent["base_ref"])`. -/
def lookupOwner (repo : PyStr) (intent run : Value) (completed : Bool) : ContinuationAct Value :=
  let owner := intent.get "pr"
  let base := intent.get "base"
  let head := intent.get "head"
  let baseRef := intent.get "base_ref"
  if completed then emptyOwner repo run owner base head baseRef false
  else awaitEmptyOwner repo run owner base head baseRef

/-- The run has failed, if it is to be completed. -/
def checkCompleted (completed : Bool) (run : Value) : Py Unit :=
  requireAll "original not completed failure" (if completed then
    [itemIs run ["status"] (.str "completed"), itemIs run ["conclusion"] (.str "failure")] else [])

/-- `original_run(repo, intent, completed)`. -/
def originalRun (repo : PyStr) (intent : Value) (completed : Bool) : ContinuationAct Value := do
  let run ← get ("repos/" ++ repo ++ "/actions/runs/" ++ pyText (intent.get "owner_run") ++
    "/attempts/1")
  checkOriginal repo intent run
  let prs ← run.item "pull_requests"
  match prs with
  | .list [] => do
    let pr ← lookupOwner repo intent run completed
    requireAll "fallback head ref" [itemsEqual pr ["head", "ref"] intent ["head_ref"]]
    checkCompleted completed run
    return run
  | .list [pr] => do
    recordedPr repo intent pr
    checkCompleted completed run
    return run
  | _ => Act.raise (.valueError "original PR inventory")

end Supplementary.Continuation
