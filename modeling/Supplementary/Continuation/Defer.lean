/-
# Deferring a first request

`defer` records that the first review request of a head is to be made later.  It checks the pull
request and its run, opens the journal, and unless the key is recorded already it tries to add the
deferred intent, up to three times: a try that the server refused because the head had moved is made
again at the new head, and after any other failure the journal is only read.
-/
import Supplementary.Continuation.Original

namespace Supplementary.Continuation

open Effects PyStr Native

/-! ## 1. The controller -/

/-- `re.fullmatch(r"[1-9][0-9]*", repo_id)`. -/
def isRepoId (s : PyStr) : Bool :=
  match s.codePoints with
  | [] => false
  | c :: rest => (49 ≤ c && c ≤ 57) && rest.all fun d => 48 ≤ d && d ≤ 57

/-- `value["status"] == "identical" or ...`: the source is an ancestor of the branch. -/
def isAncestry (source : PyStr) (ancestry : Value) : Py Bool := do
  let status ← ancestry.attr "status"
  anyOf [.ok (status.isText "identical"), allOf [.ok (status.isText "ahead"),
    (do return (← ancestry.attr "behind_by").pyEq (.int 0)),
    (do
      let base ← ancestry.attrD "merge_base_commit" (.dict [])
      return (← base.attr "sha").isText source)]]

/-- `repository(repo, repo_id, source, base_ref)`. -/
def repository (repo repoId source baseRef : PyStr) : ContinuationAct Value := do
  require (repo ∈ pilots ∧ isRepoId repoId = true ∧ isSha (.str source) = true) "pilot/source"
  let data ← get ("repos/" ++ repo)
  requireAll "repository" [itemIs data ["full_name"] (.str repo),
    (do return pyText (← data.item "id") = repoId), itemIs data ["default_branch"] (.str "develop")]
  require (baseRef ∈ (["develop", "main"] : List PyStr)) "protected base ref"
  let branch ← get ("repos/" ++ repo ++ "/branches/" ++ baseRef)
  requireAll "protected default" [itemIs branch ["name"] (.str baseRef),
    (do return (← branch.item "protected").isTrue), itemSha branch ["commit", "sha"]]
  let tip ← itemAt branch ["commit", "sha"]
  let ancestry ← get ("repos/" ++ repo ++ "/compare/" ++ source ++ "..." ++ pyText tip)
  requireAll "source ancestry" [isAncestry source ancestry]
  return tip

/-! ## 2. What is deferred -/

/-- The environment of the process: its variables, the event at `GITHUB_EVENT_PATH`, and what `int`
makes of `PR_NUMBER` and `GITHUB_RUN_ID`. -/
structure Inputs where
  environ : PyStr → Option PyStr
  event : Py Value
  prNumber : Py Int
  runId : Py Int

/-- `os.environ[name]`. -/
def envVar (inputs : Inputs) (name : PyStr) : Py PyStr :=
  match inputs.environ name with
  | some text => .ok text
  | none => .error .keyError

/-- `os.environ[name] in texts`. -/
def envIn (inputs : Inputs) (name : PyStr) (texts : List PyStr) : Py Bool := do
  return decide ((← envVar inputs name) ∈ texts)

/-- What `defer` records, and where. -/
structure Deferral where
  repo : PyStr
  repoId : PyStr
  source : PyStr
  key : PyStr
  entries : List (PyStr × Value)

def Deferral.intent (d : Deferral) : Value := .dict d.entries

/-- `environment()`. -/
def environment (inputs : Inputs) : Py (PyStr × PyStr × PyStr) := do
  let repo ← envVar inputs "GITHUB_REPOSITORY"
  let repoId ← envVar inputs "GITHUB_REPOSITORY_ID"
  let source ← envVar inputs "WORKFLOW_SHA"
  require (inputs.environ "LI219_EVENT_MODE" = some "enabled" ∧ repo ∈ pilots) "inactive pilot"
  require ((← envVar inputs "GITHUB_RUN_ATTEMPT") = "1") "attempt"
  return (repo, repoId, source)

/-- `event["pull_request"]` is the pull request. -/
def checkEvent (repo : PyStr) (event pr : Value) : Py Unit :=
  let side (name : PyStr) : List (Py Bool) :=
    [itemsEqual event ["pull_request", name, "ref"] pr [name, "ref"],
      itemIs event ["pull_request", name, "repo", "full_name"] (.str repo)]
  requireAll "event PR" ([itemsEqual event ["pull_request", "number"] pr ["number"],
    itemsEqual event ["pull_request", "head", "sha"] pr ["head", "sha"],
    itemsEqual event ["pull_request", "base", "sha"] pr ["base", "sha"],
    itemIs event ["pull_request", "user", "login"] (.str "litroc")] ++ side "base" ++ side "head")

/-- The entries of `intent`. -/
def intentOf (repo repoId key source createdAt : PyStr) (runId : Int) (action pr : Value) :
    Py (List (PyStr × Value)) := do
  let number ← pr.item "number"
  let base ← itemAt pr ["base", "sha"]
  let head ← itemAt pr ["head", "sha"]
  let baseRef ← itemAt pr ["base", "ref"]
  let headRef ← itemAt pr ["head", "ref"]
  return [("schema", .int 2), ("source_ref", .str "develop"),
    ("kind", .str "deferred-first-request"), ("repository", .str repo),
    ("repository_id", .str repoId), ("operation", .str key), ("pr", number), ("base", base),
    ("head", head), ("base_ref", baseRef), ("head_ref", headRef), ("owner_run", .int runId),
    ("owner_attempt", .int 1), ("source_sha", .str source), ("event", .str "pull_request_target"),
    ("action", action), ("author", .str "litroc"), ("actor", .str "litroc"),
    ("triggering_actor", .str "litroc"), ("created_at", .str createdAt)]

/-- `repository(repo, repo_id, sha, ref) == sha`. -/
def checkController (repo repoId : PyStr) (sha ref : Value) (message : String) :
    ContinuationAct Unit := do
  let tip ← repository repo repoId (pyText sha) (pyText ref)
  require (tip.pyEq sha = true) message

/-- The part of `defer` before the journal is opened. -/
def prepare (inputs : Inputs) : ContinuationAct Deferral := do
  let (repo, repoId, source) ← environment inputs
  requireAll "original authority" [envIn inputs "GITHUB_EVENT_NAME" ["pull_request_target"],
    envIn inputs "GITHUB_ACTOR" ["litroc"], envIn inputs "GITHUB_TRIGGERING_ACTOR" ["litroc"],
    envIn inputs "GITHUB_REF_PROTECTED" ["true"],
    envIn inputs "GITHUB_REF" ["refs/heads/develop", "refs/heads/main"]]
  let event ← inputs.event
  requireAll "original action" [itemIn event ["action"] ["opened", "ready_for_review", "synchronize"]]
  let number ← inputs.prNumber
  let expectedHead ← envVar inputs "EXPECTED_HEAD"
  let expectedBase ← envVar inputs "EXPECTED_BASE"
  let pr ← livePr repo (.int number) (.str expectedHead) (some (.str expectedBase))
  checkEvent repo event pr
  let baseRef ← itemAt pr ["base", "ref"]
  let baseSha ← itemAt pr ["base", "sha"]
  requireAll "original PR base execution" [envIn inputs "GITHUB_REF" ["refs/heads/" ++ pyText baseRef],
    envIn inputs "GITHUB_SHA" [pyText baseSha]]
  requireAll "original default controller execution"
    [envIn inputs "GITHUB_WORKFLOW_REF" [repo ++ "/" ++ producer ++ "@refs/heads/develop"]]
  checkController repo repoId (.str source) (.str "develop") "current default controller"
  checkController repo repoId baseSha baseRef "current PR base"
  let key := keyFor repoId (pyText (pr.get "number")) (pyText ((pr.get "head").get "sha"))
  let runId ← inputs.runId
  let action ← event.item "action"
  let createdAt ← Act.call ContinuationOp.utcnow
  let intent ← intentOf repo repoId key source createdAt runId action pr
  let _ ← originalRun repo (.dict intent) false
  return ⟨repo, repoId, source, key, intent⟩

/-! ## 3. The tries -/

variable (rt : Runtime)

/-- The pull request and its controllers are as they were; `what` begins the messages. -/
def checkLive (d : Deferral) (refs controller base : String) : ContinuationAct Unit := do
  let current ← livePr d.repo (d.intent.get "pr") (d.intent.get "head") (some (d.intent.get "base"))
  requireAll refs [itemIs current ["base", "ref"] (d.intent.get "base_ref"),
    itemIs current ["head", "ref"] (d.intent.get "head_ref")]
  checkController d.repo d.repoId (.str d.source) (d.intent.get "source_ref") controller
  checkController d.repo d.repoId (d.intent.get "base") (d.intent.get "base_ref") base

/-- `journal.read(record_path(key)) is not None` or `journal.read(record_path(key, True)) is not None`;
the second is read only if the first is `None`. -/
def isRecorded (journal : Journal) (key : PyStr) : ContinuationAct Bool := do
  let operations ← recordPath key false
  let operation ← readJournal rt journal operations
  if operation.isNone then do
    let path ← recordPath key true
    let deferred ← readJournal rt journal path
    return !deferred.isNone
  else return true

/-- One try. -/
def tryDefer (d : Deferral) (journal : Journal) : ContinuationAct Unit := do
  checkLive d "intent ref drift" "intent controller drift" "intent PR base drift"
  let path ← recordPath d.key true
  create rt journal path d.intent

/-- After an unknown delivery: the journal is read, and nothing else. -/
def confirm (d : Deferral) : ContinuationAct Unit := do
  let journal ← openJournal d.repo d.repoId
  let path ← recordPath d.key true
  let deferred ← readJournal rt journal path
  require (deferred.pyEq d.intent = true) "unconfirmed deferred intent"
  let operations ← recordPath d.key false
  let operation ← readJournal rt journal operations
  require (operation.isNone = true) "unconfirmed deferred intent"

/-- `except (ValueError, KeyError, TypeError, OSError, subprocess.SubprocessError)`. -/
def isCaught (e : PyError) : Bool :=
  e.isValueError || e = .keyError || e = .typeError || e = .osError || e.isSubprocessError

/-- The loop over the tries. -/
def tries (d : Deferral) : (left : Nat) → Journal → ContinuationAct Unit
  | 0, _ => pure ()
  | left + 1, journal => do
    match ← Act.attempt (tryDefer rt d journal) with
    | .ok () => pure ()
    | .error e =>
      if e = .confirmedIntentConflict then do
        let journal ← openJournal d.repo d.repoId
        if ← isRecorded rt journal d.key then pure ()
        else do
          require (0 < left) "deferred intent conflict budget exhausted"
          let _ ← livePr d.repo (d.intent.get "pr") (d.intent.get "head") (some (d.intent.get "base"))
          tries d left journal
      else if isCaught e then confirm rt d
      else Act.raise e

/-- The part of `defer` from the journal on. -/
def record (d : Deferral) : ContinuationAct Unit := do
  let journal ← openJournal d.repo d.repoId
  if ← isRecorded rt journal d.key then pure ()
  else do
    tries rt d 3 journal
    checkLive d "recorded intent ref drift" "recorded intent controller drift"
      "recorded intent PR base drift"

/-- `defer()`. -/
def defer (inputs : Inputs) : ContinuationAct Unit := do
  let d ← prepare inputs
  record rt d

end Supplementary.Continuation
