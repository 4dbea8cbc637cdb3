/-
# Recovering a sealed run

`recover` is what a scheduled worker does for one sealed run: it may claim the next native attempt in
the journal, and only after its claim was confirmed, and everything was read again, does it ask for the
rerun.  Whatever else it writes closes the run.
-/
import Supplementary.Recovery.Contract

namespace Supplementary.Recovery

open Effects PyStr Native Continuation

/-- What is fixed for a worker: its environment, what `int` makes of `GITHUB_RUN_ID`, and
`policy_hash()`. -/
structure Site where
  environ : PyStr → Option PyStr
  runId : Py Int
  policy : PyStr

/-- `now`: the instant that a sweep began at, and its `stamp`. -/
structure Now where
  timestamp : ℚ
  stamp : PyStr

variable (rt : Runtime)

/-! ## 1. Seeds and claims -/

/-- `f"li259/{run_id}"`. -/
def rootPath (runId : Int) : Py PyStr := do
  demand "run identity" [.ok (decide (0 < runId))]
  return "li259/" ++ ofInt runId

/-- A digest in lower case. -/
def isDigest : Value → Bool
  | .str s => s.length = 64 && s.codePoints.all fun c => (48 ≤ c && c ≤ 57) || (97 ≤ c && c ≤ 102)
  | _ => false

/-- `validate_seed(seed, repo, repo_id, run_id)`. -/
def validateSeed (seed : Value) (repo repoId : PyStr) (runId : Int) : Py Unit := do
  demand "seed contract" [.ok seed.isDict, itemTest (isIntOf [1]) seed "schema",
    itemIs seed ["contract", "repository"] (.str repo),
    itemIs seed ["contract", "repository_id"] (.str repoId),
    itemIs seed ["contract", "run_id"] (.int runId),
    (do
      let sealed ← seed.item "contract_sha256"
      let digested ← digest rt (← seed.item "contract")
      return sealed.isText digested),
    (do return isDigest (← itemAt seed ["contract", "policy_sha256"])),
    itemTest positive seed "claim_run"]
  let _ ← itemEpoch seed "created_at"
  let frontier ← seed.item "scheduler_frontier"
  demand "scheduler frontier" [itemTest positive frontier "workflow_id",
    itemTest (fun number => isInt number && 0 ≤ identity number) frontier "run_number"]

/-- `validate_claim(claim, seed, attempt)`. -/
def validateClaim (claim seed : Value) (attempt : Int) : Py Unit := do
  demand "technical claim" [.ok claim.isDict, itemTest (isIntOf [1]) claim "schema",
    itemIs claim ["attempt"] (.int attempt), itemTest isInt claim "attempt",
    itemsEqual claim ["contract_sha256"] seed ["contract_sha256"],
    itemIs claim ["state"] (.str "consumed-before-post"), itemTest positive claim "claim_run",
    itemIs claim ["cause", "attempt"] (.int (attempt - 1)),
    itemIs claim ["cause", "code"] (.str causeCode)]
  let started ← itemEpoch seed "created_at"
  let claimed ← itemEpoch claim "created_at"
  let cause ← claim.item "cause"
  let completed ← itemEpoch cause "completed_at"
  demand "claimed budget" [.ok (decide (started ≤ completed)),
    (do return decide (completed + (← cooldownSeconds attempt) ≤ claimed)),
    .ok (decide (claimed + reserveSeconds ≤ started + totalSeconds))]

/-- What is elected from the runs of the scheduler. -/
def electFrom (repo : PyStr) (seed cause : Value) (attempt : Int) (runs : List Value) : Py Value := do
  let frontier ← seed.item "scheduler_frontier"
  let workflow ← frontier.item "workflow_id"
  let start ← itemEpoch seed "created_at"
  let stop ← Clock.epoch (.str (← Clock.stamp (start + totalSeconds)))
  let rows ← runs.mapM (bindRun repo workflow start stop)
  let later ← laterRuns (← frontierNumber (← frontier.item "run_number")) rows
  let completed ← itemEpoch cause "completed_at"
  firstEligible (completed + (← cooldownSeconds attempt)) later

/-- The route of the runs that a claimant is elected from. -/
def electionRoute (repo : PyStr) (seed : Value) : Py PyStr := do
  let frontier ← seed.item "scheduler_frontier"
  let start ← itemEpoch seed "created_at"
  let stop ← Clock.stamp (start + totalSeconds)
  let workflow ← frontier.item "workflow_id"
  let created ← seed.item "created_at"
  return "repos/" ++ repo ++ "/actions/workflows/" ++ pyText workflow ++ "/runs?created=" ++
    pyText created ++ ".." ++ stop

/-- `elected_claimant(repo, seed, cause, attempt)`. -/
def electedClaimant (repo : PyStr) (seed cause : Value) (attempt : Int) : ContinuationAct Value := do
  let route ← electionRoute repo seed
  let runs ← inventory route (some "workflow_runs")
  electFrom repo seed cause attempt runs

/-! ## 2. Workers -/

/-- The run is the worker's. -/
def checkWriter (repo source path event : PyStr) (runId : Int) (run : Value) : Py Unit :=
  let actors : List PyStr := if event = "workflow_dispatch" then ["github-actions[bot]"]
    else ["litroc", "github-actions[bot]"]
  demand "native writer" [itemIs run ["id"] (.int runId), itemTest (isIntOf [1]) run "run_attempt",
    itemIs run ["path"] (.str path), itemIs run ["event"] (.str event),
    itemIs run ["head_sha"] (.str source), itemIs run ["repository", "full_name"] (.str repo),
    itemIs run ["head_repository", "full_name"] (.str repo),
    itemsEqual run ["actor", "login"] run ["triggering_actor", "login"],
    itemIn run ["actor", "login"] actors]

/-- `writer(repo, source, path, event)`. -/
def writer (site : Site) (repo source path event : PyStr) : ContinuationAct Int := do
  let env : Inputs := ⟨site.environ, .ok .none, .ok 0, .ok 0⟩
  demand "protected writer environment" [envIn env "GITHUB_RUN_ATTEMPT" ["1"],
    envIn env "GITHUB_EVENT_NAME" [event], envIn env "GITHUB_REF_PROTECTED" ["true"],
    envIn env "GITHUB_WORKFLOW_SHA" [source]]
  let runId ← site.runId
  let run ← fetch ("repos/" ++ repo ++ "/actions/runs/" ++ ofInt runId)
  checkWriter repo source path event runId run
  return runId

/-- `scheduler_claimant(repo, seed, claimant, posting=True)`. -/
def schedulerClaimant (repo : PyStr) (seed : Value) (claimant : Int) : ContinuationAct Unit := do
  let run ← fetch ("repos/" ++ repo ++ "/actions/runs/" ++ ofInt claimant)
  demand "native scheduler claimant" [itemIs run ["id"] (.int claimant),
    itemsEqual run ["workflow_id"] seed ["scheduler_frontier", "workflow_id"],
    itemIs run ["path"] (.str schedulerPath), itemIs run ["event"] (.str "schedule"),
    itemsEqual run ["head_sha"] seed ["contract", "scheduler_source"],
    itemIs run ["head_branch"] (.str "develop"), itemTest (isIntOf [1]) run "run_attempt",
    itemIs run ["repository", "full_name"] (.str repo),
    itemIs run ["head_repository", "full_name"] (.str repo),
    itemIn run ["actor", "login"] ["litroc", "github-actions[bot]"],
    itemsEqual run ["triggering_actor", "login"] run ["actor", "login"],
    itemIn run ["status"] ["in_progress"]]

/-- `except (ValueError, OSError, subprocess.SubprocessError)`. -/
def isUnconfirmed (e : PyError) : Bool := e.isValueError || e = .osError || e.isSubprocessError

/-- `readback_only(repo, repo_id, path)`. -/
def readbackOnly (repo repoId path : PyStr) : ContinuationAct Value :=
  (do
    let journal ← openJournal repo repoId
    readJournal rt journal path : ContinuationAct Value).catching fun e =>
      if e = .keyError || e = .typeError || isUnconfirmed e then return .none else Act.raise e

/-- The record of the owner's rerun. -/
def isConsumption (key : PyStr) (seed record : Value) : Py Bool :=
  allOf [itemIs record ["schema"] (.int 1), itemIs record ["action"] (.str "rerun"),
    itemIs record ["operation"] (.str key),
    itemsEqual record ["repository"] seed ["contract", "repository"],
    itemsEqual record ["repository_id"] seed ["contract", "repository_id"],
    (do
      let claimed ← record.item "claim_run"
      let run ← seed.item "claim_run"
      return claimed.isText (pyText run)),
    itemIs record ["claim_attempt"] (.str "1"),
    itemsEqual record ["source_sha"] seed ["contract", "writer_source"]]

/-- The key of the owner's rerun. -/
def consumptionKey (seed : Value) : Py PyStr := do
  let pr ← itemAt seed ["contract", "pr"]
  let base ← itemAt seed ["contract", "base"]
  let head ← itemAt seed ["contract", "head"]
  let run ← itemAt seed ["contract", "run_id"]
  return "li219-verifier-operation:v1:" ++ pyText pr ++ ":" ++ pyText base ++ ":" ++ pyText head ++ ":" ++
    pyText run

/-- The run that claimed the owner's rerun. -/
def checkCaller (seed caller : Value) : Py Unit :=
  demand "original event caller" [itemsEqual caller ["id"] seed ["claim_run"],
    itemIs caller ["run_attempt"] (.int 1), itemIs caller ["path"] (.str helper),
    itemIs caller ["event"] (.str "workflow_dispatch"),
    itemsEqual caller ["head_sha"] seed ["contract", "writer_source"],
    itemsEqual caller ["repository", "full_name"] seed ["contract", "repository"],
    itemsEqual caller ["head_repository", "full_name"] seed ["contract", "repository"],
    itemIs caller ["actor", "login"] (.str "github-actions[bot]"),
    itemIs caller ["triggering_actor", "login"] (.str "github-actions[bot]")]

/-- `original_consumption(journal, seed, allow_pending=allow_pending)`. -/
def originalConsumption (journal : Journal) (seed : Value) (allowPending : Bool) :
    ContinuationAct Bool := do
  let key ← consumptionKey seed
  let path ← recordPath key false
  let record ← readJournal rt journal path
  demand "original event consumption" [if record.isNone then .ok allowPending
    else isConsumption key seed record]
  let repository ← itemAt seed ["contract", "repository"]
  let run ← seed.item "claim_run"
  let caller ← fetch ("repos/" ++ pyText repository ++ "/actions/runs/" ++ pyText run)
  checkCaller seed caller
  return !record.isNone

/-- The entries of the record that closes a run. -/
def terminalRecord (seed : Value) (reason : PyStr) (now : Now) (attempt : Value) :
    Py (List (PyStr × Value)) := do
  let contract ← seed.item "contract_sha256"
  let created ← itemEpoch seed "created_at"
  return [("schema", .int 1), ("contract_sha256", contract), ("state", .str reason),
    ("created_at", .str now.stamp), ("native_attempt", attempt), ("max_attempt", .int maxAttempt),
    ("deadline_epoch", .int (created + totalSeconds))]

/-- `terminal(journal, path, seed, reason, now, attempt)`. -/
def terminal (journal : Journal) (path : PyStr) (seed : Value) (reason : PyStr) (now : Now)
    (attempt : Value) : ContinuationAct Unit := do
  let entries ← terminalRecord seed reason now attempt
  (create rt journal path (.dict entries)).catching fun e =>
    if isUnconfirmed e then do
      let found ← readbackOnly rt journal.repo journal.repoId path
      raiseUnless (.globalReadFailure "terminal record not confirmed") (found.pyEq (.dict entries) = true)
    else Act.raise e

/-! ## 3. `recover_bound` -/

/-- `except CandidateClosed`. -/
def isClosed : PyError → Bool
  | .candidateClosed _ => true
  | _ => false

/-- What a worker recovers, and as whom. -/
structure Bound where
  repo : PyStr
  repoId : PyStr
  runId : Int
  source : PyStr
  now : Now
  claimant : Int
  path : PyStr
  journal : Journal
  seed : Value

def Bound.attemptPath (b : Bound) (number : Int) : PyStr :=
  b.path ++ "/attempt-" ++ ofInt number ++ ".json"

/-- The seed's deadline. -/
def Bound.deadline (b : Bound) : Py Int := do return (← itemEpoch b.seed "created_at") + totalSeconds

/-- `terminal(journal, path + "/terminal.json", seed, reason, now, attempt)` and `return "terminal"`. -/
def Bound.close (b : Bound) (reason : PyStr) (attempt : Value) : ContinuationAct String := do
  terminal rt b.journal (b.path ++ "/terminal.json") b.seed reason b.now attempt
  return "terminal"

/-- The handoff is still pending, or expired. -/
def Bound.handoff (b : Bound) (deadline : Int) : String :=
  if b.now.timestamp ≤ deadline then "handoff-pending-readback-only" else "handoff-expired-readback-only"

/-- `infrastructure_cause(repo, run, c["head"], now)`. -/
def Bound.cause (b : Bound) (run : Value) : ContinuationAct Value := do
  let head ← itemAt b.seed ["contract", "head"]
  infrastructureCause rt b.repo run head

/-- The cause, or `None` where the candidate is closed. -/
def Bound.observedCause (b : Bound) (observed : Value) : ContinuationAct Value :=
  (b.cause rt observed).catching fun e => if isClosed e then return .none else Act.raise e

/-- The checks of a run that has completed, before any other; what is returned if they end the work. -/
def Bound.observe (b : Bound) (deadline attempt : Int) (observed : Value) :
    ContinuationAct (Option String) := do
  let cause ← b.observedCause rt observed
  if cause.isNone then return none
  else do
    let completed ← itemEpoch cause "completed_at"
    let cooldown ← cooldownSeconds (attempt + 1)
    if deadline < completed + cooldown + reserveSeconds then do
      let consumed ← originalConsumption rt b.journal b.seed true
      if consumed then do
        let result ← b.close rt "budget-exhausted" (.int attempt)
        return some result
      else return some (b.handoff deadline)
    else if ((completed + cooldown : Int) : ℚ) ≤ b.now.timestamp then do
      let elected ← electedClaimant b.repo b.seed cause (attempt + 1)
      if elected.pyEq (.int b.claimant) then return none
      else do
        let _ ← readbackOnly rt b.repo b.repoId (b.attemptPath (attempt + 1))
        return some "native-owner-readback-only"
    else return none

/-- The claims of the attempts from `number` on, `left` of them. -/
def Bound.validateClaims (b : Bound) : (left : Nat) → (number : Int) → ContinuationAct Unit
  | 0, _ => return ()
  | left + 1, number => do
    let claim ← readJournal rt b.journal (b.attemptPath number)
    validateClaim claim b.seed number
    b.validateClaims left (number + 1)

/-- The record that claims an attempt. -/
def Bound.claimRecord (b : Bound) (attempt : Int) (cause : Value) : Py (List (PyStr × Value)) := do
  let contract ← b.seed.item "contract_sha256"
  return [("schema", .int 1), ("contract_sha256", contract), ("attempt", .int attempt), ("cause", cause),
    ("created_at", .str b.now.stamp), ("claim_run", .int b.claimant),
    ("state", .str "consumed-before-post")]

/-- `snapshot(repo, repo_id, c["pr"], run_id, c["writer_source"]) == c`, for the integer and the text that
`seal` writes there; another value closes the candidate. -/
def Bound.isCurrent (b : Bound) (policy : PyStr) : ContinuationAct Bool := do
  let contract ← b.seed.item "contract"
  let pr ← contract.item "pr"
  let source ← contract.item "writer_source"
  match pr, source with
  | .int number, .str writerSource => do
    let found ← snapshot rt policy b.repo b.repoId number b.runId writerSource
    return found.pyEq contract
  | _, _ => Act.raise (.candidateClosed "contract drift")

/-- The checks between the claim and the rerun. -/
def Bound.recheck (b : Bound) (policy claimPath : PyStr) (deadline attempt : Int)
    (record cause : Value) : ContinuationAct Unit := do
  let fresh ← openJournal b.repo b.repoId
  let _ ← originalConsumption rt fresh b.seed false
  let current ← b.isCurrent rt policy
  demand "post-claim contract drift" [.ok current]
  let run ← fetch ("repos/" ++ b.repo ++ "/actions/runs/" ++ ofInt b.runId)
  let again ← b.cause rt run
  demand "post-claim native drift" [.ok (again.pyEq cause)]
  let elected ← electedClaimant b.repo b.seed cause attempt
  demand "post-claim native owner drift" [.ok (elected.pyEq (.int b.claimant))]
  let fresh ← openJournal b.repo b.repoId
  let claim ← readJournal rt fresh claimPath
  demand "post-claim readback" [.ok (claim.pyEq record)]
  let closed ← readJournal rt fresh (b.path ++ "/terminal.json")
  demand "post-claim readback" [.ok closed.isNone]
  schedulerClaimant b.repo b.seed b.claimant
  let now ← Act.call ContinuationOp.timestamp
  demand "post-claim deadline" [.ok (decide (now + (reserveSeconds : ℚ) ≤ (deadline : ℚ)))]

/-- The rerun of the job that failed. -/
def Bound.rerun (b : Bound) (cause : Value) : ContinuationAct String := do
  let job ← cause.item "job_id"
  let answer ← Act.attempt (send ("repos/" ++ b.repo ++ "/actions/jobs/" ++ pyText job ++ "/rerun")
    (.dict []))
  match answer with
  | .ok _ => return "dispatched"
  | .error e =>
    if isUnconfirmed e then do
      let _ ← fetch ("repos/" ++ b.repo ++ "/actions/runs/" ++ ofInt b.runId)
      return "unknown-post-readback-only"
    else Act.raise e

/-- From the claim of an attempt on. -/
def Bound.claim (b : Bound) (policy : PyStr) (deadline attempt : Int) (cause : Value) :
    ContinuationAct String := do
  let claimPath := b.attemptPath attempt
  let entries ← b.claimRecord attempt cause
  validateClaim (.dict entries) b.seed attempt
  let created ← Act.attempt (create rt b.journal claimPath (.dict entries))
  match created with
  | .error e =>
    if isUnconfirmed e then do
      let _ ← readbackOnly rt b.repo b.repoId claimPath
      return "unconfirmed-claim-readback-only"
    else Act.raise e
  | .ok () => do
    let checked ← Act.attempt (b.recheck rt policy claimPath deadline attempt (.dict entries) cause)
    match checked with
    | .error e =>
      if isClosed e then do
        let _ ← readbackOnly rt b.repo b.repoId claimPath
        return "consumed-readback-only"
      else Act.raise e
    | .ok () => b.rerun cause

/-- The part of `recover_bound` after a failed attempt below the limit was seen. -/
def Bound.retry (b : Bound) (policy : PyStr) (deadline attempt : Int) (run : Value) :
    ContinuationAct String := do
  let found ← Act.attempt (b.cause rt run)
  match found with
  | .error e =>
    if isClosed e then b.close rt "non-retryable-native-failure" (.int attempt) else Act.raise e
  | .ok cause => do
    let completed ← itemEpoch cause "completed_at"
    let cooldown ← cooldownSeconds (attempt + 1)
    if b.now.timestamp < ((completed + cooldown : Int) : ℚ) then return "cooldown"
    else do
      let claimed ← readJournal rt b.journal (b.attemptPath (attempt + 1))
      if claimed.isNone then do
        let elected ← electedClaimant b.repo b.seed cause (attempt + 1)
        if elected.pyEq (.int b.claimant) then b.claim rt policy deadline (attempt + 1) cause
        else do
          let _ ← readbackOnly rt b.repo b.repoId (b.attemptPath (attempt + 1))
          return "native-owner-readback-only"
      else return "consumed-readback-only"

/-- The native attempt, which is an integer within the limit. -/
def nativeAttempt (run : Value) : Py Int := do
  match ← run.item "run_attempt" with
  | .int attempt => do
    demand "native attempt limit" [.ok (decide (1 ≤ attempt ∧ attempt ≤ maxAttempt))]
    return attempt
  | _ => .error (.candidateClosed "native attempt limit")

/-- The part of `recover_bound` after the contract was seen to stand. -/
def Bound.proceed (b : Bound) (policy : PyStr) (deadline : Int) : ContinuationAct String := do
  let run ← fetch ("repos/" ++ b.repo ++ "/actions/runs/" ++ ofInt b.runId)
  let attempt ← nativeAttempt run
  if attempt = 1 then return b.handoff deadline
  else do
    b.validateClaims rt (attempt - 2).toNat 3
    let status ← run.item "status"
    if status.isText "completed" = false then return "active"
    else do
      let conclusion ← run.item "conclusion"
      if conclusion.isText "success" then b.close rt "verified" (.int attempt)
      else if maxAttempt ≤ attempt ∨ (deadline : ℚ) < b.now.timestamp + (reserveSeconds : ℚ) then
        b.close rt "budget-exhausted" (.int attempt)
      else b.retry rt policy deadline attempt run

/-- The contract stands: it is the sealed one, for the source of this worker. -/
def Bound.checkContract (b : Bound) (policy : PyStr) : ContinuationAct Unit := do
  let sealed ← itemAt b.seed ["contract", "scheduler_source"]
  demand "contract drift" [.ok (sealed.isText b.source)]
  let current ← b.isCurrent rt policy
  demand "contract drift" [.ok current]

/-- The part of `recover_bound` after the first look at the run. -/
def Bound.contract (b : Bound) (policy : PyStr) (deadline : Int) (observed : Value) :
    ContinuationAct String := do
  let consumed ← originalConsumption rt b.journal b.seed true
  if consumed then do
    let checked ← Act.attempt (b.checkContract rt policy)
    match checked with
    | .error e =>
      if isClosed e then b.close rt "contract-drift" observed else Act.raise e
    | .ok () => b.proceed rt policy deadline
  else return b.handoff deadline

/-- `recover_bound(repo, repo_id, run_id, source, now, claimant, path, journal, seed)`. -/
def recoverBound (policy : PyStr) (b : Bound) : ContinuationAct String := do
  let _ ← b.seed.item "contract"
  let deadline ← b.deadline
  let observed ← fetch ("repos/" ++ b.repo ++ "/actions/runs/" ++ ofInt b.runId)
  match ← observed.item "run_attempt" with
  | .int attempt => do
    if attempt = 2 ∨ attempt = 3 then do
      let claimed ← readJournal rt b.journal (b.attemptPath (attempt + 1))
      if claimed.isNone then do
        let status ← observed.item "status"
        let ended ← if status.isText "completed" then b.observe rt deadline attempt observed
          else pure none
        match ended with
        | some result => return result
        | none => b.contract rt policy deadline (.int attempt)
      else return "consumed-readback-only"
    else b.contract rt policy deadline (.int attempt)
  | _ => Act.raise (.candidateClosed "native attempt type")

/-- `recover(repo, repo_id, run_id, source, now)`. -/
def recover (site : Site) (repo repoId : PyStr) (runId : Int) (source : PyStr) (now : Now) :
    ContinuationAct String := do
  let claimant ← writer site repo source schedulerPath "schedule"
  let path ← rootPath runId
  let journal ← openJournal repo repoId
  let seed ← readJournal rt journal (path ++ "/seed.json")
  if seed.isNone then return "inactive"
  else do
    let closed ← readJournal rt journal (path ++ "/terminal.json")
    if closed.isNone then do
      validateSeed rt seed repo repoId runId
      let b : Bound := ⟨repo, repoId, runId, source, now, claimant, path, journal, seed⟩
      (recoverBound rt site.policy b).catching fun e =>
        if isClosed e then do
          let fresh ← openJournal repo repoId
          terminal rt fresh (path ++ "/terminal.json") seed "contract-drift" now .none
          return "terminal"
        else Act.raise e
    else return "inactive"

end Supplementary.Recovery
