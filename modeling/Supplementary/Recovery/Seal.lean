/-
# Sealing a run

`seal` writes the seed of a run, which grants the attempts after the second one.  It checks the pull
request, the writer and the run, and that the run is one of the receiver that seals its source; it
freezes the newest number of the scheduler, and adds the record unless there is one.

A program like `seal` or `defer` adds records of one kind where it has seen none, and never posts
(`Recording`).
-/
import Supplementary.Recovery.Lineage

namespace Supplementary.Recovery

open Effects PyStr Native Continuation

/-! ## 1. What is checked -/

/-- What `seal` compares before anything else; it returns `False` if one differs. -/
def isCandidate (repo : PyStr) (candidate : Value) : Py Bool :=
  allOf [itemIs candidate ["user", "login"] (.str "litroc"),
    itemIs candidate ["user", "type"] (.str "User"),
    itemIs candidate ["head", "repo", "full_name"] (.str repo),
    itemIs candidate ["base", "repo", "full_name"] (.str repo)]

/-- `live_pr(repo, pr)`, for any head and base. -/
def openPr (repo : PyStr) (number : Int) : ContinuationAct Value := do
  require (positive (.int number) = true) "PR ID"
  let value ← get ("repos/" ++ repo ++ "/pulls/" ++ ofInt number)
  requireAll "live human PR" [itemIs value ["number"] (.int number), itemIs value ["state"] (.str "open"),
    itemTest Value.isFalse value "draft", itemIs value ["user", "login"] (.str "litroc"),
    itemIs value ["user", "type"] (.str "User")]
  requireAll "PR refs" [itemIs value ["head", "repo", "full_name"] (.str repo),
    itemIs value ["base", "repo", "full_name"] (.str repo),
    itemIn value ["base", "ref"] ["develop", "main"], itemTruthy value ["head", "ref"],
    itemSha value ["head", "sha"], itemSha value ["base", "sha"]]
  return value

/-- `any(step.get("name", "").startswith(SOURCE_MARKER) for step in job["steps"])`. -/
def hasMarker (job : Value) : Py Bool := do
  anyOf ((← (← job.item "steps").iter).map isMarker)

def isList : Value → Bool
  | .list _ => true
  | _ => false

/-- A run from before the rollout has the aggregate job alone, and no marker. -/
def isPreRollout : List Value → Py Bool
  | [job] => allOf [itemIs job ["name"] (.str aggregate), itemTest isList job "steps",
      (do return !(← hasMarker job))]
  | _ => .ok false

/-- The job that `jobs_for(repo, run_id, 1, head, allow_pre_rollout=True)` selects. -/
def originalJob (runId : Int) (head : Value) (jobs : List Value) : Py Value := do
  demand "native job binding" (.ok (!jobs.isEmpty) :: jobs.flatMap (jobAt (.int runId) (.int 1) head))
  if ← isPreRollout jobs then return jobs.headD .none
  else selectVerifier (.int runId) (.int 1) head jobs

/-- `scheduler_frontier(repo)`. -/
def frontier (repo : PyStr) : ContinuationAct Value := do
  let workflow ← fetch ("repos/" ++ repo ++ "/actions/workflows/review-infrastructure-retry.yml")
  requireAll "scheduler workflow" [itemTest positive workflow "id",
    itemIs workflow ["path"] (.str schedulerPath)]
  let id ← workflow.item "id"
  let result ← fetch ("repos/" ++ repo ++ "/actions/workflows/" ++ pyText id ++ "/runs?per_page=1")
  let found ← result.item "workflow_runs"
  match found, ← result.item "total_count" with
  | .list rows, .int total => do
    require (0 ≤ total ∧ (rows.length : Int) = min 1 total) "scheduler frontier inventory"
    let number ← newestNumber id rows
    return .dict [("workflow_id", id), ("run_number", .int number)]
  | _, _ => Act.raise (.valueError "scheduler frontier inventory")

/-! ## 2. `seal` -/

variable (rt : Runtime)

/-- The entries of the seed. -/
def seedRecord (contract frontier : Value) (digested : PyStr) (now : Now) (claimRun : Int) :
    List (PyStr × Value) :=
  [("schema", .int 1), ("contract", contract), ("contract_sha256", .str digested),
    ("scheduler_frontier", frontier), ("created_at", .str now.stamp), ("claim_run", .int claimRun)]

/-- `journal.create(path, record)`, and what follows an unknown result. -/
def createSeed (repo repoId : PyStr) (journal : Journal) (path : PyStr)
    (entries : List (PyStr × Value)) : ContinuationAct Unit :=
  (create rt journal path (.dict entries)).catching fun e =>
    if isUnconfirmed e then do
      let _ ← readbackOnly rt repo repoId path
      Act.raise (.valueError "unconfirmed seed; readback only")
    else Act.raise e

/-- The part of `seal` from the contract on. -/
def sealContract (policy repo repoId : PyStr) (number runId : Int) (source : PyStr) (now : Now)
    (claimRun : Int) : ContinuationAct Bool := do
  let contract ← snapshot rt policy repo repoId number runId source
  let run ← fetch ("repos/" ++ repo ++ "/actions/runs/" ++ ofInt runId)
  demand "seal before attempt two" [itemIs run ["run_attempt"] (.int 1),
    itemIs run ["status"] (.str "completed")]
  let path ← rootPath runId
  let journal ← openJournal repo repoId
  let previous ← readJournal rt journal (path ++ "/seed.json")
  if previous.isNone then do
    let digested ← digest rt contract
    let frontier ← frontier repo
    createSeed rt repo repoId journal (path ++ "/seed.json")
      (seedRecord contract frontier digested now claimRun)
    let again ← snapshot rt policy repo repoId number runId source
    demand "post-seal drift" [.ok (again.pyEq contract)]
    return true
  else do
    validateSeed rt previous repo repoId runId
    demand "seed already owned" [itemIs previous ["contract"] contract,
      itemIs previous ["claim_run"] (.int claimRun)]
    return true

/-- `seal(repo, repo_id, pr, run_id, source, now)`. -/
def sealRun (site : Site) (repo repoId : PyStr) (number runId : Int) (source : PyStr) (now : Now) :
    ContinuationAct Bool := do
  if repo ∉ pilots then return false
  else do
    let candidate ← fetch ("repos/" ++ repo ++ "/pulls/" ++ ofInt number)
    if ← isCandidate repo candidate then do
      let claimRun ← writer site repo source helper "workflow_dispatch"
      let live ← openPr repo number
      let head ← itemAt live ["head", "sha"]
      let jobs ← inventory ("repos/" ++ repo ++ "/actions/runs/" ++ ofInt runId ++
        "/attempts/1/jobs?filter=all") (some "jobs")
      let original ← originalJob runId head jobs
      if ← hasMarker original then sealContract rt site.policy repo repoId number runId source now claimRun
      else do
        let again ← openPr repo number
        demand "legacy fallback live binding drift" [.ok (again.pyEq live)]
        return false
    else return false

/-! ## 3. Adding a record and nothing else -/

/-- What a program may ask for that adds records at such paths where it has seen none. -/
def Recording (rt : Runtime) (isPath : PyStr → Prop) (h : History) : ContinuationOp → Prop
  | .commit payload => Adds rt h payload ∧ ∃ path, pathOf payload = some path ∧ isPath path
  | .send _ _ => False
  | _ => True

variable {rt : Runtime} {isPath : PyStr → Prop}

theorem recording_read {h : History} {op : ContinuationOp} (hop : IsRead op) :
    Recording rt isPath h op := by
  cases op with
  | commit _ => exact hop.elim
  | send _ _ => exact hop.elim
  | _ => trivial

section

variable {α β : Type} {P : History → Prop} {x : ContinuationAct α} {f : α → ContinuationAct β}

theorem recording_of_reads (hx : Only IsRead x) (hP : Lasts P) : Within (Recording rt isPath) P x :=
  Within.of_only hx hP fun _ _ _ hop => recording_read hop

theorem recording_then (hx : Only IsRead x) (hP : Lasts P)
    (hf : ∀ a, Within (Recording rt isPath) P (f a)) : Within (Recording rt isPath) P (x >>= f) :=
  (recording_of_reads hx hP).bind hP hf

end

theorem recording_create (journal : Journal) {path : PyStr} (entries : List (PyStr × Value))
    (hpath : isPath path) :
    Within (Recording rt isPath) (fun _ => True) (create rt journal path (.dict entries)) := by
  have htrue : Lasts fun _ : History => True := lasts_true
  refine (recording_of_reads (reads_readJournal rt journal path) htrue).learn
    (K := fun present h => Saw rt h journal path present) htrue (fun _ _ _ _ _ hends => saw_of_ends hends)
    fun present => ?_
  refine within_lift_bind fun _ habsent => within_lift_bind fun raw hraw => ?_
  cases eq_none_of_isNone (raiseUnless_eq_ok.mp habsent)
  have hsaw : Lasts fun h : History => True ∧ Saw rt h journal path .none := htrue.and lasts_saw
  have hpost : Within (Recording rt isPath) (fun h => True ∧ Saw rt h journal path .none)
      (post (commitPayload journal path raw)) := by
    intro h s tr op hh hasks
    cases s with
    | none =>
      rcases asks_call.mp hasks with ⟨rfl, rfl⟩
      exact ⟨.intro hraw hh.2.append, path, pathOf_commitPayload journal path raw, hpath⟩
    | some budget => exact absurd hasks not_asks_ofExcept
  refine Within.bind (hpost.attempt_bind hsaw fun answer => within_ofExcept) hsaw fun result => ?_
  refine within_lift_bind fun _ _ => within_lift_bind fun oid _ => ?_
  exact recording_then (reads_readJournal _ _ _) hsaw fun readback => within_ofExcept

theorem Within.catching {A : History → ContinuationOp → Prop} {α : Type} {P : History → Prop}
    {x : ContinuationAct α} {handler : PyError → ContinuationAct α} (hx : Within A P x) (hP : Lasts P)
    (hhandler : ∀ e, Within A P (handler e)) : Within A P (x.catching handler) := by
  refine hx.attempt_bind hP fun r => ?_
  cases r with
  | ok a => exact within_pure
  | error e => exact hhandler e

/-! ## 4. The seed is all that is added -/

theorem reads_openPr (repo : PyStr) (number : Int) : Only IsRead (openPr repo number) := by
  refine reads_lift_bind fun _ => (reads_api _).bind fun value => reads_lift_bind fun _ => ?_
  exact reads_lift_bind fun _ => only_pure

theorem reads_frontier (repo : PyStr) : Only IsRead (frontier repo) := by
  refine (reads_fetch _).bind fun workflow => reads_lift_bind fun _ => reads_lift_bind fun id => ?_
  refine (reads_fetch _).bind fun result => reads_lift_bind fun found => reads_lift_bind fun total => ?_
  split
  · exact reads_lift_bind fun _ => reads_lift_bind fun number => only_pure
  · exact only_ofExcept

theorem recording_seal (site : Site) (repo repoId : PyStr) (number runId : Int) (source : PyStr)
    (now : Now) :
    Within (Recording rt fun path => path = seedPath runId) (fun _ => True)
      (sealRun rt site repo repoId number runId source now) := by
  have htrue : Lasts fun _ : History => True := lasts_true
  unfold sealRun
  split
  · exact within_pure
  refine recording_then (reads_fetch _) htrue fun candidate => within_lift_bind fun isOne _ => ?_
  split
  · refine recording_then (reads_writer _ _ _ _ _) htrue fun claimRun => ?_
    refine recording_then (reads_openPr _ _) htrue fun live => within_lift_bind fun head _ => ?_
    refine recording_then (reads_inventory _ _) htrue fun jobs => within_lift_bind fun original _ => ?_
    refine within_lift_bind fun marked _ => ?_
    split
    · refine recording_then (reads_snapshot _ _ _ _ _ _) htrue fun contract => ?_
      refine recording_then (reads_fetch _) htrue fun run => within_lift_bind fun _ _ => ?_
      refine within_lift_bind fun path hpath => ?_
      obtain ⟨_, -, hroot⟩ := bind_eq_ok.mp hpath
      cases hroot
      refine recording_then (reads_openJournal _ _) htrue fun journal => ?_
      refine recording_then (reads_readJournal _ _ _) htrue fun previous => ?_
      split
      · refine within_lift_bind fun digested _ => recording_then (reads_frontier _) htrue fun frontier => ?_
        refine Within.bind (Within.catching (recording_create journal _ rfl) htrue fun e => ?_) htrue
          fun _ => ?_
        · split
          · exact recording_then (reads_readbackOnly _ _ _) htrue fun _ => within_ofExcept
          · exact within_ofExcept
        · refine recording_then (reads_snapshot _ _ _ _ _ _) htrue fun again => ?_
          exact within_lift_bind fun _ _ => within_pure
      · exact within_lift_bind fun _ _ => within_lift_bind fun _ _ => within_pure
    · refine recording_then (reads_openPr _ _) htrue fun again => ?_
      exact within_lift_bind fun _ _ => within_pure
  · exact within_pure

end Supplementary.Recovery
