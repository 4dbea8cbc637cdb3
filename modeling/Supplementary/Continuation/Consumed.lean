/-
# Any number of resumes

Any number of executions of `resume` for one key, as programs that write to one journal.

`resume_once`: the review is asked for at most once, by the execution whose claim landed and was
confirmed, and the claim names a commit in which the intent was there and neither the operation nor
the rerun of the owner was recorded.
-/
import Supplementary.Continuation.Claims

namespace Supplementary.Continuation

open Effects PyStr Native

/-- The execution is one for the key. -/
def IsFor (key : PyStr) (x : ResumeInputs) : Prop := ∀ l, locators x = .ok l → l.key = key

variable {ι : Type} {rt : Runtime} {repo key : PyStr} {inputs : ι → ResumeInputs} {w : WriterWorld ι}

/-! ## 1. The executions are disciplined -/

theorem Claims.adds {x : ResumeInputs} {h : History} {payload : Value} (hclaims : Claims rt x h payload) :
    Adds rt h payload := by
  cases hclaims with
  | intro _ _ _ _ hraw _ _ _ hunclaimed _ => exact .intro hraw hunclaimed

/-- An execution asks for what is allowed. -/
theorem allowed_of_asks {x : ResumeInputs} {h : History} {op : ContinuationOp}
    (hasks : Asks (resume rt x) none h op) : Allowed rt x h op :=
  (keeps_resume x).asks [] none h op ⟨rfl, rfl⟩ hasks

theorem disciplined_resume :
    Disciplined rt (fun i => resume rt (inputs i)) fun i h => Confirmed rt (inputs i) h where
  commit _ _ _ hasks := (allowed_of_asks hasks).2.2.adds
  send _ _ _ _ hasks := allowed_of_asks hasks
  append _ _ _ hconfirmed := hconfirmed.append

/-! ## 2. The claim -/

/-- The commit of the execution has claimed the operation, its answer showed so, and in the commit that
the record names as `intent_commit` the intent was deferred and neither the operation nor the rerun of
its owner was recorded. -/
inductive Claimed (rt : Runtime) (key : PyStr) (w : WriterWorld ι) (i : ι) : Prop
  | intro {journal : Journal} {deferred path rerun : PyStr} {intent result : Value}
      {entries : List (PyStr × Value)} {raw : Bytes} {t : PyStr → Option Bytes}
      (hpath : recordPath key false = .ok path) (hraw : recordBytes rt (.dict entries) = .ok raw)
      (hanswer : (⟨.commit (commitPayload journal path raw), .ok result⟩ : Event ContinuationAns) ∈
        w.history i) (hshows : ShowsCommit result)
      (hlanded : (i, commitPayload journal path raw) ∈ w.landed)
      (hcommit : lookup entries "intent_commit" = some (.str journal.oid))
      (htree : w.branch.tree journal.oid = some t) (hdeferred : recordPath key true = .ok deferred)
      (hdict : intent.isDict = true) (hintent : ReadsAs rt (t deferred) intent)
      (hrerun : recordPath (rerunKey intent) false = .ok rerun) (hunclaimed : ¬ HasRecord rt t path)
      (hunspent : ¬ HasRecord rt t rerun) : Claimed rt key w i

theorem claimed_of_confirmed {ready : ι → History → Prop} {i : ι} (hkey : IsFor key (inputs i))
    (hinv : WriterInv rt repo ready w) (h : Confirmed rt (inputs i) (w.history i)) :
    Claimed rt key w i := by
  obtain ⟨hclaims, hmem, hshows⟩ := h
  have hlanded := hinv.answered i _ _ hmem hshows
  have hfor := (hinv.landed i _ hlanded).isFor
  cases hclaims with
  | @intro l journal deferred path rerun intent entries raw hl hdeferred hpath hrerun hraw hcommit hdict
      hintent hunclaimed hunspent =>
    have hrepo := repo_of_isFor hfor
    rw [hkey l hl] at hpath hdeferred
    obtain ⟨t, htree, hreads⟩ := hinv.shown i journal _ _ hrepo hintent
    obtain ⟨t₁, htree₁, hpathReads⟩ := hinv.shown i journal _ _ hrepo hunclaimed
    obtain ⟨t₂, htree₂, hrerunReads⟩ := hinv.shown i journal _ _ hrepo hunspent
    cases htree.symm.trans htree₁
    cases htree.symm.trans htree₂
    exact .intro hpath hraw hmem hshows hlanded hcommit htree hdeferred hdict hreads hrerun
      (not_hasRecord_of_readsAs hpathReads) (not_hasRecord_of_readsAs hrerunReads)

/-- One execution at most has claimed the operation. -/
theorem claimed_unique {ready : ι → History → Prop} {i j : ι} (hinv : WriterInv rt repo ready w)
    (hi : Claimed rt key w i) (hj : Claimed rt key w j) : i = j := by
  cases hi with
  | intro hpath _ _ _ hlanded =>
    cases hj with
    | intro hpath' _ _ _ hlanded' =>
      cases hpath.symm.trans hpath'
      refine hinv.unique hlanded hlanded' ?_
      rw [pathOf_commitPayload, pathOf_commitPayload]

/-! ## 3. All runs -/

/-- **The review is asked for at most once.**  Of all executions for the key one at most asks for it, and
that one asks once, after its own claim was confirmed; and in the commit that the claim names the
intent was deferred, and neither the operation nor the rerun of its owner was recorded. -/
theorem resume_once [DecidableEq ι] {w₀ : WriterWorld ι} (hkey : ∀ i, IsFor key (inputs i))
    (hstart : w₀.Starts)
    (hrun : Relation.ReflTransGen (WriterStep rt repo fun i => resume rt (inputs i)) w₀ w) :
    (∀ i j, Posts (resume rt (inputs i)) (w.history i) → Posts (resume rt (inputs j)) (w.history j) →
      i = j) ∧
    ∀ i, (sends (w.history i)).length ≤ 1 ∧
      (∀ route payload, Asks (resume rt (inputs i)) none (w.history i) (.send route payload) →
        sends (w.history i) = []) ∧
      (Posts (resume rt (inputs i)) (w.history i) → Claimed rt key w i) := by
  have hinv := writer_run_inv disciplined_resume hstart.inv hrun
  have hclaimed : ∀ i, Posts (resume rt (inputs i)) (w.history i) → Claimed rt key w i :=
    fun i hposts => claimed_of_confirmed (hkey i) hinv (ready_of_posts disciplined_resume hinv hposts)
  refine ⟨fun i j hi hj => claimed_unique hinv (hclaimed i hi) (hclaimed j hj), fun i =>
    ⟨(hinv.posts i).1, fun route payload hasks => (allowed_of_asks hasks).1, hclaimed i⟩⟩

/-! ## 4. A run -/

def sampleNow : PyStr := "2026-01-01T00:00:00Z"

def resumeInputs : ResumeInputs where
  environ name := List.lookup name [("GITHUB_REPOSITORY", sampleRepo), ("GITHUB_REPOSITORY_ID", "1"),
    ("WORKFLOW_SHA", sampleBase), ("LI219_EVENT_MODE", "enabled"), ("GITHUB_RUN_ATTEMPT", "1"),
    ("GITHUB_EVENT_NAME", "workflow_dispatch"), ("GITHUB_ACTOR", "github-actions[bot]"),
    ("GITHUB_TRIGGERING_ACTOR", "github-actions[bot]"), ("GITHUB_REF_PROTECTED", "true"),
    ("GITHUB_REF", "refs/heads/develop"), ("GITHUB_SHA", sampleBase), ("GITHUB_RUN_ID", "11"),
    ("GITHUB_WORKFLOW_REF", sampleRepo ++ "/" ++ consumer ++ "@refs/heads/develop")]
  event := .ok (.dict [("inputs", .dict [("expected_head", .str sampleHead)])])
  intInput name := if name = "pr_number" then .ok 7 else if name = "owner_run" then .ok 9 else .ok 5

/-- A step that has succeeded. -/
def sampleStep (number : Int) (name : PyStr) : Value :=
  .dict [("name", .str name), ("number", .int number), ("status", .str "completed"),
    ("conclusion", .str "success"), ("started_at", .str sampleNow), ("completed_at", .str sampleNow)]

def sampleJob : Value :=
  .dict [("id", .int 4), ("name", .str "Request Copilot review for current revision"),
    ("run_id", .int 9), ("run_attempt", .int 1), ("head_sha", .str sampleHead), ("status", .str "completed"),
    ("conclusion", .str "success"), ("runner_id", .int 3), ("started_at", .str sampleNow),
    ("completed_at", .str sampleNow),
    ("steps", .list (originalSteps.mapIdx fun i name => sampleStep (i + 1) name))]

/-- The entries come first. -/
def sampleWith (entries : List (PyStr × Value)) (value : Value) : Value :=
  match value with
  | .dict rest => .dict (entries ++ rest)
  | value => value

def sampleOwner : Value :=
  sampleWith [("status", .str "completed"), ("conclusion", .str "failure"),
    ("created_at", .str sampleNow), ("updated_at", .str sampleNow),
    ("pull_requests", .list [samplePr])] sampleRun

def sampleResume : Value :=
  .dict [("id", .int 11), ("run_attempt", .int 1), ("event", .str "workflow_dispatch"),
    ("path", .str consumer), ("name", .str "Continue deferred first review request"),
    ("repository", .dict [("full_name", .str sampleRepo)]),
    ("head_repository", .dict [("full_name", .str sampleRepo)]), ("head_sha", .str sampleBase),
    ("head_branch", .str "develop"), ("actor", .dict [("login", .str "github-actions[bot]")]),
    ("triggering_actor", .dict [("login", .str "github-actions[bot]")]),
    ("display_title", .str ("First review PR #7 head " ++ sampleHead ++ " owner 9 old review 5")),
    ("status", .str "in_progress"), ("conclusion", .none)]

def sampleReview : Value :=
  .dict [("id", .int 5), ("commit_id", .str sampleOld), ("submitted_at", .str sampleNow),
    ("user", .dict [("login", .str bot), ("type", .str "Bot")]), ("state", .str "COMMENTED"),
    ("body", .str "Looks fine.")]

def resumeRoutes : List (PyStr × Value) :=
  let root : PyStr := "repos/" ++ sampleRepo
  let page : PyStr := "per_page=100&page=1"
  [(root ++ "/actions/runs/9/attempts/1", sampleOwner), (root ++ "/actions/runs/9", sampleOwner),
    (root ++ "/actions/runs/9/attempts/1/jobs?filter=all&" ++ page,
      .dict [("total_count", .int 1), ("jobs", .list [sampleJob])]),
    (root ++ "/actions/runs/11/attempts/1", sampleResume),
    (root ++ "/pulls/7/reviews/5", sampleReview),
    (root ++ "/pulls/7/reviews/5/comments?" ++ page, .list []),
    (root ++ "/pulls/7/reviews?" ++ page, .list [sampleReview]),
    (root ++ "/pulls/7/requested_reviewers", .dict [("users", .list [])]),
    (root ++ "/issues/7/comments?" ++ page, .list [])] ++ sampleRoutes

def resumeLocators : Locators := ⟨sampleRepo, "1", sampleBase, 7, 9, 5, sampleHead⟩

def claimEntries : List (PyStr × Value) :=
  claimOf resumeLocators (sampleJournal sampleOld) "11" (.dict sampleEntries) sampleReview

def claimRaw : Bytes := (recordBytes sampleInterpreter (.dict claimEntries)).toOption.getD []

def rerunPath : PyStr := (recordPath (rerunKey (.dict sampleEntries)) false).toOption.getD ""

def resumeAnswer : (op : ContinuationOp) → ContinuationAns op
  | .read request _ =>
    if request.fields = [] then
      match List.lookup request.route resumeRoutes with
      | some result => .ok result
      | none => .error .timeoutExpired
    else if request = sampleRequest sampleNew (samplePath false) then
      .ok (sampleResult sampleNew (sampleBlob ⟨claimRaw.map UInt8.toNat⟩))
    else if request = sampleRequest sampleOld (samplePath true) then
      .ok (sampleResult sampleOld (sampleBlob ⟨sampleRaw.map UInt8.toNat⟩))
    else if request = sampleRequest sampleOld (samplePath false) ∨
        request = sampleRequest sampleOld rerunPath then .ok (sampleResult sampleOld .none)
    else .error .timeoutExpired
  | .commit payload => sampleAnswer (.commit payload)
  | .send _ _ => .error .timeoutExpired
  | .utcnow => .ok sampleNow
  | .timestamp => .ok 1767225600
  | .monotonic => .ok 0
  | .sleep _ => .ok ()

def resumeTrace : History :=
  (resume sampleInterpreter resumeInputs).asked none fun _ => resumeAnswer

/-- The read that shows the claim. -/
def isClaimReadback (e : Event ContinuationAns) : Bool :=
  match e.1 with
  | .read request _ => request = sampleRequest sampleNew (samplePath false)
  | _ => false

/-- The commit adds the claim on top of the old head. -/
def isClaimCommit (e : Event ContinuationAns) : Bool :=
  match e.1 with
  | .commit payload => isFor sampleRepo payload &&
      ((inputOf payload).get "expectedHeadOid").isText sampleOld &&
      addition payload = some (samplePath false, claimRaw)
  | _ => false

/-- The execution claims the operation, reads the claim back and asks for the review. -/
theorem resume_checks :
    ((resumeTrace.take 29).all (fun e => !isClaimReadback e) &&
      (resumeTrace.take 28).all (fun e => !isCommit e) &&
      (resumeTrace.drop 28).head?.any isClaimCommit &&
      (resumeTrace.drop 29).all (fun e => !isCommit e) && !(sends resumeTrace).isEmpty) = true := by
  decide +kernel

theorem sample_resume_key : IsFor sampleKey resumeInputs := by
  have hkey : (locators resumeInputs).toOption.all (fun l => decide (l.key = sampleKey)) = true := by
    decide +kernel
  intro l hl
  rw [hl] at hkey
  exact of_decide_eq_true hkey

def deferredTree : PyStr → Option Bytes :=
  Function.update (fun _ => none) (samplePath true) (some sampleRaw)

def claimedTree : PyStr → Option Bytes :=
  Function.update deferredTree (samplePath false) (some claimRaw)

def deferredBranch : JournalBranch :=
  ⟨fun oid => if oid = sampleOld then some deferredTree else none, sampleOld⟩

def claimedBranch : JournalBranch := deferredBranch.push sampleNew claimedTree

theorem tree_deferredBranch : deferredBranch.tree sampleOld = some deferredTree := by
  unfold deferredBranch
  dsimp only
  exact if_pos rfl

theorem fresh_deferredBranch : deferredBranch.tree sampleNew = none := by
  have hne : sampleNew ≠ sampleOld := by decide
  unfold deferredBranch
  dsimp only
  exact if_neg hne

theorem claim_text : (⟨claimRaw.map UInt8.toNat⟩ : PyStr).utf8Encode = some claimRaw := by
  decide +kernel

theorem deferredTree_eq_none {path : PyStr} (h : path = samplePath false ∨ path = rerunPath) :
    deferredTree path = none := by
  have hpath : samplePath false ≠ samplePath true := by decide +kernel
  have hrerun : rerunPath ≠ samplePath true := by decide +kernel
  unfold deferredTree
  rcases h with rfl | rfl
  · exact Function.update_of_ne hpath ..
  · exact Function.update_of_ne hrerun ..

theorem answers_sample {w : WriterWorld Unit} (hold : w.branch.tree sampleOld = some deferredTree)
    {e : Event ContinuationAns} (hanswer : e.2 = resumeAnswer e.1)
    (hback : isClaimReadback e = true → w.branch.tree sampleNew = some claimedTree)
    (hlanded : ∀ payload, e.1 = .commit payload → ((), payload) ∈ w.landed) :
    w.Answers sampleRepo () e.1 e.2 := by
  obtain ⟨op, answer⟩ := e
  dsimp only at hanswer
  subst hanswer
  cases op with
  | read request timeout =>
    intro result hresult
    unfold resumeAnswer at hresult
    dsimp only at hresult
    split at hresult
    · next hfields =>
      intro journal path data object hrequest
      obtain ⟨owner, name, rfl⟩ := readRequest_eq_ok hrequest
      cases hfields
    · split at hresult
      · next hrequest =>
        have htree := hback (decide_eq_true hrequest)
        cases hresult
        rw [hrequest]
        refine truthful_sample htree ?_
        unfold claimedTree
        rw [Function.update_self]
        exact showsFile_blob claim_text
      · split at hresult
        · next hrequest =>
          cases hresult
          rw [hrequest]
          refine truthful_sample hold ?_
          unfold deferredTree
          rw [Function.update_self]
          exact showsFile_blob sample_text
        · split at hresult
          · next hrequest =>
            cases hresult
            rcases hrequest with rfl | rfl
            · refine truthful_sample hold ?_
              rw [deferredTree_eq_none (.inl rfl)]
              exact showsFile_none
            · refine truthful_sample hold ?_
              rw [deferredTree_eq_none (.inr rfl)]
              exact showsFile_none
          · cases hresult
  | commit payload => exact fun _ _ _ => hlanded payload rfl
  | _ => trivial

/-- An execution of `resume` alone. -/
def sampleProgram (_ : Unit) : ContinuationAct Unit := resume sampleInterpreter resumeInputs

/-- The program alone, after a history. -/
def soloResume (b : JournalBranch) (sent landed : List (Unit × Value)) (h : History) :
    WriterWorld Unit :=
  ⟨b, sent, landed, fun _ => h⟩

theorem soloResume_update {b : JournalBranch} {sent landed : List (Unit × Value)} {h h' : History} :
    ({ soloResume b sent landed h with
      history := Function.update (soloResume b sent landed h).history () h' } : WriterWorld Unit) =
      soloResume b sent landed h' := by
  unfold soloResume
  congr

/-- The run: until the claim is sent, its landing, and from its answer on. -/
theorem run_resume_sample {pre post : History} {payload : Value} {answer : Py Value} {r : Py Unit}
    {s : Option Visibility}
    (hends : Ends (resume sampleInterpreter resumeInputs) none
      (pre ++ (⟨.commit payload, answer⟩ :: post)) r s)
    (hanswer : ∀ e ∈ pre ++ (⟨.commit payload, answer⟩ :: post), e.2 = resumeAnswer e.1)
    (hbefore : ∀ e ∈ pre, isClaimReadback e = false ∧ isCommit e = false)
    (hafter : ∀ e ∈ post, isCommit e = false)
    (hcommit : isClaimCommit (⟨.commit payload, answer⟩ : Event ContinuationAns) = true) :
    Relation.ReflTransGen (WriterStep sampleInterpreter sampleRepo sampleProgram)
      (soloResume deferredBranch [] [] [])
      (soloResume claimedBranch [((), payload)] [((), payload)]
        (pre ++ (⟨.commit payload, answer⟩ :: post))) := by
  have hchecks : (isFor sampleRepo payload &&
    ((inputOf payload).get "expectedHeadOid").isText sampleOld &&
    decide (addition payload = some (samplePath false, claimRaw))) = true := hcommit
  simp only [Bool.and_eq_true, decide_eq_true_eq] at hchecks
  obtain ⟨⟨hfor, hhead⟩, haddition⟩ := hchecks
  have hnone : ∀ e : Event ContinuationAns, isCommit e = false → ∀ payload', e.1 ≠ .commit payload' := by
    rintro ⟨op, answer'⟩ hnot payload' rfl
    cases hnot
  have hfirst : Relation.ReflTransGen
      (WriterStep sampleInterpreter sampleRepo sampleProgram)
      (soloResume deferredBranch [] [] []) (soloResume deferredBranch [] [] pre) := by
    rw [← @soloResume_update deferredBranch [] [] [] pre]
    refine @writer_run_idle Unit _ _ _ _ (soloResume deferredBranch [] [] []) _ () pre _ r s hends
      fun e he => ?_
    obtain ⟨hback, hnot⟩ := hbefore e he
    refine answers_sample tree_deferredBranch (hanswer e (List.mem_append_left _ he)) (fun h => ?_)
      fun payload' heq => absurd heq (hnone e hnot payload')
    rw [hback] at h
    cases h
  have hasks : Asks (resume sampleInterpreter resumeInputs) none pre (.commit payload) :=
    Returns.prefix hends
  have hsent : WriterStep sampleInterpreter sampleRepo sampleProgram
      (soloResume deferredBranch [] [] pre) (soloResume deferredBranch [((), payload)] [] pre) :=
    @WriterStep.sends Unit _ _ _ _ _ (soloResume deferredBranch [] [] pre) () payload hasks
  have hlanded : WriterStep sampleInterpreter sampleRepo sampleProgram
      (soloResume deferredBranch [((), payload)] [] pre)
      (soloResume claimedBranch [((), payload)] [((), payload)] pre) :=
    @WriterStep.lands Unit _ _ _ _ _ (soloResume deferredBranch [((), payload)] [] pre) () payload _ _ _ _
      (List.mem_singleton_self _) hfor (Value.isText_iff.mp hhead) haddition fresh_deferredBranch
      tree_deferredBranch
  refine (hfirst.tail hsent).tail hlanded |>.trans ?_
  rw [← List.append_nil (pre ++ _)] at hends
  rw [← @soloResume_update claimedBranch [((), payload)] [((), payload)] pre
    (pre ++ ⟨.commit payload, answer⟩ :: post)]
  refine @writer_run_idle Unit _ _ _ _ (soloResume claimedBranch [((), payload)] [((), payload)] pre) _ ()
    (⟨.commit payload, answer⟩ :: post) [] r s hends fun e he => ?_
  refine answers_sample (Branch.tree_push fresh_deferredBranch tree_deferredBranch)
    (hanswer e (List.mem_append_right _ he)) (fun _ => Branch.tree_push_head) fun payload' heq => ?_
  rcases List.mem_cons.mp he with rfl | he
  · cases heq
    exact List.mem_singleton_self _
  · exact absurd heq (hnone e (hafter e he) payload')

theorem sample_resume_ends :
    ∃ r s, Ends (resume sampleInterpreter resumeInputs) none resumeTrace r s := by
  obtain ⟨s, hends⟩ := @ends_result _ _ _ _ _ (resume sampleInterpreter resumeInputs) none fun _ =>
    resumeAnswer
  exact ⟨_, s, hends⟩

theorem resume_once_sample : ∃ w : WriterWorld Unit, w.history () = resumeTrace ∧
    sends resumeTrace ≠ [] ∧ (sends resumeTrace).length ≤ 1 ∧
    Claimed sampleInterpreter sampleKey w () := by
  have hchecks := resume_checks
  simp only [Bool.and_eq_true, List.all_eq_true, Bool.not_eq_true', Option.any_eq_true,
    List.isEmpty_eq_false_iff] at hchecks
  obtain ⟨⟨⟨⟨hback, hbefore⟩, ⟨op, answer⟩, hhead, hcommit⟩, hafter⟩, hsends⟩ := hchecks
  obtain ⟨r, s, hends⟩ := sample_resume_ends
  cases op with
  | commit payload =>
    obtain ⟨post, hpost⟩ := List.head?_eq_some_iff.mp hhead
    have hsplit : resumeTrace.take 28 ++ (⟨.commit payload, answer⟩ :: post) = resumeTrace := by
      rw [← hpost, List.take_append_drop]
    have hdrop : resumeTrace.drop 29 = post := by
      rw [show (29 : Nat) = 28 + 1 from rfl, ← List.drop_drop, hpost]
      rfl
    have hanswer : ∀ e ∈ resumeTrace, e.2 = resumeAnswer e.1 := by
      intro e he
      obtain ⟨j, hj⟩ := answered_asked e he
      exact hj
    have htake : ∀ e ∈ resumeTrace.take 28, e ∈ resumeTrace.take 29 := fun e he =>
      List.take_subset_take_left resumeTrace (by decide) he
    rw [hdrop] at hafter
    have hrun := @run_resume_sample (resumeTrace.take 28) post payload answer r s (hsplit.symm ▸ hends)
      (hsplit.symm ▸ hanswer) (fun e he => ⟨hback e (htake e he), hbefore e he⟩) hafter hcommit
    rw [hsplit] at hrun
    have honce := resume_once (fun _ => sample_resume_key) ⟨rfl, rfl, fun _ => rfl⟩ hrun
    obtain ⟨hlength, -, hclaimed⟩ := honce.2 ()
    exact ⟨_, rfl, hsends, hlength, hclaimed (.inl hsends)⟩
  | _ => cases hcommit

end Supplementary.Continuation
