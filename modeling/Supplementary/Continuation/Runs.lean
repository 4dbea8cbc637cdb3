/-
# Any number of executions

The journal of one repository, and any number of executions of `defer` that go on in any order, one
operation at a time.  A commit that was sent lands at some later time or never, and only if the head is
then as it expects, whatever the execution was told; a read that is answered shows what is there.
Others push too, and leave the deferred intents as they are.

`defer_once`: a deferred intent is added at most once and is never overwritten, no execution asks for
more than three commits, after one that was not refused it only reads, and where it returns it has
seen that its key is recorded.
-/
import Supplementary.Continuation.Stored
import Supplementary.Lib.Answered

namespace Supplementary.Continuation

open Effects PyStr Native

/-! ## 1. The world -/

abbrev JournalBranch : Type := Branch PyStr PyStr Bytes

/-- The path of a deferred intent. -/
def IsDeferred (path : PyStr) : Prop := ∃ key, recordPath key true = .ok path

/-- The journal, the paths that executions have added to it, and what each execution has asked and was
answered. -/
structure World (ι : Type) where
  branch : JournalBranch
  added : List PyStr
  history : ι → History

/-- A read that is answered shows what is there; any other answer may come back. -/
def IsShown (repo : PyStr) (b : JournalBranch) : (op : ContinuationOp) → ContinuationAns op → Prop
  | .read request _, answer => ∀ result, answer = .ok result → Truthful b repo request result
  | _, _ => True

section

variable {ι : Type} [DecidableEq ι] (rt : Runtime) (repo : PyStr) (inputs : ι → Inputs)

/-- One step of an execution, of the server or of another writer.  A commit that was sent may land at
any time from then on, whatever the execution was told, or never. -/
inductive Step : World ι → World ι → Prop
  | asks {w : World ι} {i : ι} {op : ContinuationOp} {answer : ContinuationAns op}
      (hasks : Asks (defer rt (inputs i)) none (w.history i) op)
      (hshown : IsShown repo w.branch op answer) (hplain : answer ≠ .error .confirmedIntentConflict) :
      Step w { w with history := Function.update w.history i (w.history i ++ [⟨op, answer⟩]) }
  | lands {w : World ι} {i : ι} {payload : Value} {answer : Py Value} {t : PyStr → Option Bytes}
      {path new : PyStr} {raw : Bytes}
      (hsent : (⟨.commit payload, answer⟩ : Event ContinuationAns) ∈ w.history i)
      (hfor : isFor repo payload = true)
      (hhead : (inputOf payload).get "expectedHeadOid" = .str w.branch.head)
      (haddition : addition payload = some (path, raw)) (hfresh : w.branch.tree new = none)
      (htree : w.branch.tree w.branch.head = some t) :
      Step w { w with
        branch := w.branch.push new (Function.update t path (some raw)), added := path :: w.added }
  | other {w : World ι} {t t' : PyStr → Option Bytes} {new : PyStr} (hfresh : w.branch.tree new = none)
      (htree : w.branch.tree w.branch.head = some t)
      (hsame : ∀ path, IsDeferred path → t' path = t path) :
      Step w { w with branch := w.branch.push new t' }

/-- Nothing was asked or added yet; what is deferred already is recorded. -/
structure Starts (w : World ι) : Prop where
  added : w.added = []
  history : ∀ i, w.history i = []
  files : w.branch.Files fun path raw => IsDeferred path → IsRecord rt raw

/-! ## 2. The order of the commits -/

/-- At most three commits, and nothing but reads after one that was not refused. -/
structure Orderly (h : History) : Prop where
  length : (commits h).length ≤ 3
  after : ∀ pre e post, h = pre ++ e :: post → isCommit e = true → ¬ Refused rt e →
    ∀ later ∈ post, isCommit later = false

end

variable {ι : Type} {rt : Runtime} {repo : PyStr} {inputs : ι → Inputs}

theorem Orderly.snoc {h : History} {new : Event ContinuationAns} (horderly : Orderly rt h)
    (hnew : isCommit new = true → Refusals rt 2 h) : Orderly rt (h ++ [new]) where
  length := by
    rw [commits_append, List.length_append]
    cases hcommit : isCommit new with
    | false =>
      have hnone : commits [new] = [] := by
        unfold commits
        rw [List.filter_cons, hcommit]
        rfl
      rw [hnone]
      exact horderly.length
    | true =>
      have hone : commits [new] = [new] := List.filter_cons_of_pos hcommit
      rw [hone]
      exact Nat.succ_le_succ (hnew hcommit).1
  after pre e post heq hcommit hnot later hlater := by
    rcases List.eq_nil_or_concat post with rfl | ⟨post, last, rfl⟩
    · cases hlater
    · rw [List.concat_eq_append, ← List.cons_append, ← List.append_assoc] at heq
      obtain ⟨rfl, hlast⟩ := List.append_inj' heq rfl
      cases hlast
      rw [List.concat_eq_append, List.mem_append, List.mem_singleton] at hlater
      rcases hlater with hlater | rfl
      · exact horderly.after pre e post rfl hcommit hnot later hlater
      · by_contra hlater
        rw [Bool.not_eq_false] at hlater
        refine hnot ((hnew hlater).2 e (List.mem_filter.mpr ⟨?_, hcommit⟩))
        exact List.mem_append_right _ List.mem_cons_self

/-! ## 3. The invariant -/

structure Inv (rt : Runtime) (repo : PyStr) (w : World ι) : Prop where
  files : w.branch.Files fun path raw => IsDeferred path → IsRecord rt raw
  sane : ∀ i, Sane (w.history i)
  orderly : ∀ i, Orderly rt (w.history i)
  /-- What was seen to be absent in a commit is absent in it. -/
  lacks : ∀ i journal path, IsDeferred path → journal.repo = repo →
    Saw rt (w.history i) journal path .none → w.branch.Lacks journal.oid path
  /-- Every commit that was sent is justified. -/
  justified : ∀ i payload answer, (⟨.commit payload, answer⟩ : Event ContinuationAns) ∈ w.history i →
    Justified rt (w.history i) payload
  /-- What was added is there, and was added once. -/
  once : ∀ path, IsDeferred path → w.added.count path ≤ 1 ∧
    (path ∈ w.added → ∃ raw, w.branch.Holds path raw)

theorem Starts.inv {w : World ι} (h : Starts rt w) : Inv rt repo w where
  files := h.files
  sane i := by
    rw [h.history i]
    exact fun e he => by cases he
  orderly i := by
    rw [h.history i]
    refine ⟨Nat.zero_le 3, fun pre e post heq => ?_⟩
    cases pre <;> cases heq
  lacks i journal path _ _ hsaw := by
    rw [h.history i] at hsaw
    obtain ⟨e, he, -⟩ := hsaw
    cases he
  justified i payload answer hmem := by
    rw [h.history i] at hmem
    cases hmem
  once path _ := by
    rw [h.added]
    exact ⟨Nat.zero_le 1, fun hmem => by cases hmem⟩

/-- An execution asks for what is permitted. -/
theorem permitted_of_asks {x : Inputs} {h : History} {op : ContinuationOp}
    (hasks : Asks (defer rt x) none h op) : Permitted rt h op :=
  (tracks_defer x [] none fun _ => refusals_nil).1 h op hasks

section

variable {w : World ι} {i : ι}

/-- A commit that lands adds a record of a deferral where there was no file. -/
theorem lands_spec {payload : Value} {answer : Py Value} {t : PyStr → Option Bytes} {path : PyStr}
    {raw : Bytes} (hinv : Inv rt repo w)
    (hsent : (⟨.commit payload, answer⟩ : Event ContinuationAns) ∈ w.history i)
    (hfor : isFor repo payload = true)
    (hhead : (inputOf payload).get "expectedHeadOid" = .str w.branch.head)
    (haddition : addition payload = some (path, raw)) (htree : w.branch.tree w.branch.head = some t) :
    t path = none ∧ IsDeferred path ∧ IsRecord rt raw := by
  have hjustified := hinv.justified i payload answer hsent
  cases hjustified with
  | @intro journal key path' entries raw' hpath hraw hsaw =>
    rw [addition_commitPayload] at haddition
    cases haddition
    have hoid : journal.oid = w.branch.head := Value.str.inj hhead
    obtain ⟨t', htree', habsent⟩ := hinv.lacks i journal path ⟨key, hpath⟩ (repo_of_isFor hfor) hsaw
    rw [hoid] at htree'
    cases htree.symm.trans htree'
    exact ⟨habsent, ⟨key, hpath⟩, isRecord_recordBytes hraw⟩

/-- What an answer shows to be absent is absent. -/
theorem lacks_of_shows {op : ContinuationOp} {answer : ContinuationAns op} {journal : Journal}
    {path : PyStr} (hinv : Inv rt repo w) (hshown : IsShown repo w.branch op answer)
    (hdeferred : IsDeferred path) (hrepo : journal.repo = repo)
    (hshows : Shows rt journal path .none (⟨op, answer⟩ : Event ContinuationAns)) :
    w.branch.Lacks journal.oid path := by
  cases hshows with
  | intro hrequest hrecord =>
    refine lacks_of_recordOf (hshown _ rfl) hrequest hrepo (fun oid t raw htree hfile => ?_) hrecord
    exact hinv.files oid t path raw htree hfile hdeferred

end

variable [DecidableEq ι] {w w' : World ι}

/-- What one step does to the journal. -/
theorem Step.evolves (h : Step rt repo inputs w w') (hinv : Inv rt repo w) :
    Branch.Evolves IsDeferred w.branch w'.branch := by
  cases h with
  | asks _ _ _ => exact .idle _
  | lands hsent hfor hhead haddition hfresh htree =>
    exact .add hfresh htree (lands_spec hinv hsent hfor hhead haddition htree).1
  | other hfresh htree hsame => exact .other hfresh htree hsame

theorem Step.files (h : Step rt repo inputs w w') (hinv : Inv rt repo w) :
    w'.branch.Files fun path raw => IsDeferred path → IsRecord rt raw := by
  cases h with
  | asks _ _ _ => exact hinv.files
  | @lands i payload answer t path new raw hsent hfor hhead haddition hfresh htree =>
    refine hinv.files.push fun other file hfile hdeferred => ?_
    by_cases heq : other = path
    · subst heq
      rw [Function.update_self] at hfile
      cases hfile
      exact (lands_spec hinv hsent hfor hhead haddition htree).2.2
    · rw [Function.update_of_ne heq] at hfile
      exact hinv.files _ t other file htree hfile hdeferred
  | @other t t' new hfresh htree hsame =>
    refine hinv.files.push fun path raw hfile hdeferred => ?_
    rw [hsame path hdeferred] at hfile
    exact hinv.files _ t path raw htree hfile hdeferred

theorem Step.once (h : Step rt repo inputs w w') (hinv : Inv rt repo w) {path : PyStr}
    (hdeferred : IsDeferred path) :
    w'.added.count path ≤ 1 ∧ (path ∈ w'.added → ∃ raw, w'.branch.Holds path raw) := by
  obtain ⟨hcount, hholds⟩ := hinv.once path hdeferred
  have hkept : path ∈ w.added → ∃ raw, w'.branch.Holds path raw := by
    intro hmem
    obtain ⟨raw, hraw⟩ := hholds hmem
    exact ⟨raw, (h.evolves hinv).holds hdeferred hraw⟩
  cases h with
  | asks _ _ _ => exact ⟨hcount, hholds⟩
  | @lands i payload answer t added new raw hsent hfor hhead haddition hfresh htree =>
    obtain ⟨habsent, -, -⟩ := lands_spec hinv hsent hfor hhead haddition htree
    by_cases heq : path = added
    · subst heq
      have hnot : path ∉ w.added := by
        intro hmem
        obtain ⟨raw', t', htree', hfile⟩ := hholds hmem
        cases htree.symm.trans htree'
        rw [habsent] at hfile
        cases hfile
      refine ⟨?_, fun _ => ⟨raw, _, Branch.tree_push_head, Function.update_self ..⟩⟩
      rw [List.count_cons_self, List.count_eq_zero_of_not_mem hnot]
    · refine ⟨?_, fun hmem => ?_⟩
      · rwa [List.count_cons_of_ne (Ne.symm heq)]
      · rcases List.mem_cons.mp hmem with hmem | hmem
        · exact absurd hmem heq
        · exact hkept hmem
  | other _ _ _ => exact ⟨hcount, hkept⟩

theorem Step.inv (h : Step rt repo inputs w w') (hinv : Inv rt repo w) : Inv rt repo w' := by
  have hevolves := h.evolves hinv
  have hfiles := h.files hinv
  have honce : ∀ path, IsDeferred path → _ := fun path hdeferred => h.once hinv hdeferred
  cases h with
  | @asks i op answer hasks hshown hplain =>
    have hpermitted := permitted_of_asks hasks
    refine ⟨hfiles, ?_, ?_, ?_, ?_, honce⟩
    · refine (Function.forall_update_iff w.history (p := fun _ h => Sane h)).mpr
        ⟨fun e he => ?_, fun j _ => hinv.sane j⟩
      rcases List.mem_append.mp he with he | he
      · exact hinv.sane i e he
      · rw [List.mem_singleton.mp he]
        exact hplain
    · refine (Function.forall_update_iff w.history (p := fun _ h => Orderly rt h)).mpr
        ⟨(hinv.orderly i).snoc fun hcommit => ?_, fun j _ => hinv.orderly j⟩
      cases op with
      | commit payload => exact (hpermitted (hinv.sane i)).1
      | _ => cases hcommit
    · refine (Function.forall_update_iff w.history (p := fun _ h => ∀ journal path, IsDeferred path →
        journal.repo = repo → Saw rt h journal path .none → w.branch.Lacks journal.oid path)).mpr
        ⟨fun journal path hdeferred hrepo hsaw => ?_, fun j _ => hinv.lacks j⟩
      obtain ⟨e, he, hshows⟩ := hsaw
      rcases List.mem_append.mp he with he | he
      · exact hinv.lacks i journal path hdeferred hrepo ⟨e, he, hshows⟩
      · rw [List.mem_singleton.mp he] at hshows
        exact lacks_of_shows hinv hshown hdeferred hrepo hshows
    · refine (Function.forall_update_iff w.history (p := fun _ h => ∀ payload answer,
        (⟨.commit payload, answer⟩ : Event ContinuationAns) ∈ h → Justified rt h payload)).mpr
        ⟨fun payload answer' hmem => ?_, fun j _ => hinv.justified j⟩
      rcases List.mem_append.mp hmem with hmem | hmem
      · exact (hinv.justified i payload answer' hmem).append
      · cases List.mem_singleton.mp hmem
        exact (hpermitted (hinv.sane i)).2.append
  | lands _ _ _ _ _ _ =>
    exact ⟨hfiles, hinv.sane, hinv.orderly, fun i journal path hdeferred hrepo hsaw =>
      hevolves.lacks (hinv.lacks i journal path hdeferred hrepo hsaw), hinv.justified, honce⟩
  | other _ _ _ =>
    exact ⟨hfiles, hinv.sane, hinv.orderly, fun i journal path hdeferred hrepo hsaw =>
      hevolves.lacks (hinv.lacks i journal path hdeferred hrepo hsaw), hinv.justified, honce⟩

/-! ## 4. Runs -/

theorem run_inv (hinv : Inv rt repo w) (hrun : Relation.ReflTransGen (Step rt repo inputs) w w') :
    Inv rt repo w' := by
  induction hrun with
  | refl => exact hinv
  | tail _ hstep ih => exact hstep.inv ih

theorem run_holds {path : PyStr} {raw : Bytes} (hinv : Inv rt repo w) (hdeferred : IsDeferred path)
    (hholds : w.branch.Holds path raw) (hrun : Relation.ReflTransGen (Step rt repo inputs) w w') :
    w'.branch.Holds path raw := by
  induction hrun with
  | refl => exact hholds
  | tail hrun hstep ih => exact (hstep.evolves (run_inv hinv hrun)).holds hdeferred ih

/-- A stretch of an execution that the journal does not change in. -/
theorem run_idle {i : ι} {pre stretch post : History} {r : Py Unit} {s : Option Visibility}
    (hends : Ends (defer rt (inputs i)) none (pre ++ stretch ++ post) r s) (hpre : w.history i = pre)
    (hshown : ∀ e ∈ stretch, IsShown repo w.branch e.1 e.2 ∧
      e.2 ≠ .error .confirmedIntentConflict) :
    Relation.ReflTransGen (Step rt repo inputs) w
      { w with history := Function.update w.history i (pre ++ stretch) } := by
  induction stretch generalizing w pre with
  | nil =>
    rw [List.append_nil, ← hpre, Function.update_eq_self]
  | cons e stretch ih =>
    obtain ⟨⟨hshow, hplain⟩, hrest⟩ := List.forall_mem_cons.mp hshown
    rw [List.append_assoc, List.cons_append] at hends
    have hasks : Asks (defer rt (inputs i)) none (w.history i) e.1 := by
      rw [hpre]
      exact Returns.prefix hends
    refine .head (Step.asks hasks hshow hplain) ?_
    have hgo := @ih ⟨w.branch, w.added, Function.update w.history i (w.history i ++ [e])⟩ (pre ++ [e])
      (by simpa using hends) (by rw [← hpre]; exact Function.update_self ..) hrest
    rw [Function.update_idem, List.append_assoc, List.singleton_append] at hgo
    exact hgo

/-- Where an execution returns, it has seen after its checks that its key is recorded. -/
theorem recorded_of_ends {x : Inputs} {h : History} {s : Option Visibility}
    (hends : Ends (defer rt x) none h (.ok ()) s) :
    ∃ d s₁ before after, h = before ++ after ∧ Ends (prepare x) none before (.ok d) s₁ ∧
      Recorded rt after d.key := by
  obtain ⟨before, after, d, s₁, rfl, hprepare, hrecord⟩ := ends_bind_ok.mp hends
  refine ⟨d, s₁, before, after, rfl, hprepare, ?_⟩
  exact (tracks_record d [] s₁ fun _ => refusals_nil).2 after _ s hrecord rfl

def sampleRepo : PyStr := "lightning-it/.github"
def sampleOld : PyStr := "aaaaaaaaaaaaaaaaaaaaaaaaaaaaaaaaaaaaaaaa"
def sampleNew : PyStr := "bbbbbbbbbbbbbbbbbbbbbbbbbbbbbbbbbbbbbbbb"
def sampleBase : PyStr := "cccccccccccccccccccccccccccccccccccccccc"
def sampleHead : PyStr := "dddddddddddddddddddddddddddddddddddddddd"

/-- A dict of the entries. -/
def sampleSide (ref sha : PyStr) : Value :=
  .dict [("ref", .str ref), ("sha", .str sha), ("repo", .dict [("full_name", .str sampleRepo),
    ("url", .str ("https://api.github.com/repos/" ++ sampleRepo))])]

def samplePr : Value :=
  .dict [("number", .int 7), ("state", .str "open"), ("draft", .bool false),
    ("user", .dict [("login", .str "litroc"), ("type", .str "User")]),
    ("base", sampleSide "develop" sampleBase), ("head", sampleSide "topic" sampleHead)]

def sampleRun : Value :=
  .dict [("id", .int 9), ("run_attempt", .int 1), ("event", .str "pull_request_target"),
    ("path", .str producer), ("name", .str "Current revision review gate"),
    ("head_sha", .str sampleHead), ("head_branch", .str "topic"),
    ("actor", .dict [("login", .str "litroc")]),
    ("triggering_actor", .dict [("login", .str "litroc")]),
    ("repository", .dict [("full_name", .str sampleRepo)]),
    ("head_repository", .dict [("full_name", .str sampleRepo)]), ("pull_requests", .list [samplePr])]

def sampleInputs : Inputs where
  environ name := (List.lookup name [("GITHUB_REPOSITORY", sampleRepo), ("GITHUB_REPOSITORY_ID", "1"),
    ("WORKFLOW_SHA", sampleBase), ("LI219_EVENT_MODE", "enabled"), ("GITHUB_RUN_ATTEMPT", "1"),
    ("GITHUB_EVENT_NAME", "pull_request_target"), ("GITHUB_ACTOR", "litroc"),
    ("GITHUB_TRIGGERING_ACTOR", "litroc"), ("GITHUB_REF_PROTECTED", "true"),
    ("GITHUB_REF", "refs/heads/develop"), ("EXPECTED_HEAD", sampleHead), ("EXPECTED_BASE", sampleBase),
    ("GITHUB_SHA", sampleBase),
    ("GITHUB_WORKFLOW_REF", sampleRepo ++ "/" ++ producer ++ "@refs/heads/develop")])
  event := .ok (.dict [("action", .str "opened"), ("pull_request", samplePr)])
  prNumber := .ok 7
  runId := .ok 9

def sampleInterpreter : Runtime := ⟨fun _ => "", 1000, fun s => ⟨s, none⟩, []⟩

def sampleKey : PyStr := keyFor "1" "7" sampleHead

def samplePath (deferred : Bool) : PyStr := (recordPath sampleKey deferred).toOption.getD ""

def sampleEntries : List (PyStr × Value) :=
  (intentOf sampleRepo "1" sampleKey sampleBase "2026-01-01T00:00:00Z" 9 (.str "opened")
    samplePr).toOption.getD []

def sampleRaw : Bytes := (recordBytes sampleInterpreter (.dict sampleEntries)).toOption.getD []

def sampleJournal (oid : PyStr) : Journal := ⟨sampleRepo, "1", oid⟩

def sampleRequest (oid path : PyStr) : Paging.Request :=
  (readRequest (sampleJournal oid) path).toOption.getD ⟨"", []⟩

def sampleBlob (text : PyStr) : Value :=
  .dict [("__typename", .str "Blob"), ("isTruncated", .bool false), ("byteSize", .int text.length),
    ("text", .str text)]

def sampleManifest : PyStr :=
  "\x7b\"schema\":1,\"repository\":\"lightning-it/.github\"," ++
  "\"repository_id\":\"1\",\"ref\":\"refs/heads/lit-review-operations\"\x7d"

def sampleResult (oid : PyStr) (object : Value) : Value :=
  .dict [("data", .dict [("repository", .dict [("nameWithOwner", .str sampleRepo),
    ("source", .dict [("__typename", .str "Commit"), ("oid", .str oid)]),
    ("manifest", sampleBlob sampleManifest), ("record", object)])])]

def sampleRoutes : List (PyStr × Value) :=
  let root : PyStr := "repos/" ++ sampleRepo
  [(root ++ "/pulls/7", samplePr),
    (root, .dict [("full_name", .str sampleRepo), ("id", .int 1), ("default_branch", .str "develop")]),
    (root ++ "/branches/develop", .dict [("name", .str "develop"), ("protected", .bool true),
      ("commit", .dict [("sha", .str sampleBase)])]),
    (root ++ "/compare/" ++ sampleBase ++ "..." ++ sampleBase, .dict [("status", .str "identical")]),
    (root ++ "/actions/runs/9/attempts/1", sampleRun),
    (root ++ "/git/ref/heads/lit-review-operations",
      .dict [("ref", .str "refs/heads/lit-review-operations"),
        ("object", .dict [("type", .str "commit"), ("sha", .str sampleOld)])])]

def sampleAnswer : (op : ContinuationOp) → ContinuationAns op
  | .read request _ =>
    if request.fields = [] then
      match List.lookup request.route sampleRoutes with
      | some result => .ok result
      | none => .error .timeoutExpired
    else if request = sampleRequest sampleNew (samplePath true) then
      .ok (sampleResult sampleNew (sampleBlob ⟨sampleRaw.map UInt8.toNat⟩))
    else if request = sampleRequest sampleOld (samplePath true) ∨
        request = sampleRequest sampleOld (samplePath false) then .ok (sampleResult sampleOld .none)
    else .error .timeoutExpired
  | .commit _ => .ok (.dict [("data", .dict [("createCommitOnBranch", .dict [("commit",
      .dict [("oid", .str sampleNew),
        ("parents", .dict [("nodes", .list [.dict [("oid", .str sampleOld)]])])])])])])
  | .send _ _ => .error .timeoutExpired
  | .utcnow => .ok "2026-01-01T00:00:00Z"
  | .timestamp | .monotonic => .ok 0
  | .sleep _ => .ok ()

def sampleTrace : History :=
  (defer sampleInterpreter sampleInputs).asked none fun _ => sampleAnswer

/-- The read that shows the record, which is truthful only once it is there. -/
def isReadback (e : Event ContinuationAns) : Bool :=
  match e.1 with
  | .read request _ => request = sampleRequest sampleNew (samplePath true)
  | _ => false

/-- The commit adds the record on top of the old head. -/
def isSampleCommit (e : Event ContinuationAns) : Bool :=
  match e.1 with
  | .commit payload => isFor sampleRepo payload &&
      ((inputOf payload).get "expectedHeadOid").isText sampleOld &&
      addition payload = some (samplePath true, sampleRaw)
  | _ => false

/-- The execution makes its commit, reads it back and returns. -/
theorem sample_checks :
    ((sampleTrace.take 21).all (fun e => !isReadback e) &&
      (sampleTrace.drop 20).head?.any isSampleCommit &&
      ((defer sampleInterpreter sampleInputs).result none fun _ => sampleAnswer).isOk) = true := by
  decide +kernel

theorem sample_path : recordPath sampleKey true = .ok (samplePath true) := by decide +kernel

def sampleEmpty : JournalBranch :=
  ⟨fun oid => if oid = sampleOld then some fun _ => none else none, sampleOld⟩

def sampleFilled : JournalBranch :=
  sampleEmpty.push sampleNew (Function.update (fun _ => none) (samplePath true) (some sampleRaw))

theorem readRequest_sample (oid path : PyStr) :
    readRequest (sampleJournal oid) path = .ok (sampleRequest oid path) := by
  have hsplit : sampleRepo.split '/' = ["lightning-it", ".github"] := by decide +kernel
  unfold sampleRequest readRequest
  rw [show (sampleJournal oid).repo = sampleRepo from rfl, hsplit]
  rfl

theorem truthful_sample {b : JournalBranch} {oid path : PyStr} {object : Value}
    {t : PyStr → Option Bytes} (htree : b.tree oid = some t) (hshows : ShowsFile object (t path)) :
    Truthful b sampleRepo (sampleRequest oid path) (sampleResult oid object) := by
  intro journal path' data object' hrequest _ hdata _ hobject
  obtain ⟨hoid, rfl⟩ := request_injective hrequest (readRequest_sample oid path)
  cases hdata
  cases hobject
  rw [hoid]
  exact ⟨t, htree, hshows⟩

theorem showsFile_none : ShowsFile .none none := ⟨fun _ => rfl, fun text _ htext => by cases htext⟩

theorem showsFile_blob {raw : Bytes}
    (hencode : (⟨raw.map UInt8.toNat⟩ : PyStr).utf8Encode = some raw) :
    ShowsFile (sampleBlob ⟨raw.map UInt8.toNat⟩) (some raw) := by
  refine ⟨fun h => absurd h Bool.false_ne_true, fun text _ htext => ?_⟩
  rw [← Value.str.inj htext]
  exact ⟨raw, rfl, hencode⟩

theorem sample_text : (⟨sampleRaw.map UInt8.toNat⟩ : PyStr).utf8Encode = some sampleRaw := by
  decide +kernel

theorem shown_sample {b : JournalBranch} (hold : b.tree sampleOld = some fun _ => none)
    {e : Event ContinuationAns} (hanswer : e.2 = sampleAnswer e.1)
    (hback : isReadback e = true → b.tree sampleNew =
      some (Function.update (fun _ => none) (samplePath true) (some sampleRaw))) :
    IsShown sampleRepo b e.1 e.2 := by
  obtain ⟨op, answer⟩ := e
  dsimp only at hanswer
  subst hanswer
  cases op with
  | read request timeout =>
    intro result hresult
    unfold sampleAnswer at hresult
    dsimp only at hresult
    split at hresult
    · next hfields =>
      intro journal path data object hrequest
      obtain ⟨owner, name, rfl⟩ := readRequest_eq_ok hrequest
      cases hfields
    · split at hresult
      · next hrequest =>
        have htree := hback (decide_eq_true hrequest)
        cases hresult
        rw [hrequest]
        refine truthful_sample htree ?_
        rw [Function.update_self]
        exact showsFile_blob sample_text
      · split at hresult
        · next hrequest =>
          cases hresult
          rcases hrequest with rfl | rfl
          · exact truthful_sample hold showsFile_none
          · exact truthful_sample hold showsFile_none
        · cases hresult
  | _ => trivial

theorem plain_sample (op : ContinuationOp) : sampleAnswer op ≠ .error .confirmedIntentConflict := by
  cases op with
  | read request timeout =>
    unfold sampleAnswer
    dsimp only
    repeat' split
    all_goals exact fun h => by cases h
  | _ => exact fun h => by cases h

/-- An execution alone. -/
def soloWorld (b : JournalBranch) (added : List PyStr) (h : History) : World Unit :=
  ⟨b, added, fun _ => h⟩

theorem soloWorld_update {b : JournalBranch} {added : List PyStr} {h h' : History} :
    ({ soloWorld b added h with history := Function.update (soloWorld b added h).history () h' } :
      World Unit) = soloWorld b added h' := by
  unfold soloWorld
  congr

theorem starts_sample : Starts sampleInterpreter (soloWorld sampleEmpty [] []) where
  added := rfl
  history _ := rfl
  files oid t path raw htree hfile := by
    unfold soloWorld sampleEmpty at htree
    dsimp only at htree
    split at htree
    · cases htree
      cases hfile
    · cases htree

theorem sample_ends :
    ∃ s, Ends (defer sampleInterpreter sampleInputs) none sampleTrace (.ok ()) s := by
  have hok := sample_checks
  rw [Bool.and_eq_true] at hok
  obtain ⟨u, hu⟩ := exists_of_isOk hok.2
  obtain ⟨s, hends⟩ := @ends_result _ _ _ _ _ (defer sampleInterpreter sampleInputs) none fun _ =>
    sampleAnswer
  exact ⟨s, hu ▸ hends⟩

theorem answered_sample {e : Event ContinuationAns} (he : e ∈ sampleTrace) :
    e.2 = sampleAnswer e.1 := by
  obtain ⟨j, hj⟩ := answered_asked e he
  exact hj

theorem tree_sampleOld : sampleEmpty.tree sampleOld = some fun _ => none := by
  unfold sampleEmpty
  dsimp only
  exact if_pos rfl

theorem tree_sampleNew : sampleEmpty.tree sampleNew = none := by
  have hne : sampleNew ≠ sampleOld := by decide
  unfold sampleEmpty
  dsimp only
  exact if_neg hne

theorem lands_sample {h : History} {e : Event ContinuationAns} (he : e ∈ h)
    (hcommit : isSampleCommit e = true) :
    Step sampleInterpreter sampleRepo (fun _ : Unit => sampleInputs) (soloWorld sampleEmpty [] h)
      (soloWorld sampleFilled [samplePath true] h) := by
  obtain ⟨op, answer⟩ := e
  cases op with
  | commit payload =>
    have hchecks : (isFor sampleRepo payload &&
      ((inputOf payload).get "expectedHeadOid").isText sampleOld &&
      decide (addition payload = some (samplePath true, sampleRaw))) = true := hcommit
    simp only [Bool.and_eq_true, decide_eq_true_eq] at hchecks
    obtain ⟨⟨hfor, hhead⟩, haddition⟩ := hchecks
    exact @Step.lands Unit _ _ _ _ (soloWorld sampleEmpty [] h) () payload answer _ _ _ _ he hfor
      (Value.isText_iff.mp hhead) haddition tree_sampleNew tree_sampleOld
  | _ => cases hcommit

/-- The run, until the commit has landed and from there to its end. -/
theorem run_sample {pre post : History} {e : Event ContinuationAns} {s : Option Visibility}
    (hends : Ends (defer sampleInterpreter sampleInputs) none (pre ++ [e] ++ post) (.ok ()) s)
    (hanswer : ∀ e' ∈ pre ++ [e] ++ post, e'.2 = sampleAnswer e'.1)
    (hbefore : ∀ e' ∈ pre ++ [e], isReadback e' = false) (hcommit : isSampleCommit e = true) :
    Relation.ReflTransGen (Step sampleInterpreter sampleRepo fun _ : Unit => sampleInputs)
      (soloWorld sampleEmpty [] []) (soloWorld sampleFilled [samplePath true] (pre ++ [e])) ∧
    Relation.ReflTransGen (Step sampleInterpreter sampleRepo fun _ : Unit => sampleInputs)
      (soloWorld sampleFilled [samplePath true] (pre ++ [e]))
      (soloWorld sampleFilled [samplePath true] (pre ++ [e] ++ post)) := by
  have hplain : ∀ e' ∈ pre ++ [e] ++ post, e'.2 ≠ .error .confirmedIntentConflict := by
    intro e' he'
    rw [hanswer e' he']
    exact plain_sample e'.1
  constructor
  · have hfirst : Relation.ReflTransGen
        (Step sampleInterpreter sampleRepo fun _ : Unit => sampleInputs)
        (soloWorld sampleEmpty [] []) (soloWorld sampleEmpty [] (pre ++ [e])) := by
      rw [← @soloWorld_update sampleEmpty [] [] (pre ++ [e])]
      refine @run_idle Unit _ _ _ _ (soloWorld sampleEmpty [] []) () [] (pre ++ [e]) post _ s hends rfl
        fun e' he' => ?_
      have hmem := List.mem_append_left post he'
      refine ⟨shown_sample tree_sampleOld (hanswer e' hmem) fun hback => ?_, hplain e' hmem⟩
      rw [hbefore e' he'] at hback
      cases hback
    exact hfirst.tail (lands_sample (List.mem_append_right _ (List.mem_singleton_self e)) hcommit)
  · rw [← @soloWorld_update sampleFilled [samplePath true] (pre ++ [e])]
    rw [← List.append_nil (pre ++ [e] ++ post)] at hends
    refine run_idle (i := ()) hends rfl fun e' he' => ?_
    have hmem := List.mem_append_right (pre ++ [e]) he'
    refine ⟨shown_sample ?_ (hanswer e' hmem) fun _ => ?_, hplain e' hmem⟩
    · exact Branch.tree_push tree_sampleNew tree_sampleOld
    · exact Branch.tree_push_head

end Supplementary.Continuation
