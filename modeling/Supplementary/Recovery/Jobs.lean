/-
# Every job of the journal

The journal of one repository, and any number of jobs of every kind that write to it at once: `defer`,
`resume`, `seal` and `recover`, for any pull requests and any runs, in any order, one operation at a
time.

`posts_backed`: whoever posts has added a record of its own that entitles to the post, and no record is
added twice.  `landed_in_order`: a record is added only to a commit that holds what it rests on.
`closed_for_good`: once the recovery of a run is closed, no recovery of that run adds anything.
-/
import Supplementary.Recovery.Seal
import Supplementary.Continuation.Consumed

namespace Supplementary.Recovery

open Effects PyStr Native Continuation

/-! ## 1. The jobs -/

inductive Job
  | defer (x : Inputs)
  | resume (x : ResumeInputs)
  | sealRun (x : Worker) (repoId : PyStr) (number runId : Int)
  | recover (x : Worker) (repoId : PyStr) (runId : Int)

/-- What the job executes; what `seal` and `recover` return is for the log. -/
def Job.program (rt : Runtime) (repo : PyStr) : Job → ContinuationAct Unit
  | .defer x => Continuation.defer rt x
  | .resume x => Continuation.resume rt x
  | .sealRun x repoId number runId => do
    let _ ← Recovery.sealRun rt x.site repo repoId number runId x.source x.now
    return ()
  | .recover x repoId runId => do
    let _ ← x.recover rt repo repoId runId
    return ()

/-- The record at the path entitles the job to its post. -/
inductive Job.Entitles : Job → PyStr → Prop
  | resume {x : ResumeInputs} {l : Locators} {path : PyStr} (hl : locators x = .ok l)
      (hpath : recordPath l.key false = .ok path) : Entitles (.resume x) path
  | recover {x : Worker} {repoId : PyStr} {runId number : Int} (hnumber : number = 3 ∨ number = 4) :
      Entitles (.recover x repoId runId) (attemptPath runId number)

/-- What a job has to know before it sends a commit, and where it adds. -/
def Job.Grounds (rt : Runtime) : Job → History → Value → Prop
  | .defer _, h, payload => Adds rt h payload ∧ ∃ path, pathOf payload = some path ∧ IsDeferred path
  | .resume x, h, payload => Claims rt x h payload
  | .sealRun _ _ _ runId, h, payload => Adds rt h payload ∧ pathOf payload = some (seedPath runId)
  | .recover _ _ runId, h, payload => Adds rt h payload ∧ Follows rt runId h payload

/-- The job has added, and was shown that it has added, a record that entitles it to its post. -/
def Job.Entitled (x : Job) (h : History) : Prop := ∃ path, x.Entitles path ∧ Made h path

variable {rt : Runtime} {repo : PyStr}

theorem Job.Grounds.append {x : Job} {h h' : History} {payload : Value}
    (hgrounds : x.Grounds rt h payload) : x.Grounds rt (h ++ h') payload := by
  cases x with
  | defer x => exact ⟨hgrounds.1.append, hgrounds.2⟩
  | resume x => exact Claims.append hgrounds
  | sealRun x repoId number runId => exact ⟨hgrounds.1.append, hgrounds.2⟩
  | recover x repoId runId => exact ⟨hgrounds.1.append, hgrounds.2.append⟩

theorem Job.Grounds.adds {x : Job} {h : History} {payload : Value}
    (hgrounds : x.Grounds rt h payload) : Adds rt h payload := by
  cases x with
  | defer x => exact hgrounds.1
  | resume x => exact Claims.adds hgrounds
  | sealRun x repoId number runId => exact hgrounds.1
  | recover x repoId runId => exact hgrounds.1

theorem Job.Entitled.append {x : Job} {h h' : History} (hentitled : x.Entitled h) :
    x.Entitled (h ++ h') := by
  rcases hentitled with ⟨path, hpath, hmade⟩
  exact ⟨path, hpath, hmade.append⟩

/-! ## 2. A deferral -/

theorem reads_isRecorded (journal : Journal) (key : PyStr) :
    Only IsRead (isRecorded rt journal key) := by
  refine reads_lift_bind fun path => (reads_readJournal _ _ _).bind fun operation => ?_
  split
  · exact reads_lift_bind fun path => (reads_readJournal _ _ _).bind fun deferred => only_pure
  · exact only_pure

theorem reads_confirm (d : Deferral) : Only IsRead (confirm rt d) := by
  refine (reads_openJournal _ _).bind fun journal => reads_lift_bind fun path => ?_
  refine (reads_readJournal _ _ _).bind fun deferred => reads_lift_bind fun _ => ?_
  exact reads_lift_bind fun path => (reads_readJournal _ _ _).bind fun operation => reads_lift

/-- The induction is on the tries that are left. -/
theorem recording_tries (d : Deferral) (left : Nat) (journal : Journal) :
    Within (Recording rt IsDeferred) (fun _ => True) (tries rt d left journal) := by
  have htrue : Lasts fun _ : History => True := lasts_true
  induction left generalizing journal with
  | zero => exact within_pure
  | succ left ih =>
    have htry : Within (Recording rt IsDeferred) (fun _ => True) (tryDefer rt d journal) :=
      recording_then (reads_checkLive _ _ _ _) htrue fun _ =>
        within_lift_bind fun path hpath => recording_create journal d.entries ⟨d.key, hpath⟩
    refine htry.attempt_bind htrue fun r => ?_
    cases r with
    | ok u => exact within_pure
    | error e =>
      dsimp only
      split
      · refine recording_then (reads_openJournal _ _) htrue fun journal => ?_
        refine recording_then (reads_isRecorded journal d.key) htrue fun found => ?_
        split
        · exact within_pure
        · refine within_lift_bind fun _ _ => ?_
          exact recording_then (reads_livePr _ _ _ _) htrue fun _ => ih journal
      · split
        · exact recording_of_reads (reads_confirm d) htrue
        · exact within_ofExcept

theorem recording_defer (x : Inputs) :
    Within (Recording rt IsDeferred) (fun _ => True) (defer rt x) := by
  have htrue : Lasts fun _ : History => True := lasts_true
  refine recording_then (reads_prepare x) htrue fun d => ?_
  refine recording_then (reads_openJournal _ _) htrue fun journal => ?_
  refine recording_then (reads_isRecorded journal d.key) htrue fun found => ?_
  split
  · exact within_pure
  · exact (recording_tries d 3 journal).bind htrue fun _ =>
      recording_of_reads (reads_checkLive _ _ _ _) htrue

/-! ## 3. The jobs are disciplined -/

theorem asks_discarded {α : Type} {y : ContinuationAct α} {h : History} {op : ContinuationOp} :
    Asks (do let _ ← y; return () : ContinuationAct Unit) none h op ↔ Asks y none h op := by
  refine asks_bind.trans ⟨?_, Or.inl⟩
  rintro (hasks | ⟨_, _, _, _, _, _, hasks⟩)
  · exact hasks
  · exact absurd hasks not_asks_pure

theorem asks_recover {x : Worker} {repoId : PyStr} {runId : Int} {h : History} {op : ContinuationOp} :
    Asks (Job.program rt repo (.recover x repoId runId)) none h op ↔
      Asks (x.recover rt repo repoId runId) none h op := asks_discarded

theorem recording_of_asks {x : Worker} {repoId : PyStr} {number runId : Int} {h : History}
    {op : ContinuationOp} (hasks : Asks (Job.program rt repo (.sealRun x repoId number runId)) none h op) :
    Recording rt (fun path => path = seedPath runId) h op :=
  recording_seal x.site repo repoId number runId x.source x.now [] none h op trivial
    (asks_discarded.mp hasks)

theorem grounds_of_asks {x : Job} {h : History} {payload : Value}
    (hasks : Asks (x.program rt repo) none h (.commit payload)) : x.Grounds rt h payload := by
  cases x with
  | defer x => exact recording_defer x [] none h _ trivial hasks
  | resume x => exact (Continuation.allowed_of_asks hasks).2.2
  | sealRun x repoId number runId =>
    rcases recording_of_asks hasks with ⟨hadds, path, hpath, rfl⟩
    exact ⟨hadds, hpath⟩
  | recover x repoId runId =>
    rw [asks_recover] at hasks
    exact ⟨allowed_of_asks hasks, follows_of_asks hasks⟩

theorem entitled_of_confirmed {x : ResumeInputs} {h : History} (hconfirmed : Confirmed rt x h) :
    Job.Entitled (.resume x) h := by
  rcases hconfirmed with ⟨hclaims, hmem, hshows⟩
  cases hclaims with
  | intro hl _ hpath => exact ⟨_, .resume hl hpath, _, _, _, hmem, hshows⟩

theorem entitled_of_asks {x : Job} {h : History} {route : PyStr} {payload : Value}
    (hasks : Asks (x.program rt repo) none h (.send route payload)) : sends h = [] ∧ x.Entitled h := by
  cases x with
  | defer x => exact (recording_defer x [] none h _ trivial hasks).elim
  | resume x =>
    rcases Continuation.allowed_of_asks hasks with ⟨hsends, hconfirmed⟩
    exact ⟨hsends, entitled_of_confirmed hconfirmed⟩
  | sealRun x repoId number runId => exact (recording_of_asks hasks).elim
  | recover x repoId runId =>
    rw [asks_recover] at hasks
    rcases allowed_of_asks hasks with ⟨hsends, number, hnumber, hmade⟩
    exact ⟨hsends, _, .recover hnumber, hmade⟩

theorem disciplined_jobs {ι : Type} {jobs : ι → Job} :
    Disciplined rt (fun i => (jobs i).program rt repo) fun i h => (jobs i).Entitled h where
  commit _ _ _ hasks := (grounds_of_asks hasks).adds
  send _ _ _ _ hasks := entitled_of_asks hasks
  append _ _ _ hentitled := hentitled.append

/-! ## 4. What a record rests on -/

/-- A read of the path, in the commit, returns a record. -/
def Reads (rt : Runtime) (t : PyStr → Option Bytes) (path : PyStr) : Prop :=
  ∃ record, record.isNone = false ∧ ReadsAs rt (t path) record

/-- Where the job adds its record, and what the commit holds that it adds it to: a resume needs the deferred
intent, and no rerun of its owner; the claim of an attempt needs the seal of the run and an open
recovery, and that of the attempt four the claim of the attempt three. -/
inductive Job.Rests (rt : Runtime) (t : PyStr → Option Bytes) : Job → PyStr → Prop
  | defer {x : Inputs} {path : PyStr} (hdeferred : IsDeferred path) : Rests rt t (.defer x) path
  | resume {x : ResumeInputs} {l : Locators} {deferred path rerun : PyStr} {intent : Value}
      (hl : locators x = .ok l) (hdeferred : recordPath l.key true = .ok deferred)
      (hpath : recordPath l.key false = .ok path) (hdict : intent.isDict = true)
      (hintent : ReadsAs rt (t deferred) intent) (hrerun : recordPath (rerunKey intent) false = .ok rerun)
      (hunspent : ¬ HasRecord rt t rerun) : Rests rt t (.resume x) path
  | sealRun {x : Worker} {repoId : PyStr} {number runId : Int} :
      Rests rt t (.sealRun x repoId number runId) (seedPath runId)
  | close {x : Worker} {repoId : PyStr} {runId : Int} :
      Rests rt t (.recover x repoId runId) (terminalPath runId)
  | attempt {x : Worker} {repoId : PyStr} {runId number : Int} (hnumber : number = 3 ∨ number = 4)
      (hseed : Reads rt t (seedPath runId)) (hopen : ¬ HasRecord rt t (terminalPath runId))
      (hpreceded : number = 4 → Reads rt t (attemptPath runId 3)) :
      Rests rt t (.recover x repoId runId) (attemptPath runId number)

/-- The job has added a record to a commit that held what it rests on, and no record at its path. -/
inductive AddedTo (rt : Runtime) (x : Job) (b : JournalBranch) (payload : Value) : Prop
  | intro {oid path : PyStr} {t : PyStr → Option Bytes}
      (hoid : (inputOf payload).get "expectedHeadOid" = .str oid) (htree : b.tree oid = some t)
      (hpath : pathOf payload = some path) (habsent : ¬ HasRecord rt t path) (hrests : x.Rests rt t path) :
      AddedTo rt x b payload

variable {ι : Type} {jobs : ι → Job} {w w' : WriterWorld ι}

structure JobInv (rt : Runtime) (repo : PyStr) (jobs : ι → Job) (w : WriterWorld ι) : Prop where
  writers : WriterInv rt repo (fun i h => (jobs i).Entitled h) w
  grounds : ∀ i payload, (i, payload) ∈ w.sent → (jobs i).Grounds rt (w.history i) payload
  added : ∀ i payload, (i, payload) ∈ w.landed → AddedTo rt (jobs i) w.branch payload

theorem starts_jobInv (hstart : w.Starts) : JobInv rt repo jobs w where
  writers := hstart.inv
  grounds i payload hmem := by
    rw [hstart.sent] at hmem
    cases hmem
  added i payload hmem := by
    rw [hstart.landed] at hmem
    cases hmem

theorem AddedTo.push {x : Job} {b : JournalBranch} {payload : Value} {new : PyStr}
    {t' : PyStr → Option Bytes} (h : AddedTo rt x b payload) (hfresh : b.tree new = none) :
    AddedTo rt x (b.push new t') payload := by
  rcases h with ⟨hoid, htree, hpath, habsent, hrests⟩
  exact ⟨hoid, Branch.tree_push hfresh htree, hpath, habsent, hrests⟩

theorem reads_of_sawSome {i : ι} {journal : Journal} {path : PyStr} {t : PyStr → Option Bytes}
    (hinv : JobInv rt repo jobs w) (hrepo : journal.repo = repo)
    (htree : w.branch.tree journal.oid = some t) (hsaw : SawSome rt (w.history i) journal path) :
    Reads rt t path := by
  rcases hsaw with ⟨record, hrecord, hsaw⟩
  rcases hinv.writers.shown i journal path record hrepo hsaw with ⟨t', htree', hreads⟩
  cases htree.symm.trans htree'
  exact ⟨record, hrecord, hreads⟩

theorem not_hasRecord_of_saw {i : ι} {journal : Journal} {path : PyStr} {t : PyStr → Option Bytes}
    (hinv : JobInv rt repo jobs w) (hrepo : journal.repo = repo)
    (htree : w.branch.tree journal.oid = some t) (hsaw : Saw rt (w.history i) journal path .none) :
    ¬ HasRecord rt t path := by
  rcases hinv.writers.shown i journal path .none hrepo hsaw with ⟨t', htree', hreads⟩
  cases htree.symm.trans htree'
  exact not_hasRecord_of_readsAs hreads

/-- What a job knew when it sent its commit is so where the commit lands. -/
theorem rests_of_grounds {i : ι} {payload : Value} {path : PyStr} {raw : Bytes}
    {t : PyStr → Option Bytes} (hinv : JobInv rt repo jobs w)
    (hgrounds : (jobs i).Grounds rt (w.history i) payload) (hfor : isFor repo payload = true)
    (hhead : (inputOf payload).get "expectedHeadOid" = .str w.branch.head)
    (haddition : addition payload = some (path, raw)) (htree : w.branch.tree w.branch.head = some t) :
    (jobs i).Rests rt t path := by
  have hthere : pathOf payload = some path := by rw [pathOf, haddition]; rfl
  generalize jobs i = x at hgrounds ⊢
  cases x with
  | defer x =>
    rcases hgrounds.2 with ⟨path', hpath', hdeferred⟩
    cases hthere.symm.trans hpath'
    exact .defer hdeferred
  | sealRun x repoId number runId =>
    cases hthere.symm.trans hgrounds.2
    exact .sealRun
  | resume x =>
    cases hgrounds with
    | @intro l journal deferred path' rerun intent entries raw' hl hdeferred hpath hrerun hraw hcommit hdict
        hintent hunclaimed hunspent =>
      rw [addition_commitPayload] at haddition
      cases haddition
      have hrepo := repo_of_isFor hfor
      have hoid : journal.oid = w.branch.head := Value.str.inj hhead
      rw [← hoid] at htree
      rcases hinv.writers.shown i journal _ _ hrepo hintent with ⟨t', htree', hreads⟩
      cases htree.symm.trans htree'
      exact .resume hl hdeferred hpath hdict hreads hrerun
        (not_hasRecord_of_saw hinv hrepo htree hunspent)
  | recover x repoId runId =>
    cases hgrounds.2 with
    | closes =>
      rw [addition_commitPayload] at haddition
      cases haddition
      exact .close
    | @claims journal raw' number hnumber hopened hpreceded =>
      rw [addition_commitPayload] at haddition
      cases haddition
      have hrepo := repo_of_isFor hfor
      have hoid : journal.oid = w.branch.head := Value.str.inj hhead
      rw [← hoid] at htree
      exact .attempt hnumber (reads_of_sawSome hinv hrepo htree hopened.seed)
        (not_hasRecord_of_saw hinv hrepo htree hopened.terminal)
        fun hfour => reads_of_sawSome hinv hrepo htree (hpreceded hfour)

/-! ## 5. Runs -/

section

variable [DecidableEq ι]

theorem JobInv.step (h : WriterStep rt repo (fun i => (jobs i).program rt repo) w w')
    (hinv : JobInv rt repo jobs w) : JobInv rt repo jobs w' := by
  have hwriters := h.inv disciplined_jobs hinv.writers
  cases h with
  | @sends i payload hasks =>
    refine ⟨hwriters, fun j payload' hmem => ?_, hinv.added⟩
    rcases List.mem_cons.mp hmem with heq | hmem
    · cases heq
      exact grounds_of_asks hasks
    · exact hinv.grounds j payload' hmem
  | @lands i payload t path new raw hsent hfor hhead haddition hfresh htree =>
    refine ⟨hwriters, hinv.grounds, fun j payload' hmem => ?_⟩
    rcases List.mem_cons.mp hmem with heq | hmem
    · cases heq
      have hrests := rests_of_grounds hinv (hinv.grounds _ _ hsent) hfor hhead haddition htree
      have habsent := (landing hinv.writers hsent hfor hhead haddition htree).1
      have hpath : pathOf payload = some path := by rw [pathOf, haddition]; rfl
      exact .intro hhead (Branch.tree_push hfresh htree) hpath habsent hrests
    · exact (hinv.added j payload' hmem).push hfresh
  | @answers i op answer hasks hanswers =>
    refine ⟨hwriters, ?_, hinv.added⟩
    exact (Function.forall_update_iff w.history (p := fun j h => ∀ payload, (j, payload) ∈ w.sent →
      (jobs j).Grounds rt h payload)).mpr
      ⟨fun payload hmem => (hinv.grounds i payload hmem).append, fun j _ => hinv.grounds j⟩
  | other hfresh htree hkept =>
    exact ⟨hwriters, hinv.grounds, fun j payload hmem => (hinv.added j payload hmem).push hfresh⟩

theorem JobInv.run (hinv : JobInv rt repo jobs w)
    (hrun : Relation.ReflTransGen (WriterStep rt repo fun i => (jobs i).program rt repo) w w') :
    JobInv rt repo jobs w' := by
  induction hrun with
  | refl => exact hinv
  | tail _ hstep ih => exact ih.step hstep

omit [DecidableEq ι] in
/-- A job that posts has landed a record that entitles it to the post. -/
theorem JobInv.backed (hinv : JobInv rt repo jobs w) {i : ι}
    (hposts : Posts ((jobs i).program rt repo) (w.history i)) :
    ∃ path payload, (jobs i).Entitles path ∧ pathOf payload = some path ∧ (i, payload) ∈ w.landed := by
  rcases ready_of_posts disciplined_jobs hinv.writers hposts with
    ⟨path, hentitles, journal, raw, result, hmem, hshows⟩
  exact ⟨path, _, hentitles, pathOf_commitPayload journal path raw, hinv.writers.answered i _ _ hmem hshows⟩

/-- **Every post is backed by a record of its own.**  Whatever jobs of whatever kinds there are, no two
commits of theirs have added a record at one path; a job posts once at most, and only after a record
landed that it has sent itself and that entitles it to the post; and two jobs that are entitled by
the same record are one. -/
theorem posts_backed {w₀ : WriterWorld ι} (hstart : w₀.Starts)
    (hrun : Relation.ReflTransGen (WriterStep rt repo fun i => (jobs i).program rt repo) w₀ w) :
    (w.landed.Pairwise fun x y => pathOf x.2 ≠ pathOf y.2) ∧ ∀ i, (sends (w.history i)).length ≤ 1 ∧
      (Posts ((jobs i).program rt repo) (w.history i) →
        ∃ path payload, (jobs i).Entitles path ∧ pathOf payload = some path ∧ (i, payload) ∈ w.landed ∧
          ∀ j payload', (j, payload') ∈ w.landed → pathOf payload' = some path → j = i) := by
  have hinv := (starts_jobInv hstart).run hrun
  refine ⟨hinv.writers.distinct, fun i => ⟨(hinv.writers.posts i).1, fun hposts => ?_⟩⟩
  rcases hinv.backed hposts with ⟨path, payload, hentitles, hpath, hlanded⟩
  refine ⟨path, payload, hentitles, hpath, hlanded, fun j payload' hlanded' hpath' => ?_⟩
  exact hinv.writers.unique hlanded' hlanded (hpath'.trans hpath.symm)

/-- **Every record was added where what it rests on was.** -/
theorem landed_in_order {w₀ : WriterWorld ι} (hstart : w₀.Starts)
    (hrun : Relation.ReflTransGen (WriterStep rt repo fun i => (jobs i).program rt repo) w₀ w) {i : ι}
    {payload : Value} (hlanded : (i, payload) ∈ w.landed) : AddedTo rt (jobs i) w.branch payload :=
  ((starts_jobInv hstart).run hrun).added i payload hlanded

/-! ## 6. After the end of a recovery -/

/-- The head has the record that closes the recovery of the run. -/
def Closed (rt : Runtime) (runId : Int) (w : WriterWorld ι) : Prop :=
  ∃ t, w.branch.tree w.branch.head = some t ∧ HasRecord rt t (terminalPath runId)

/-- What a recovery adds, it adds where the record that closes it is not there. -/
theorem AddedTo.not_closed {x : Job} {y : Worker} {repoId : PyStr} {runId : Int} {b : JournalBranch}
    {payload : Value} {oid : PyStr} {t : PyStr → Option Bytes} (h : AddedTo rt x b payload)
    (hx : x = .recover y repoId runId) (hoid : (inputOf payload).get "expectedHeadOid" = .str oid)
    (htree : b.tree oid = some t) : ¬ HasRecord rt t (terminalPath runId) := by
  rcases h with ⟨hoid', htree', -, habsent, hrests⟩
  cases hoid.symm.trans hoid'
  cases htree.symm.trans htree'
  subst hx
  cases hrests with
  | close => exact habsent
  | attempt _ _ hopen _ => exact hopen

theorem Closed.step {runId : Int} (h : WriterStep rt repo (fun i => (jobs i).program rt repo) w w')
    (hinv : JobInv rt repo jobs w) (hclosed : Closed rt runId w) :
    Closed rt runId w' ∧ ∀ i x repoId payload, jobs i = .recover x repoId runId →
      (i, payload) ∈ w'.landed → (i, payload) ∈ w.landed := by
  rcases hclosed with ⟨t, htree, hrecord⟩
  have hafter := hinv.step h
  cases h with
  | sends _ => exact ⟨⟨t, htree, hrecord⟩, fun _ _ _ _ _ hmem => hmem⟩
  | @lands i payload t' path new raw hsent hfor hhead haddition hfresh htree' =>
    cases htree.symm.trans htree'
    have hraw := (landing hinv.writers hsent hfor hhead haddition htree).2
    refine ⟨⟨_, Branch.tree_push_head, hasRecord_update hraw hrecord⟩, ?_⟩
    intro j x repoId payload' hjob hmem
    rcases List.mem_cons.mp hmem with heq | hmem
    · cases heq
      have hadded := hafter.added i payload List.mem_cons_self
      exact absurd hrecord (hadded.not_closed hjob hhead (Branch.tree_push hfresh htree))
    · exact hmem
  | answers _ _ => exact ⟨⟨t, htree, hrecord⟩, fun _ _ _ _ _ hmem => hmem⟩
  | other hfresh htree' hkept =>
    cases htree.symm.trans htree'
    exact ⟨⟨_, Branch.tree_push_head, hkept _ hrecord⟩, fun _ _ _ _ _ hmem => hmem⟩

end

/-! ## 7. Runs -/

def resumeJob (_ : Unit) : Job := .resume resumeInputs

/-- A resume, from its first read to its post. -/
theorem run_resumeJob : ∃ (w : WriterWorld Unit) (payload : Value), w.history () = resumeTrace ∧
    ((), payload) ∈ w.landed ∧ sends resumeTrace ≠ [] ∧ Relation.ReflTransGen
      (WriterStep sampleInterpreter sampleRepo fun i => (resumeJob i).program sampleInterpreter sampleRepo)
      (soloResume deferredBranch [] [] []) w := by
  have hchecks := resume_checks
  simp only [Bool.and_eq_true, List.all_eq_true, Bool.not_eq_true', Option.any_eq_true,
    List.isEmpty_eq_false_iff] at hchecks
  obtain ⟨⟨⟨⟨hback, hbefore⟩, ⟨op, answer⟩, hhead, hcommit⟩, hafter⟩, hsends⟩ := hchecks
  rcases sample_resume_ends with ⟨r, s, hends⟩
  cases op with
  | commit payload =>
    rcases List.head?_eq_some_iff.mp hhead with ⟨post, hpost⟩
    have hsplit : resumeTrace.take 28 ++ (⟨.commit payload, answer⟩ :: post) = resumeTrace := by
      rw [← hpost, List.take_append_drop]
    have hdrop : resumeTrace.drop 29 = post := by
      rw [show (29 : Nat) = 28 + 1 from rfl, ← List.drop_drop, hpost]
      rfl
    have hanswer : ∀ e ∈ resumeTrace, e.2 = resumeAnswer e.1 := by
      intro e he
      rcases answered_asked e he with ⟨j, hj⟩
      exact hj
    have htake : ∀ e ∈ resumeTrace.take 28, e ∈ resumeTrace.take 29 := fun e he =>
      List.take_subset_take_left resumeTrace (by decide) he
    rw [hdrop] at hafter
    have hrun := @run_resume_sample (resumeTrace.take 28) post payload answer r s (hsplit.symm ▸ hends)
      (hsplit.symm ▸ hanswer) (fun e he => ⟨hback e (htake e he), hbefore e he⟩) hafter hcommit
    rw [hsplit] at hrun
    exact ⟨_, payload, rfl, List.mem_singleton_self _, hsends, hrun⟩
  | _ => cases hcommit

theorem posts_backed_sample : ∃ (w : WriterWorld Unit) (path : PyStr) (payload : Value),
    w.history () = resumeTrace ∧ (resumeJob ()).Entitles path ∧ pathOf payload = some path ∧
      ((), payload) ∈ w.landed := by
  rcases run_resumeJob with ⟨w, -, hhistory, -, hsends, hrun⟩
  rcases posts_backed ⟨rfl, rfl, fun _ => rfl⟩ hrun with ⟨-, hbacked⟩
  rcases (hbacked ()).2 (.inl (hhistory ▸ hsends)) with ⟨path, payload, hentitles, hpath, hlanded, -⟩
  exact ⟨w, path, payload, hhistory, hentitles, hpath, hlanded⟩

theorem landed_in_order_sample : ∃ (w : WriterWorld Unit) (payload : Value), w.history () = resumeTrace ∧
    AddedTo sampleInterpreter (.resume resumeInputs) w.branch payload := by
  rcases run_resumeJob with ⟨w, payload, hhistory, hlanded, -, hrun⟩
  exact ⟨w, payload, hhistory, landed_in_order ⟨rfl, rfl, fun _ => rfl⟩ hrun hlanded⟩

def recoverJob (_ : Unit) : Job := .recover sampleWorker "1" 9

def closedTree : PyStr → Option Bytes :=
  Function.update (fun _ => none) (terminalPath 9) (some sampleRaw)

/-- The recovery of the run is closed. -/
def closedWorld : WriterWorld Unit :=
  ⟨sampleEmpty.push sampleNew closedTree, [], [], fun _ => []⟩

theorem closed_closedWorld : Closed sampleInterpreter 9 closedWorld := by
  have hraw : recordBytes sampleInterpreter (.dict sampleEntries) = .ok sampleRaw := by
    have hok : ((recordBytes sampleInterpreter (.dict sampleEntries)).toOption).isSome = true := by
      decide +kernel
    unfold sampleRaw
    cases hbytes : recordBytes sampleInterpreter (.dict sampleEntries) with
    | ok raw => rfl
    | error e =>
      rw [hbytes] at hok
      cases hok
  exact ⟨closedTree, Branch.tree_push_head, sampleRaw, Function.update_self .., isRecord_recordBytes hraw⟩

end Supplementary.Recovery
