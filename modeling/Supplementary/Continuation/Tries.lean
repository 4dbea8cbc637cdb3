/-
# What an execution asks for

An execution of `defer`, whatever it is answered: `Orderly` says which commits are in its history.  A
commit comes after less than three others, each of them refused by the server in the exact words, and
its path was read before at the head it expects, and was absent.

An answer of the environment is never the exception that only `commit_response` raises.
-/
import Supplementary.Continuation.Defer

namespace Supplementary.Continuation

open Effects PyStr Native

/-! ## 1. Histories -/

abbrev History := Trace ContinuationAns

def IsRead : ContinuationOp → Prop
  | .commit _ | .send _ _ => False
  | _ => True

def isCommit (e : Event ContinuationAns) : Bool :=
  match e.1 with
  | .commit _ => true
  | _ => false

def commits (h : History) : History := h.filter isCommit

/-- No answer is a `ConfirmedIntentConflict`. -/
def Sane (h : History) : Prop := ∀ e ∈ h, e.2 ≠ .error .confirmedIntentConflict

/-- `payload["variables"]["input"]`. -/
def inputOf (payload : Value) : Value := (payload.get "variables").get "input"

variable (rt : Runtime)

/-- The commit was answered by the exact rejection of the head it expected. -/
inductive Refused : Event ContinuationAns → Prop
  | intro {payload result : Value} {answer : Py Value} {prior : PyStr} {failed : Bool}
      (hprior : (inputOf payload).get "expectedHeadOid" = .str prior)
      (hreceived : received rt answer = .ok (failed, result)) (hstale : isStale prior result = true) :
      Refused ⟨.commit payload, answer⟩

/-- A read of the file at the path, in the commit of the journal, showed the record. -/
inductive Shows (journal : Journal) (path : PyStr) (record : Value) : Event ContinuationAns → Prop
  | intro {request : Paging.Request} {timeout : ℚ} {result : Value}
      (hrequest : readRequest journal path = .ok request)
      (hrecord : recordOf rt journal result = .ok record) :
      Shows journal path record ⟨.read request timeout, .ok result⟩

def Saw (h : History) (journal : Journal) (path : PyStr) (record : Value) : Prop :=
  ∃ e ∈ h, Shows rt journal path record e

/-- A record of the operation was seen, deferred or not. -/
def Recorded (h : History) (key : PyStr) : Prop :=
  ∃ journal deferred path record, recordPath key deferred = .ok path ∧ Saw rt h journal path record ∧
    record.isNone = false

/-- The commit adds a record at a path that was seen to be absent. -/
inductive Justified (h : History) : Value → Prop
  | intro {journal : Journal} {key path : PyStr} {entries : List (PyStr × Value)} {raw : Bytes}
      (hpath : recordPath key true = .ok path) (hraw : recordBytes rt (.dict entries) = .ok raw)
      (hsaw : Saw rt h journal path .none) : Justified h (commitPayload journal path raw)

/-- At most `n` commits so far, and all of them refused. -/
def Refusals (n : Nat) (h : History) : Prop := (commits h).length ≤ n ∧ ∀ e ∈ commits h, Refused rt e

/-- What an execution may ask for. -/
def Permitted (h : History) : ContinuationOp → Prop
  | .commit payload => Sane h → Refusals rt 2 h ∧ Justified rt h payload
  | _ => True

/-! ## 2. What reading does not change -/

variable {rt : Runtime}

theorem isCommit_of_read {e : Event ContinuationAns} (h : IsRead e.1) : isCommit e = false := by
  obtain ⟨op, answer⟩ := e
  cases op with
  | commit payload => exact h.elim
  | _ => rfl

theorem commits_append (h h' : History) : commits (h ++ h') = commits h ++ commits h' :=
  List.filter_append ..

theorem commits_read {h : History} {e : Event ContinuationAns} (he : IsRead e.1) :
    commits (h ++ [e]) = commits h := by
  rw [commits_append, commits, commits, List.filter_cons, isCommit_of_read he]
  exact List.append_nil _

theorem commits_commit {h : History} {payload : Value} {answer : Py Value} :
    commits (h ++ [⟨.commit payload, answer⟩]) = commits h ++ [⟨.commit payload, answer⟩] :=
  commits_append _ _

theorem Sane.left {h h' : History} (hsane : Sane (h ++ h')) : Sane h :=
  fun e he => hsane e (List.mem_append_left _ he)

theorem Saw.append {h h' : History} {journal : Journal} {path : PyStr} {record : Value}
    (hsaw : Saw rt h journal path record) : Saw rt (h ++ h') journal path record := by
  obtain ⟨e, he, hshows⟩ := hsaw
  exact ⟨e, List.mem_append_left _ he, hshows⟩

theorem Recorded.append {h h' : History} {key : PyStr} (hrecorded : Recorded rt h key) :
    Recorded rt (h ++ h') key := by
  obtain ⟨journal, deferred, path, record, hpath, hsaw, hnone⟩ := hrecorded
  exact ⟨journal, deferred, path, record, hpath, hsaw.append, hnone⟩

theorem Justified.append {h h' : History} {payload : Value} (hjustified : Justified rt h payload) :
    Justified rt (h ++ h') payload := by
  cases hjustified with
  | intro hpath hraw hsaw => exact .intro hpath hraw hsaw.append

/-- A history in which the answers are as they can be. -/
def Given (P : History → Prop) (h : History) : Prop := Sane h → P h

theorem stays_given {P : History → Prop} (hP : Stays IsRead P) : Stays IsRead (Given P) :=
  fun h e hh he hsane => hP h e (hh hsane.left) he

theorem stays_refusals {n : Nat} : Stays IsRead (Refusals rt n) := by
  intro h e hh he
  unfold Refusals
  rwa [commits_read he]

theorem refusals_nil {n : Nat} : Refusals rt n [] := ⟨Nat.zero_le n, fun _ he => by cases he⟩

theorem stays_true : Stays IsRead fun _ : History => True := fun _ _ _ _ => trivial

theorem stays_length {n : Nat} : Stays IsRead fun h => (commits h).length ≤ n := by
  intro h e hh he
  rwa [commits_read he]

theorem stays_recorded {key : PyStr} : Stays IsRead fun h => Recorded rt h key :=
  fun _ _ hh _ => hh.append

theorem permitted_read {h : History} {op : ContinuationOp} (hop : IsRead op) : Permitted rt h op := by
  cases op with
  | commit payload => exact hop.elim
  | _ => trivial

/-! ## 3. The parts that only read -/

section Reads

variable {α β : Type}

theorem reads_lift_bind {y : Py α} {f : α → ContinuationAct β} (hf : ∀ a, Only IsRead (f a)) :
    Only IsRead ((liftM y : ContinuationAct α) >>= f) := Only.bind only_ofExcept hf

theorem reads_lift {y : Py α} : Only IsRead (liftM y : ContinuationAct α) := only_ofExcept

theorem reads_api (request : Paging.Request) : Only IsRead (api request) := by
  refine only_read.bind fun budget => ?_
  cases budget with
  | none => exact only_call trivial
  | some budget =>
    refine reads_lift_bind fun _ => Only.bind (only_call trivial) fun now => ?_
    refine reads_lift_bind fun _ => ?_
    exact only_update.bind fun _ => only_call trivial

theorem reads_pages (route : PyStr) (key : Option PyStr) : Only IsRead (pages route key) := by
  have hfrom : ∀ left page total result, Only IsRead (pagesFrom route key left page total result) := by
    intro left
    induction left with
    | zero => exact fun _ _ _ => only_ofExcept
    | succ left ih =>
      intro page total result
      refine (reads_api _).bind fun response => reads_lift_bind fun batch => ?_
      dsimp only
      split
      · exact reads_lift
      · exact ih _ _ _
  exact hfrom 10 1 none []

theorem reads_openJournal (repo repoId : PyStr) : Only IsRead (openJournal repo repoId) := by
  refine (reads_api _).bind fun ref => reads_lift_bind fun _ => reads_lift_bind fun sha => ?_
  cases sha with
  | str oid => exact reads_lift_bind fun _ => only_pure
  | _ => exact only_ofExcept

theorem reads_readJournal (rt : Runtime) (journal : Journal) (path : PyStr) :
    Only IsRead (readJournal rt journal path) :=
  reads_lift_bind fun _ => (reads_api _).bind fun _ => reads_lift

theorem reads_livePr (repo : PyStr) (pr head : Value) (base : Option Value) :
    Only IsRead (livePr repo pr head base) := by
  refine reads_lift_bind fun _ => (reads_api _).bind fun value => reads_lift_bind fun _ => ?_
  exact reads_lift_bind fun _ => reads_lift_bind fun _ => reads_lift_bind fun _ => only_pure

theorem reads_repository (repo repoId source baseRef : PyStr) :
    Only IsRead (repository repo repoId source baseRef) := by
  refine reads_lift_bind fun _ => (reads_api _).bind fun data => reads_lift_bind fun _ => ?_
  refine reads_lift_bind fun _ => (reads_api _).bind fun branch => reads_lift_bind fun _ => ?_
  refine reads_lift_bind fun tip => (reads_api _).bind fun ancestry => ?_
  exact reads_lift_bind fun _ => only_pure

theorem reads_checkController (repo repoId : PyStr) (sha ref : Value) (message : String) :
    Only IsRead (checkController repo repoId sha ref message) :=
  (reads_repository _ _ _ _).bind fun _ => reads_lift

theorem reads_checkLive (d : Deferral) (refs controller base : String) :
    Only IsRead (checkLive d refs controller base) := by
  refine (reads_livePr _ _ _ _).bind fun current => reads_lift_bind fun _ => ?_
  exact (reads_checkController _ _ _ _ _).bind fun _ => reads_checkController _ _ _ _ _

theorem reads_branchPr (repo : PyStr) (run : Value) : Only IsRead (branchPr repo run) := by
  refine reads_lift_bind fun branch => reads_lift_bind fun head => reads_lift_bind fun quoted => ?_
  refine (reads_pages _ _).bind fun candidates => ?_
  split
  · refine reads_lift_bind fun number => reads_lift_bind fun headSha => ?_
    exact (reads_livePr _ _ _ _).bind fun pr => reads_lift_bind fun _ => only_pure
  · exact only_ofExcept

theorem reads_emptyOwner (repo : PyStr) (run owner base head baseRef : Value) (allowPending : Bool) :
    Only IsRead (emptyOwner repo run owner base head baseRef allowPending) := by
  refine reads_lift_bind fun _ => reads_lift_bind fun _ => (reads_branchPr _ _).bind fun pr => ?_
  refine reads_lift_bind fun _ => (reads_pages _ _).bind fun jobs => ?_
  split
  · exact only_ofExcept
  · exact reads_lift_bind fun _ => reads_lift_bind fun _ => only_pure
  · exact only_ofExcept

theorem reads_observe (repo : PyStr) (run owner base head baseRef : Value) (left : Nat) :
    Only IsRead (observe repo run owner base head baseRef left) := by
  induction left with
  | zero => exact only_pure
  | succ left ih =>
    refine (reads_emptyOwner _ _ _ _ _ _ _).catching fun e => ?_
    split
    · refine reads_lift_bind fun _ => Only.bind (only_read.bind fun budget => ?_) fun budget => ?_
      · cases budget with
        | none => exact only_ofExcept
        | some budget => exact only_pure
      · refine Only.bind (only_call trivial) fun now => reads_lift_bind fun _ => ?_
        exact Only.bind (only_call trivial) fun _ => ih
    · exact only_ofExcept

theorem reads_awaitEmptyOwner (repo : PyStr) (run owner base head baseRef : Value) :
    Only IsRead (awaitEmptyOwner repo run owner base head baseRef) := by
  refine only_read.bind fun budget => reads_lift_bind fun _ => ?_
  refine Only.bind (only_call trivial) fun now => only_update.bind fun _ => ?_
  exact (reads_observe _ _ _ _ _ _ _).ensuring only_update

theorem reads_originalRun (repo : PyStr) (intent : Value) (completed : Bool) :
    Only IsRead (originalRun repo intent completed) := by
  refine (reads_api _).bind fun run => reads_lift_bind fun _ => reads_lift_bind fun prs => ?_
  split
  · refine Only.bind ?_ fun pr => reads_lift_bind fun _ => reads_lift_bind fun _ => only_pure
    cases completed with
    | true => exact reads_emptyOwner _ _ _ _ _ _ _
    | false => exact reads_awaitEmptyOwner _ _ _ _ _ _
  · exact reads_lift_bind fun _ => reads_lift_bind fun _ => only_pure
  · exact only_ofExcept

theorem reads_prepare (inputs : Inputs) : Only IsRead (prepare inputs) := by
  refine reads_lift_bind fun names => reads_lift_bind fun _ => reads_lift_bind fun event => ?_
  refine reads_lift_bind fun _ => reads_lift_bind fun number => reads_lift_bind fun head => ?_
  refine reads_lift_bind fun base => (reads_livePr _ _ _ _).bind fun pr => reads_lift_bind fun _ => ?_
  refine reads_lift_bind fun baseRef => reads_lift_bind fun baseSha => reads_lift_bind fun _ => ?_
  refine reads_lift_bind fun _ => (reads_checkController _ _ _ _ _).bind fun _ => ?_
  refine (reads_checkController _ _ _ _ _).bind fun _ => reads_lift_bind fun runId => ?_
  refine reads_lift_bind fun action => Only.bind (only_call trivial) fun createdAt => ?_
  exact reads_lift_bind fun intent => (reads_originalRun _ _ _).bind fun _ => only_pure

end Reads

/-! ## 4. Reading a record -/

variable {P : History → Prop} {α β : Type}

theorem tracks_reads {x : ContinuationAct α} (hx : Only IsRead x) (hP : Stays IsRead P) :
    Tracks (Permitted rt) P x fun _ => P :=
  Tracks.of_only hx (fun _ _ _ hop => permitted_read hop) hP

theorem not_conflict {y : Py α} (hy : Raises Plain y) : y ≠ .error .confirmedIntentConflict :=
  fun h => hy _ h rfl

theorem isNone_of_pyEq_dict {value : Value} {entries : List (PyStr × Value)}
    (h : value.pyEq (.dict entries) = true) : value.isNone = false := by
  cases value with
  | none => exact absurd h Bool.false_ne_true
  | _ => rfl

theorem eq_none_of_isNone {value : Value} (h : value.isNone = true) : value = .none := by
  cases value with
  | none => rfl
  | _ => cases h

/-- A read leaves what is known as it is, raises no conflict, and shows what it returns. -/
structure ReadAt (rt : Runtime) (P : History → Prop) (journal : Journal) (path : PyStr) (r : Py Value)
    (h : History) : Prop where
  known : P h
  plain : Sane h → r ≠ .error .confirmedIntentConflict
  saw : ∀ record, r = .ok record → Saw rt h journal path record

theorem readRequest_plain (journal : Journal) (path : PyStr) :
    Raises Plain (readRequest journal path) := by
  unfold readRequest
  split
  · exact raises_ok _
  · exact raises_error PyError.noConfusion

/-- What is known of an answer to a read: it is in the history, or the read was not asked for. -/
def Answered (P : History → Prop) (request : Paging.Request) (r : Py Value) (h : History) : Prop :=
  P h ∧ (Sane h → r ≠ .error .confirmedIntentConflict) ∧ ∀ result, r = .ok result →
    ∃ timeout, (⟨.read request timeout, .ok result⟩ : Event ContinuationAns) ∈ h

theorem answered_plain {request : Paging.Request} {y : Py α} {e : PyError} {h : History} (hh : P h)
    (hy : Raises Plain y) (he : y = .error e) : Answered P request (.error e) h :=
  ⟨hh, fun _ heq => hy e he (Except.error.inj heq), fun _ hresult => by cases hresult⟩

theorem tracks_call_read (hP : Stays IsRead P) (request : Paging.Request) (timeout : ℚ) :
    Tracks (Permitted rt) P (Act.call (ContinuationOp.read request timeout) : ContinuationAct Value)
      (Answered P request) := by
  refine tracks_call (fun h _ => permitted_read trivial) fun h r hh => ?_
  have hlast : (⟨.read request timeout, r⟩ : Event ContinuationAns) ∈
      h ++ [⟨.read request timeout, r⟩] :=
    List.mem_append_right _ (List.mem_singleton_self _)
  refine ⟨hP h ⟨.read request timeout, r⟩ hh trivial, fun hsane => hsane _ hlast,
    fun result hresult => ?_⟩
  exact ⟨timeout, hresult ▸ hlast⟩

theorem tracks_api (hP : Stays IsRead P) (request : Paging.Request) :
    Tracks (Permitted rt) P (api request) (Answered P request) := by
  refine tracks_read_bind fun budget => ?_
  cases budget with
  | none => exact tracks_call_read hP request 30
  | some budget =>
    refine tracks_lift_bind (fun _ _ => ?_) fun e h he hh => answered_plain hh require_plain he
    have hclock : Tracks (Permitted rt) P (Act.call ContinuationOp.monotonic : ContinuationAct ℚ)
        fun r h => P h ∧ (Sane h → r ≠ .error .confirmedIntentConflict) := by
      refine tracks_call (fun h _ => permitted_read trivial) fun h r hh => ?_
      exact ⟨hP h ⟨.monotonic, r⟩ hh trivial, fun hsane =>
        hsane _ (List.mem_append_right _ (List.mem_singleton_self _))⟩
    refine Tracks.bind hclock (fun now => ?_) fun e h hh =>
      ⟨hh.1, fun hsane heq => ?_, fun _ he => by cases he⟩
    · refine tracks_lift_bind (fun _ _ => ?_) fun e h he hh => answered_plain hh.1 require_plain he
      refine tracks_update_bind ?_
      exact (tracks_call_read hP request _).weaken (fun h hh => hh.1) fun _ _ hQ => hQ
    · exact hh.2 hsane (congrArg _ (Except.error.inj heq))

theorem tracks_readJournal (hP : Stays IsRead P) (journal : Journal) (path : PyStr) :
    Tracks (Permitted rt) P (readJournal rt journal path) (ReadAt rt P journal path) := by
  refine tracks_lift_bind (fun request hrequest => ?_) fun e h he hh => ?_
  · refine (tracks_api hP request).bind (fun result => tracks_ofExcept ?_) fun e h hh => ?_
    · rintro h ⟨hh, -, hanswered⟩
      refine ⟨hh, fun _ => not_conflict (recordOf_plain rt journal result), fun record hrecord => ?_⟩
      obtain ⟨timeout, hmem⟩ := hanswered result rfl
      exact ⟨_, hmem, .intro hrequest hrecord⟩
    · refine ⟨hh.1, hh.2.1, fun record hrecord => ?_⟩
      cases hrecord
  · refine ⟨hh, fun _ => ?_, fun record hrecord => ?_⟩
    · exact fun heq => readRequest_plain journal path e he (Except.error.inj heq)
    · cases hrecord

theorem tracks_pure {a : α} {Q : Py α → History → Prop} (hQ : ∀ h, P h → Q (.ok a) h) :
    Tracks (Permitted rt) P (pure a : ContinuationAct α) Q := tracks_ofExcept hQ

/-- Where the check says so, a record of the operation was seen. -/
theorem tracks_isRecorded (hP : Stays IsRead P) (journal : Journal) (key : PyStr) :
    Tracks (Permitted rt) P (isRecorded rt journal key) fun r h =>
      P h ∧ (r = .ok true → Recorded rt h key) := by
  refine tracks_lift_bind (fun operations hoperations => ?_) fun e h _ hh =>
    ⟨hh, fun he => by cases he⟩
  refine (tracks_readJournal hP journal operations).bind (fun operation => ?_) fun e h hread =>
    ⟨hread.known, fun he => by cases he⟩
  by_cases hnone : operation.isNone = true
  · rw [if_pos hnone]
    refine Tracks.weaken ?_ (fun h hread => hread.known) fun _ _ hQ => hQ
    refine tracks_lift_bind (fun path hpath => ?_) fun e h _ hh => ⟨hh, fun he => by cases he⟩
    refine (tracks_readJournal hP journal path).bind (fun deferred => ?_) fun e h hread =>
      ⟨hread.known, fun he => by cases he⟩
    refine tracks_pure fun h hread => ⟨hread.known, fun htrue => ?_⟩
    rw [Except.ok.injEq, Bool.not_eq_true'] at htrue
    exact ⟨journal, true, path, deferred, hpath, hread.saw deferred rfl, htrue⟩
  · rw [if_neg hnone]
    refine tracks_pure fun h hread => ⟨hread.known, fun _ => ?_⟩
    exact ⟨journal, false, operations, operation, hoperations, hread.saw operation rfl,
      Bool.not_eq_true _ ▸ hnone⟩

/-- After an unknown delivery nothing is asked but reads, and the record is seen. -/
theorem tracks_confirm (hP : Stays IsRead P) (d : Deferral) :
    Tracks (Permitted rt) P (confirm rt d) fun r h => P h ∧ (r = .ok () → Recorded rt h d.key) := by
  refine (tracks_reads (reads_openJournal _ _) hP).bind (fun journal => ?_) fun e h hh =>
    ⟨hh, fun he => by cases he⟩
  refine tracks_lift_bind (fun path hpath => ?_) fun e h _ hh => ⟨hh, fun he => by cases he⟩
  refine (tracks_readJournal hP journal path).bind (fun deferred => ?_) fun e h hread =>
    ⟨hread.known, fun he => by cases he⟩
  refine tracks_lift_bind (fun _ hequal => ?_) fun e h _ hread => ⟨hread.known, fun he => by cases he⟩
  have hsome : deferred.isNone = false := isNone_of_pyEq_dict (raiseUnless_eq_ok.mp hequal)
  have hstays : Stays IsRead fun h => P h ∧ Recorded rt h d.key :=
    fun h e hh he => ⟨hP h e hh.1 he, hh.2.append⟩
  refine Tracks.weaken (tracks_reads ?_ hstays) (fun h hread => ⟨hread.known, ?_⟩) fun r h hQ =>
    ⟨hQ.1, fun _ => hQ.2⟩
  · exact reads_lift_bind fun operations => (reads_readJournal _ _ _).bind fun operation => reads_lift
  · exact ⟨journal, true, path, deferred, hpath, hread.saw deferred rfl, hsome⟩

/-! ## 5. One try -/

/-- What is known after a try that came after `n` refusals. -/
structure Tried (rt : Runtime) (n : Nat) (key : PyStr) (r : Py Unit) (h : History) : Prop where
  length : Sane h → (commits h).length ≤ n + 1
  refused : r = .error .confirmedIntentConflict → Sane h → ∀ e ∈ commits h, Refused rt e
  recorded : r = .ok () → Recorded rt h key

theorem Tried.early {n : Nat} {key : PyStr} {e : PyError} {h : History}
    (hh : Given (Refusals rt n) h) :
    Tried rt n key (.error e) h where
  length hsane := (hh hsane).1.trans (Nat.le_succ n)
  refused _ hsane := (hh hsane).2
  recorded he := by cases he

theorem Tried.late {n : Nat} {key : PyStr} {e : PyError} {h : History}
    (hh : Given (fun h => (commits h).length ≤ n + 1) h)
    (hplain : Sane h → (Except.error e : Py Unit) ≠ .error .confirmedIntentConflict) :
    Tried rt n key (.error e) h where
  length := hh
  refused he hsane := absurd he (hplain hsane)
  recorded he := by cases he

theorem Tried.raised {n : Nat} {key : PyStr} {y : Py α} {e : PyError} {h : History}
    (hh : Given (fun h => (commits h).length ≤ n + 1) h) (hy : Raises Plain y) (he : y = .error e) :
    Tried rt n key (.error e) h :=
  .late hh fun _ heq => hy e he (Except.error.inj heq)

/-- The commit: what came back is a refusal if the conflict is raised. -/
theorem tracks_commitResponse {n : Nat} (hn : n ≤ 2) {journal : Journal} {key path : PyStr}
    {entries : List (PyStr × Value)} {raw : Bytes} (hpath : recordPath key true = .ok path)
    (hraw : recordBytes rt (.dict entries) = .ok raw) :
    Tracks (Permitted rt) (fun h => Given (Refusals rt n) h ∧ Saw rt h journal path .none)
      (commitResponse rt (commitPayload journal path raw))
      fun r h => Sane h → (commits h).length ≤ n + 1 ∧
        (r = .error .confirmedIntentConflict → ∀ e ∈ commits h, Refused rt e) := by
  have hpost : Tracks (Permitted rt) (fun h => Given (Refusals rt n) h ∧ Saw rt h journal path .none)
      (post (commitPayload journal path raw)) fun r h => Given (Refusals rt n) h ∨
        ∃ h₀, h = h₀ ++ [⟨.commit (commitPayload journal path raw), r⟩] ∧
          Given (Refusals rt n) h₀ := by
    refine tracks_read_bind fun budget => ?_
    cases budget with
    | none =>
      refine tracks_call (fun h hh hsane => ?_) fun h r hh => Or.inr ⟨h, rfl, hh.1⟩
      obtain ⟨hlength, hall⟩ := hh.1 hsane
      exact ⟨⟨hlength.trans hn, hall⟩, .intro hpath hraw hh.2⟩
    | some budget =>
      exact tracks_ofExcept fun h hh => Or.inl hh.1
  refine hpost.attempt_bind fun answer => tracks_ofExcept ?_
  rintro h (hh | ⟨h₀, rfl, hh⟩) hsane
  · obtain ⟨hlength, hall⟩ := hh hsane
    exact ⟨hlength.trans (Nat.le_succ n), fun _ => hall⟩
  · obtain ⟨hlength, hall⟩ := hh hsane.left
    rw [commits_commit]
    refine ⟨?_, fun hconflict e he => ?_⟩
    · rw [List.length_append]
      exact Nat.succ_le_succ hlength
    · rcases List.mem_append.mp he with he | he
      · exact hall e he
      · obtain ⟨failed, result, prior, hreceived, hprior, hstale⟩ := judge_conflict rt hconflict
        cases hprior
        rw [List.mem_singleton.mp he]
        exact .intro rfl hreceived hstale

/-- What follows a commit that seems to have been made. -/
theorem tracks_readback {n : Nat} {journal : Journal} {key path : PyStr}
    {entries : List (PyStr × Value)} {result : Value} (hpath : recordPath key true = .ok path) :
    Tracks (Permitted rt) (Given fun h => (commits h).length ≤ n + 1) (do
      require ((result.isDict && (result.find? "errors").isNone) = true) "uncertain CAS"
      let oid ← committedOid journal result
      let readback ← readJournal rt { journal with oid := oid } path
      require (readback.pyEq (.dict entries) = true) "CAS readback" : ContinuationAct Unit)
      (Tried rt n key) := by
  refine tracks_lift_bind (fun _ _ => ?_) fun e h he hh => .raised hh require_plain he
  refine tracks_lift_bind (fun oid _ => ?_) fun e h he hh => .raised hh (committedOid_plain _ _) he
  refine (tracks_readJournal (stays_given stays_length) _ path).bind (fun readback => ?_)
    fun e h hread => .late hread.known fun hsane heq =>
      hread.plain hsane (congrArg _ (Except.error.inj heq))
  refine tracks_ofExcept fun h hread => ?_
  cases hequal : require (readback.pyEq (.dict entries) = true) "CAS readback" with
  | error e => exact .raised hread.known require_plain hequal
  | ok u =>
    refine ⟨hread.known, fun he => (by cases he), fun _ => ?_⟩
    exact ⟨_, true, path, readback, hpath, hread.saw readback rfl,
      isNone_of_pyEq_dict (raiseUnless_eq_ok.mp hequal)⟩

theorem tracks_create {n : Nat} (hn : n ≤ 2) {journal : Journal} {key path : PyStr}
    {entries : List (PyStr × Value)} (hpath : recordPath key true = .ok path) :
    Tracks (Permitted rt) (Given (Refusals rt n)) (create rt journal path (.dict entries))
      (Tried rt n key) := by
  refine (tracks_readJournal (stays_given stays_refusals) journal path).bind (fun present => ?_)
    fun e h hread => .early hread.known
  refine tracks_lift_bind (fun _ habsent => ?_) fun e h _ hread => .early hread.known
  refine tracks_lift_bind (fun raw hraw => ?_) fun e h _ hread => .early hread.known
  have hnone : present = .none := eq_none_of_isNone (raiseUnless_eq_ok.mp habsent)
  refine Tracks.bind ((tracks_commitResponse hn hpath hraw).weaken (fun h hread => ?_)
    fun _ _ hQ => hQ) (fun result => ?_) fun e h hQ =>
      ⟨fun hsane => (hQ hsane).1, fun he hsane => (hQ hsane).2 ?_, ?_⟩
  · exact ⟨hread.known, hread.saw .none (congrArg _ hnone)⟩
  · refine Tracks.weaken (tracks_readback hpath) (fun h hQ hsane => (hQ hsane).1) fun _ _ hQ => hQ
  · exact congrArg _ (Except.error.inj he)
  · exact fun he => by cases he

theorem tracks_tryDefer {n : Nat} (hn : n ≤ 2) (d : Deferral) (journal : Journal) :
    Tracks (Permitted rt) (Given (Refusals rt n)) (tryDefer rt d journal) (Tried rt n d.key) := by
  refine (tracks_reads (reads_checkLive _ _ _ _) (stays_given stays_refusals)).bind (fun _ => ?_)
    fun e h hh => .early hh
  exact tracks_lift_bind (fun path hpath => tracks_create hn hpath) fun e h _ hh => .early hh

/-! ## 6. The loop -/

/-- What is known when an execution ends: if it ends normally, that a record was seen. -/
def Ended (rt : Runtime) (key : PyStr) (r : Py Unit) (h : History) : Prop :=
  r = .ok () → Recorded rt h key

theorem ended_error {key : PyStr} {e : PyError} {h : History} : Ended rt key (.error e) h :=
  fun he => by cases he

/-- The induction is on the tries that are left: each was refused before the next one. -/
theorem tracks_tries (d : Deferral) {left n : Nat} (hsum : n + left = 3) (hleft : 0 < left)
    (journal : Journal) :
    Tracks (Permitted rt) (Given (Refusals rt n)) (tries rt d left journal) (Ended rt d.key) := by
  induction left generalizing n journal with
  | zero => exact absurd hleft (Nat.lt_irrefl 0)
  | succ left ih =>
    refine (tracks_tryDefer (by omega) d journal).attempt_bind fun r => ?_
    cases r with
    | ok u => exact tracks_pure fun h hh _ => hh.recorded rfl
    | error e =>
      dsimp only
      split
      · next hconflict =>
        have hstays : Stays IsRead (Given (Refusals rt (n + 1))) := stays_given stays_refusals
        refine Tracks.weaken (P := Given (Refusals rt (n + 1))) ?_ (fun h hh hsane =>
          ⟨hh.length hsane, hh.refused (congrArg _ hconflict) hsane⟩) fun _ _ hQ => hQ
        refine (tracks_reads (reads_openJournal _ _) hstays).bind (fun journal => ?_)
          fun e h _ => ended_error
        refine (tracks_isRecorded hstays journal d.key).bind (fun found => ?_) fun e h _ => ended_error
        cases found with
        | true => exact tracks_pure fun h hh _ => hh.2 rfl
        | false =>
          refine tracks_lift_bind (fun _ hbudget => ?_) fun e h _ _ => ended_error
          refine Tracks.weaken ?_ (fun h hh => hh.1) fun _ _ hQ => hQ
          refine (tracks_reads (reads_livePr _ _ _ _) hstays).bind (fun _ => ?_)
            fun e h _ => ended_error
          exact ih (by omega) (raiseUnless_eq_ok.mp hbudget) journal
      · split
        · refine (tracks_confirm stays_true d).weaken (fun _ _ => trivial) fun _ _ hQ => hQ.2
        · exact tracks_ofExcept fun h _ => ended_error

/-- **Every execution from the journal on**, whatever it is answered: it asks for what is permitted,
and where it returns, a record was seen. -/
theorem tracks_record (d : Deferral) :
    Tracks (Permitted rt) (Given (Refusals rt 0)) (record rt d) (Ended rt d.key) := by
  have hstays : Stays IsRead (Given (Refusals rt 0)) := stays_given stays_refusals
  refine (tracks_reads (reads_openJournal _ _) hstays).bind (fun journal => ?_)
    fun e h _ => ended_error
  refine (tracks_isRecorded hstays journal d.key).bind (fun found => ?_) fun e h _ => ended_error
  cases found with
  | true => exact tracks_pure fun h hh _ => hh.2 rfl
  | false =>
    refine Tracks.bind ((tracks_tries d rfl (by decide) journal).weaken (fun h hh => hh.1)
      fun _ _ hQ => hQ) (fun _ => ?_) fun e h _ => ended_error
    refine (tracks_reads (reads_checkLive _ _ _ _) (stays_recorded)).weaken (fun h hh => hh rfl)
      fun _ _ hQ _ => hQ

theorem tracks_defer (inputs : Inputs) :
    Tracks (Permitted rt) (Given (Refusals rt 0)) (defer rt inputs) fun _ _ => True :=
  (tracks_reads (reads_prepare inputs) (stays_given stays_refusals)).bind
    (fun d => (tracks_record d).weaken (fun _ hh => hh) fun _ _ _ => trivial) fun _ _ _ => trivial

end Supplementary.Continuation
