/-
# What a resume asks for

An execution of `resume`, whatever it is answered: it sends one commit at most, which claims the
operation on top of the commit that it has read the intent at (`Claims`), and it asks for the review
at most once, after the answer to that commit showed a commit.
-/
import Supplementary.Continuation.Resume
import Supplementary.Continuation.Writers

namespace Supplementary.Continuation

open Effects PyStr Native

/-! ## 1. Histories -/

variable (rt : Runtime)

/-- The commit claims the operation of the inputs: its record names the commit of the journal, where
the intent was read, and neither the operation nor the rerun of the owner. -/
inductive Claims (inputs : ResumeInputs) (h : History) : Value → Prop
  | intro {l : Locators} {journal : Journal} {deferred path rerun : PyStr} {intent : Value}
      {entries : List (PyStr × Value)} {raw : Bytes} (hl : locators inputs = .ok l)
      (hdeferred : recordPath l.key true = .ok deferred) (hpath : recordPath l.key false = .ok path)
      (hrerun : recordPath (rerunKey intent) false = .ok rerun)
      (hraw : recordBytes rt (.dict entries) = .ok raw)
      (hcommit : lookup entries "intent_commit" = some (.str journal.oid))
      (hdict : intent.isDict = true) (hintent : Saw rt h journal deferred intent)
      (hunclaimed : Saw rt h journal path .none) (hunspent : Saw rt h journal rerun .none) :
      Claims inputs h (commitPayload journal path raw)

/-- The answer to the commit showed a commit. -/
inductive Confirmed (inputs : ResumeInputs) (h : History) : Prop
  | intro {payload result : Value} (hclaims : Claims rt inputs h payload)
      (hmem : (⟨.commit payload, .ok result⟩ : Event ContinuationAns) ∈ h) (hshows : ShowsCommit result) :
      Confirmed inputs h

/-- What an execution may ask for. -/
def Allowed (inputs : ResumeInputs) (h : History) : ContinuationOp → Prop
  | .commit payload => commits h = [] ∧ sends h = [] ∧ Claims rt inputs h payload
  | .send _ _ => sends h = [] ∧ Confirmed rt inputs h
  | _ => True

/-- Nothing but reads so far. -/
def Untouched (h : History) : Prop := commits h = [] ∧ sends h = []

variable {rt : Runtime} {inputs : ResumeInputs} {P : History → Prop} {α β : Type}

theorem stays_untouched : Stays IsRead Untouched := by
  intro h e hh he
  unfold Untouched
  rwa [commits_read he, sends_read he]

theorem Claims.append {h h' : History} {payload : Value} (hclaims : Claims rt inputs h payload) :
    Claims rt inputs (h ++ h') payload := by
  cases hclaims with
  | intro hl hdeferred hpath hrerun hraw hcommit hdict hintent hunclaimed hunspent =>
    exact .intro hl hdeferred hpath hrerun hraw hcommit hdict hintent.append hunclaimed.append
      hunspent.append

theorem Confirmed.append {h h' : History} (hconfirmed : Confirmed rt inputs h) :
    Confirmed rt inputs (h ++ h') := by
  cases hconfirmed with
  | intro hclaims hmem hshows => exact .intro hclaims.append (List.mem_append_left _ hmem) hshows

theorem allowed_read {h : History} {op : ContinuationOp} (hop : IsRead op) : Allowed rt inputs h op := by
  cases op with
  | commit _ => exact hop.elim
  | send _ _ => exact hop.elim
  | _ => trivial

/-! ## 2. The parts that only read -/

theorem reads_nativeJob (repo : PyStr) (run : Value) (name : PyStr) (names : List PyStr) :
    Only IsRead (nativeJob repo run name names) :=
  reads_lift_bind fun _ => (reads_pages _ _).bind fun _ => reads_lift

theorem reads_validateIntent (repo repoId key : PyStr) (intent : Value) :
    Only IsRead (validateIntent repo repoId key intent) := by
  refine reads_lift_bind fun _ => (reads_repository _ _ _ _).bind fun _ => ?_
  refine (reads_originalRun _ _ _).bind fun run => (reads_nativeJob _ _ _ _).bind fun job => ?_
  split
  · exact reads_lift_bind fun _ => only_pure
  · exact only_ofExcept

theorem reads_cleanOldReview (repo : PyStr) (pr reviewId : Int) (head after : Value) :
    Only IsRead (cleanOldReview repo pr reviewId head after) := by
  refine (reads_api _).bind fun review => reads_lift_bind fun _ => Only.bind (only_call trivial) fun _ => ?_
  refine reads_lift_bind fun _ => reads_lift_bind fun _ => (reads_pages _ _).bind fun comments => ?_
  refine reads_lift_bind fun _ => reads_lift_bind fun _ => (reads_pages _ _).bind fun reviews => ?_
  exact reads_lift_bind fun _ => only_pure

theorem reads_checkUnrequested (repo : PyStr) (intent : Value) :
    Only IsRead (checkUnrequested repo intent) := by
  refine (reads_pages _ _).bind fun reviews => reads_lift_bind fun _ => reads_lift_bind fun _ => ?_
  refine (reads_api _).bind fun pending => reads_lift_bind fun users => ?_
  split
  · refine reads_lift_bind fun _ => reads_lift_bind fun _ => (reads_pages _ _).bind fun comments => ?_
    exact reads_lift_bind fun _ => reads_lift
  · exact only_ofExcept

theorem reads_authorize (inputs : ResumeInputs) (l : Locators) (intent owner : Value) :
    Only IsRead (authorize inputs l intent owner) := by
  refine reads_lift_bind fun _ => reads_lift_bind fun _ => (reads_checkController _ _ _ _ _).bind fun _ => ?_
  refine Only.bind (only_call trivial) fun now => reads_lift_bind fun _ => reads_lift_bind fun _ => ?_
  refine (reads_cleanOldReview _ _ _ _ _).bind fun old => reads_lift_bind fun runId => ?_
  refine Only.bind ?_ fun _ => only_pure
  exact (reads_api _).bind fun run => reads_lift_bind fun _ => reads_lift

theorem reads_checkResumed (l : Locators) (intent : Value) (refs controller : String) :
    Only IsRead (checkResumed l intent refs controller) := by
  refine (reads_livePr _ _ _ _).bind fun current => reads_lift_bind fun _ => ?_
  exact reads_checkController _ _ _ _ _

/-! ## 3. The commit -/

theorem keeps_of_tracks {x : ContinuationAct α} {Q : Py α → History → Prop}
    (hx : Tracks (Permitted rt) P x Q) (hreads : Only IsRead x) :
    Keeps (Allowed rt inputs) P x fun a => Q (.ok a) where
  asks _ s tr op _ hasks := allowed_read (hreads s tr op hasks)
  ends h s tr a s' hh hends := (hx h s hh).2 tr (.ok a) s' hends

theorem keeps_reads {x : ContinuationAct α} (hx : Only IsRead x) (hP : Stays IsRead P) :
    Keeps (Allowed rt inputs) P x fun _ => P := keeps_of_tracks (tracks_reads hx hP) hx

theorem keeps_readJournal (hP : Stays IsRead P) (journal : Journal) (path : PyStr) :
    Keeps (Allowed rt inputs) P (readJournal rt journal path) fun record h =>
      P h ∧ Saw rt h journal path record :=
  (keeps_of_tracks (tracks_readJournal hP journal path) (reads_readJournal rt journal path)).post
    fun record _ hread => ⟨hread.known, hread.saw record rfl⟩

/-- What `commit_response` returns is what came back. -/
theorem judge_eq_ok {payload result : Value} {answer : Py Value}
    (h : judge rt payload answer = .ok result) : answer = .ok result := by
  obtain ⟨⟨failed, value⟩, hreceived, h⟩ := bind_eq_ok.mp h
  obtain ⟨prior, -, h⟩ := bind_eq_ok.mp h
  split at h
  · cases h
  · split at h
    · cases h
    · next hnot =>
      cases h
      have hfailed : failed = false := by
        cases failed with
        | false => rfl
        | true => exact absurd rfl hnot
      unfold received at hreceived
      split at hreceived
      · cases hreceived
        rfl
      · split at hreceived
        · cases hreceived
          cases hfailed
        · split at hreceived <;> cases hreceived
      · split at hreceived <;> cases hreceived

/-- What is known after the commit was answered. -/
def Sent (rt : Runtime) (inputs : ResumeInputs) (payload result : Value) (h : History) : Prop :=
  sends h = [] ∧ Claims rt inputs h payload ∧
    (⟨.commit payload, .ok result⟩ : Event ContinuationAns) ∈ h

theorem keeps_commitResponse (payload : Value) :
    Keeps (Allowed rt inputs) (fun h => Untouched h ∧ Claims rt inputs h payload)
      (commitResponse rt payload) fun result => Sent rt inputs payload result := by
  have hpost : Tracks (Allowed rt inputs) (fun h => Untouched h ∧ Claims rt inputs h payload)
      (post payload) fun r h => ∀ result, r = .ok result → Sent rt inputs payload result h := by
    refine tracks_read_bind fun budget => ?_
    cases budget with
    | none =>
      refine tracks_call (fun h hh => ⟨hh.1.1, hh.1.2, hh.2⟩) fun h r hh result hresult => ?_
      refine ⟨sends_commit.trans hh.1.2, hh.2.append, ?_⟩
      exact hresult ▸ List.mem_append_right h (List.mem_singleton_self _)
    | some budget => exact tracks_ofExcept fun h _ result hresult => by cases hresult
  have hjudge : Tracks (Allowed rt inputs) (fun h => Untouched h ∧ Claims rt inputs h payload)
      (commitResponse rt payload) fun r h => ∀ result, r = .ok result →
        Sent rt inputs payload result h :=
    hpost.attempt_bind fun answer => tracks_ofExcept fun h hh result hresult =>
      hh result (judge_eq_ok hresult)
  exact ⟨fun h s tr op hh => (hjudge h s hh).1 tr op,
    fun h s tr result s' hh hends => (hjudge h s hh).2 tr _ s' hends result rfl⟩

theorem showsCommit_of_committedOid {journal : Journal} {result : Value} {oid : PyStr}
    (h : committedOid journal result = .ok oid) : ShowsCommit result := by
  obtain ⟨commit, hcommit, h⟩ := bind_eq_ok.mp h
  obtain ⟨value, hvalue, h⟩ := bind_eq_ok.mp h
  cases value with
  | str oid => exact ⟨commit, oid, hcommit, hvalue⟩
  | _ => cases h

/-- What is known once the claim was confirmed. -/
def Ready (rt : Runtime) (inputs : ResumeInputs) (h : History) : Prop :=
  sends h = [] ∧ Confirmed rt inputs h

theorem stays_ready : Stays IsRead (Ready rt inputs) := by
  intro h e hh he
  exact ⟨(sends_read he).trans hh.1, hh.2.append⟩

/-- The record would claim the operation. -/
def Prepared (rt : Runtime) (inputs : ResumeInputs) (journal : Journal) (path : PyStr) (record : Value)
    (h : History) : Prop :=
  Untouched h ∧ ∀ raw, recordBytes rt record = .ok raw →
    Claims rt inputs h (commitPayload journal path raw)

theorem stays_prepared {journal : Journal} {path : PyStr} {record : Value} :
    Stays IsRead (Prepared rt inputs journal path record) :=
  fun h e hh he => ⟨stays_untouched h e hh.1 he, fun raw hraw => (hh.2 raw hraw).append⟩

theorem keeps_create (journal : Journal) (path : PyStr) (record : Value) :
    Keeps (Allowed rt inputs) (Prepared rt inputs journal path record)
      (create rt journal path record) fun _ => Ready rt inputs := by
  refine (keeps_reads (reads_readJournal rt journal path) stays_prepared).bind fun present => ?_
  refine keeps_lift_bind fun _ _ => keeps_lift_bind fun raw hraw => ?_
  refine ((keeps_commitResponse _).pre fun h hh => ⟨hh.1, hh.2 raw hraw⟩).bind fun result => ?_
  refine keeps_lift_bind fun _ _ => keeps_lift_bind fun oid hoid => ?_
  refine Keeps.bind (Q := fun _ => Ready rt inputs) (Keeps.pre (keeps_reads
    (reads_readJournal rt _ path) stays_ready) fun h hh => ⟨hh.1, ?_⟩) fun _ => keeps_lift fun _ _ _ hh => hh
  exact .intro hh.2.1 hh.2.2 (showsCommit_of_committedOid hoid)

/-! ## 4. The whole execution -/

theorem eq_str_of_pyEq {value : Value} {key : PyStr} (h : value.pyEq (.str key) = true) :
    value = .str key := by
  cases value with
  | str s => exact congrArg Value.str (of_decide_eq_true h)
  | bool b =>
    unfold Value.pyEq at h
    cases of_decide_eq_true h
  | int n =>
    unfold Value.pyEq at h
    cases of_decide_eq_true h
  | float x =>
    unfold Value.pyEq at h
    obtain ⟨hsome, hsame⟩ := Bool.and_eq_true_iff.mp h
    rw [← of_decide_eq_true hsame] at hsome
    cases hsome
  | _ => cases h

/-- The intent is a dict of the operation. -/
def IsIntent (key : PyStr) (intent : Value) : Prop :=
  intent.isDict = true ∧ pyText (intent.get "operation") = key

theorem isIntent_of_checkIntent {repo repoId key : PyStr} {intent : Value} {u : Unit}
    (h : checkIntent repo repoId key intent = .ok u) : IsIntent key intent := by
  obtain ⟨_, hall, -⟩ := bind_eq_ok.mp h
  obtain ⟨hkeys, hall⟩ := allOf_cons (requireAll_eq_ok hall)
  have hoperation := (allOf_cons (allOf_cons (allOf_cons (allOf_cons (allOf_cons hall).2).2).2).2).1
  rw [Except.ok.injEq, Bool.and_eq_true] at hkeys
  obtain ⟨value, hvalue, heq⟩ := bind_eq_ok.mp hoperation
  obtain ⟨item, hitem, hvalue⟩ := bind_eq_ok.mp hvalue
  cases hvalue
  refine ⟨hkeys.1, ?_⟩
  rw [get_of_item hitem, eq_str_of_pyEq (Except.ok.inj heq)]
  rfl

theorem keeps_validateIntent (hP : Stays IsRead P) (repo repoId key : PyStr) (intent : Value) :
    Keeps (Allowed rt inputs) P (validateIntent repo repoId key intent) fun _ h =>
      P h ∧ IsIntent key intent := by
  refine keeps_lift_bind fun u hintent => ?_
  have hkey := isIntent_of_checkIntent hintent
  have hreads := reads_validateIntent repo repoId key intent
  unfold validateIntent at hreads
  rw [hintent] at hreads
  exact (keeps_reads hreads hP).post fun _ _ hh => ⟨hh, hkey⟩

theorem keeps_unconsumed (hP : Stays IsRead P) {repo key : PyStr} {intent : Value} {journal : Journal}
    (hkey : IsIntent key intent) :
    Keeps (Allowed rt inputs) P (unconsumed rt repo intent journal) fun _ h =>
      P h ∧ (∃ path, recordPath key false = .ok path ∧ Saw rt h journal path .none) ∧
        ∃ path, recordPath (rerunKey intent) false = .ok path ∧ Saw rt h journal path .none := by
  refine (keeps_reads (reads_livePr _ _ _ _) hP).bind fun pr => keeps_lift_bind fun _ _ => ?_
  refine (keeps_reads (reads_api _) hP).bind fun current => keeps_lift_bind fun _ _ => ?_
  refine keeps_lift_bind fun rerunPath hrerun => (keeps_readJournal hP journal _).bind fun rerun => ?_
  refine keeps_lift_bind fun _ hunspent => keeps_lift_bind fun path hpath => ?_
  cases eq_none_of_isNone (raiseUnless_eq_ok.mp hunspent)
  rw [hkey.2] at hpath
  have hsaw : Stays IsRead fun h => P h ∧ Saw rt h journal rerunPath .none :=
    fun h e hh he => ⟨hP h e hh.1 he, hh.2.append⟩
  refine (keeps_readJournal hsaw journal path).bind fun operation => ?_
  refine keeps_lift_bind fun _ hunclaimed => ?_
  cases eq_none_of_isNone (raiseUnless_eq_ok.mp hunclaimed)
  have hboth : Stays IsRead fun h => (P h ∧ Saw rt h journal rerunPath .none) ∧
      Saw rt h journal path .none := fun h e hh he => ⟨hsaw h e hh.1 he, hh.2.append⟩
  exact (keeps_reads (reads_checkUnrequested repo intent) hboth).post fun _ h hh =>
    ⟨hh.1.1, ⟨path, hpath, hh.2⟩, rerunPath, hrerun, hh.1.2⟩

/-- **Every execution asks for what is allowed**, whatever it is answered. -/
theorem keeps_resume (inputs : ResumeInputs) :
    Keeps (Allowed rt inputs) Untouched (resume rt inputs) fun _ _ => True := by
  refine keeps_lift_bind fun l hl => ?_
  refine (keeps_reads (reads_openJournal _ _) stays_untouched).bind fun journal => ?_
  refine keeps_lift_bind fun deferred hdeferred => ?_
  refine (keeps_readJournal stays_untouched journal deferred).bind fun intent => ?_
  have hread : Stays IsRead fun h => Untouched h ∧ Saw rt h journal deferred intent :=
    fun h e hh he => ⟨stays_untouched h e hh.1 he, hh.2.append⟩
  refine (keeps_validateIntent hread _ _ _ intent).bind fun owner => ?_
  refine keeps_of_prop (fun _ hh => hh.2) fun hkey => Keeps.pre ?_ fun _ hh => hh.1
  refine (keeps_reads (reads_authorize inputs l intent owner) hread).bind fun found => ?_
  obtain ⟨runId, old⟩ := found
  refine (keeps_unconsumed hread hkey).bind fun _ => ?_
  refine Keeps.bind (Q := fun _ h => (Untouched h ∧ Saw rt h journal deferred intent) ∧
    (∃ path, recordPath l.key false = .ok path ∧ Saw rt h journal path .none) ∧
      ∃ path, recordPath (rerunKey intent) false = .ok path ∧ Saw rt h journal path .none)
    (keeps_reads (reads_checkResumed _ _ _ _) ?_) fun _ => ?_
  · rintro h e ⟨hh, ⟨path, hpath, hunclaimed⟩, rerun, hrerun, hunspent⟩ he
    exact ⟨hread h e hh he, ⟨path, hpath, hunclaimed.append⟩, rerun, hrerun, hunspent.append⟩
  refine keeps_lift_bind fun path hpath => ?_
  refine Keeps.bind ((keeps_create journal path _).pre ?_) fun _ => ?_
  · rintro h ⟨⟨huntouched, hintent⟩, ⟨path', hpath', hunclaimed⟩, rerun, hrerun, hunspent⟩
    cases hpath.symm.trans hpath'
    exact ⟨huntouched, fun raw hraw =>
      .intro hl hdeferred hpath hrerun hraw rfl hkey.1 hintent hunclaimed hunspent⟩
  refine (keeps_reads (reads_checkResumed _ _ _ _) stays_ready).bind fun _ => ?_
  refine Keeps.bind (Q := fun _ _ => True) ?_ fun _ => keeps_pure fun _ _ => trivial
  have hsend : ∀ route payload, Tracks (Allowed rt inputs) (Ready rt inputs) (send route payload)
      fun _ _ => True := by
    intro route payload
    refine tracks_read_bind fun budget => ?_
    cases budget with
    | none => exact tracks_call (fun h hh => hh) fun _ _ _ => trivial
    | some budget => exact tracks_ofExcept fun _ _ => trivial
  exact ⟨fun h s tr op hh => (hsend _ _ h s hh).1 tr op, fun _ _ _ _ _ _ _ => trivial⟩

end Supplementary.Continuation
