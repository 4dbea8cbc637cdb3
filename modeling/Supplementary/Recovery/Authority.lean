/-
# What a rerun is asked for on

`recover` asks for a rerun at the end of a long list of checks, some of them before the claim of the attempt and
some after it.  `Granted` lists them as parts of the execution that have returned, and `granted_of_asks`
says that whatever an execution is answered, it has been through all of them when it asks.

`rerun_authorized`: so in every run of jobs on one journal, whoever asks for the rerun of an attempt has
read a journal in which its claim was there and the recovery was not closed, the claim is a valid one
for the seed, the cooldown is over, and a reading of the clock leaves the reserve before the deadline.
-/
import Supplementary.Recovery.Jobs

namespace Supplementary.Recovery

open Effects PyStr Native Continuation

variable {rt : Runtime}

/-! ## 1. The checks -/

/-- The checks before the rerun for the attempt `number`, in the order they were made. -/
inductive Granted (rt : Runtime) (policy : PyStr) (b : Bound) (number : Int) (h : History) : Prop
  | intro {run cause elected : Value} {entries : List (PyStr × Value)}
      {deadline completed cooldown : Int} (hdeadline : b.deadline = .ok deadline)
      (hrun : Ran h (fetch ("repos/" ++ b.repo ++ "/actions/runs/" ++ ofInt b.runId)) run)
      (hattempt : nativeAttempt run = .ok (number - 1))
      (hclaims : Ran h (b.validateClaims rt (number - 1 - 2).toNat 3) ())
      (hcause : Ran h (b.cause rt run) cause)
      (hcompleted : itemEpoch cause "completed_at" = .ok completed)
      (hcooldown : cooldownSeconds number = .ok cooldown)
      (hcooled : ((completed + cooldown : Int) : ℚ) ≤ b.now.timestamp)
      (helected : Ran h (electedClaimant b.repo b.seed cause number) elected)
      (hown : elected.pyEq (.int b.claimant) = true)
      (hentries : b.claimRecord number cause = .ok entries)
      (hvalid : validateClaim (.dict entries) b.seed number = .ok ())
      (hcreate : Ran h (create rt b.journal (b.attemptPath number) (.dict entries)) ())
      (hrecheck : Ran h
        (b.recheck rt policy (b.attemptPath number) deadline number (.dict entries) cause) ()) :
      Granted rt policy b number h

/-- A post is asked for where the rerun is granted. -/
def Granting (rt : Runtime) (policy : PyStr) (b : Bound) (h : History) : ContinuationOp → Prop
  | .send _ _ => ∃ number, Granted rt policy b number h
  | _ => True

section

variable {policy : PyStr} {b : Bound} {α β : Type} {P : History → Prop} {x : ContinuationAct α}
  {f : α → ContinuationAct β}

theorem Granted.append {number : Int} {h h' : History} (hgranted : Granted rt policy b number h) :
    Granted rt policy b number (h ++ h') := by
  cases hgranted with
  | intro hdeadline hrun hattempt hclaims hcause hcompleted hcooldown hcooled helected hown hentries hvalid
      hcreate hrecheck =>
    exact .intro hdeadline (lasts_ran _ _ hrun) hattempt (lasts_ran _ _ hclaims) (lasts_ran _ _ hcause)
      hcompleted hcooldown hcooled (lasts_ran _ _ helected) hown hentries hvalid (lasts_ran _ _ hcreate)
      (lasts_ran _ _ hrecheck)

theorem granting_of_quiet {h : History} {op : ContinuationOp} (hop : IsQuiet op) :
    Granting rt policy b h op := by
  cases op with
  | send _ _ => exact hop.elim
  | _ => trivial

theorem granting_quiet (hx : Only IsQuiet x) (hP : Lasts P) : Within (Granting rt policy b) P x :=
  Within.of_only hx hP fun _ _ _ hop => granting_of_quiet hop

theorem granting_read (hx : Only IsRead x) (hP : Lasts P) : Within (Granting rt policy b) P x :=
  Within.of_only hx hP fun _ _ _ hop => granting_of_quiet (quiet_of_read hop)

theorem granting_then (hx : Only IsRead x) (hP : Lasts P)
    (hf : ∀ a, Within (Granting rt policy b) P (f a)) : Within (Granting rt policy b) P (x >>= f) :=
  (granting_read hx hP).bind hP hf

end

/-! ## 2. Commits are no posts -/

theorem quiet_of_reads {α : Type} {x : ContinuationAct α} (hx : Only IsRead x) : Only IsQuiet x :=
  fun s tr op hasks => quiet_of_read (hx s tr op hasks)

theorem quiet_create (journal : Journal) (path : PyStr) (record : Value) :
    Only IsQuiet (create rt journal path record) := by
  have hreads : ∀ j p, Only IsQuiet (readJournal rt j p) := fun j p => quiet_of_reads (reads_readJournal rt j p)
  refine (hreads _ _).bind fun present => only_lift_bind fun _ => only_lift_bind fun raw => ?_
  refine Only.bind ((only_attempt ?_).bind fun answer => only_ofExcept) fun result => ?_
  · intro s tr op hasks
    cases s with
    | none =>
      rcases asks_call.mp hasks with ⟨-, rfl⟩
      trivial
    | some budget => exact absurd hasks not_asks_ofExcept
  · refine only_lift_bind fun _ => only_lift_bind fun oid => (hreads _ _).bind fun readback => ?_
    exact only_ofExcept

theorem quiet_terminal (journal : Journal) (path : PyStr) (seed : Value) (reason : PyStr) (now : Now)
    (attempt : Value) : Only IsQuiet (terminal rt journal path seed reason now attempt) := by
  refine only_lift_bind fun entries => (quiet_create _ _ _).catching fun e => ?_
  split
  · exact (quiet_of_reads (reads_readbackOnly _ _ _)).bind fun _ => only_ofExcept
  · exact only_ofExcept

theorem quiet_close (b : Bound) (reason : PyStr) (attempt : Value) :
    Only IsQuiet (b.close rt reason attempt) :=
  (quiet_terminal _ _ _ _ _ _).bind fun _ => only_pure

theorem quiet_observe (b : Bound) (deadline attempt : Int) (observed : Value) :
    Only IsQuiet (b.observe rt deadline attempt observed) := by
  refine (quiet_of_reads (reads_observedCause b observed)).bind fun cause => ?_
  split
  · exact only_pure
  · refine only_lift_bind fun completed => only_lift_bind fun cooldown => ?_
    split
    · refine (quiet_of_reads (reads_originalConsumption _ _ _)).bind fun consumed => ?_
      split
      · exact (quiet_close _ _ _).bind fun _ => only_pure
      · exact only_pure
    · split
      · refine (quiet_of_reads (reads_electedClaimant _ _ _ _)).bind fun elected => ?_
        split
        · exact only_pure
        · exact (quiet_of_reads (reads_readbackOnly _ _ _)).bind fun _ => only_pure
      · exact only_pure

/-! ## 3. One recovery -/

section

variable {policy : PyStr} {b : Bound}

/-- What is known when an attempt is claimed. -/
structure Found (rt : Runtime) (b : Bound) (deadline attempt : Int) (run : Value) (h : History) : Prop where
  isDeadline : b.deadline = .ok deadline
  isRun : Ran h (fetch ("repos/" ++ b.repo ++ "/actions/runs/" ++ ofInt b.runId)) run
  isAttempt : nativeAttempt run = .ok attempt
  validated : Ran h (b.validateClaims rt (attempt - 2).toNat 3) ()

theorem lasts_found {deadline attempt : Int} {run : Value} : Lasts (Found rt b deadline attempt run) :=
  fun _ _ hh => ⟨hh.isDeadline, lasts_ran _ _ hh.isRun, hh.isAttempt, lasts_ran _ _ hh.validated⟩

/-- The rerun is posted after the claim was made and all was checked again. -/
theorem granting_claim {deadline attempt completed cooldown : Int} {run cause elected : Value}
    (hcompleted : itemEpoch cause "completed_at" = .ok completed)
    (hcooldown : cooldownSeconds (attempt + 1) = .ok cooldown)
    (hcooled : ((completed + cooldown : Int) : ℚ) ≤ b.now.timestamp)
    (hown : elected.pyEq (.int b.claimant) = true) :
    Within (Granting rt policy b) (fun h => (Found rt b deadline attempt run h ∧ Ran h (b.cause rt run) cause) ∧
      Ran h (electedClaimant b.repo b.seed cause (attempt + 1)) elected)
      (b.claim rt policy deadline (attempt + 1) cause) := by
  have hlasts : Lasts fun h => (Found rt b deadline attempt run h ∧ Ran h (b.cause rt run) cause) ∧
      Ran h (electedClaimant b.repo b.seed cause (attempt + 1)) elected :=
    (lasts_found.and lasts_ran).and lasts_ran
  refine within_lift_bind fun entries hentries => within_lift_bind fun u hvalid => ?_
  refine (granting_quiet (quiet_create _ _ _) hlasts).attempt_ran hlasts (fun created => ?_) fun e => ?_
  · have hmade := hlasts.and (lasts_ran (a := created)
      (x := create rt b.journal (b.attemptPath (attempt + 1)) (.dict entries)))
    refine (granting_read (reads_recheck b _ _ _ _ _ _) hmade).attempt_ran hmade (fun checked => ?_) fun e => ?_
    · refine Within.of_only (fun _ _ _ _ => trivial)
        (hmade.and lasts_ran) fun h op hh _ => ?_
      cases op with
      | send route payload =>
        rcases hh with ⟨⟨⟨⟨hfound, hcause⟩, helected⟩, hcreate⟩, hrecheck⟩
        have hsame : attempt + 1 - 1 = attempt := by omega
        exact ⟨attempt + 1, .intro hfound.isDeadline hfound.isRun (hsame.symm ▸ hfound.isAttempt)
          (hsame.symm ▸ hfound.validated) hcause hcompleted hcooldown hcooled helected hown hentries hvalid
          hcreate hrecheck⟩
      | _ => trivial
    · dsimp only
      split
      · exact granting_then (reads_readbackOnly _ _ _) hmade fun _ => within_pure
      · exact within_ofExcept
  · dsimp only
    split
    · exact granting_then (reads_readbackOnly _ _ _) hlasts fun _ => within_pure
    · exact within_ofExcept

theorem granting_retry (deadline attempt : Int) (run : Value) :
    Within (Granting rt policy b) (Found rt b deadline attempt run) (b.retry rt policy deadline attempt run) := by
  refine (granting_read (reads_cause b run) lasts_found).attempt_ran lasts_found (fun cause => ?_) fun e => ?_
  · have hcause : Lasts fun h => Found rt b deadline attempt run h ∧ Ran h (b.cause rt run) cause :=
      lasts_found.and lasts_ran
    refine within_lift_bind fun completed hcompleted => within_lift_bind fun cooldown hcooldown => ?_
    split
    · exact within_pure
    · next hcooled =>
      refine granting_then (reads_readJournal _ _ _) hcause fun claimed => ?_
      split
      · refine (granting_read (reads_electedClaimant _ _ _ _) hcause).ran hcause fun elected => ?_
        split
        · next hown => exact granting_claim hcompleted hcooldown (not_lt.mp hcooled) hown
        · exact granting_then (reads_readbackOnly _ _ _) (hcause.and lasts_ran) fun _ => within_pure
      · exact within_pure
  · dsimp only
    split
    · exact granting_quiet (quiet_close _ _ _) lasts_found
    · exact within_ofExcept

theorem granting_proceed {deadline : Int} (hdeadline : b.deadline = .ok deadline) :
    Within (Granting rt policy b) (fun _ => True) (b.proceed rt policy deadline) := by
  have htrue : Lasts fun _ : History => True := lasts_true
  refine (granting_read (reads_fetch _) htrue).ran htrue fun run => within_lift_bind fun attempt hattempt => ?_
  have hrun := htrue.and (lasts_ran (a := run)
    (x := fetch ("repos/" ++ b.repo ++ "/actions/runs/" ++ ofInt b.runId)))
  split
  · exact within_pure
  · refine (granting_read (reads_validateClaims b _ _) hrun).ran hrun fun checked => ?_
    refine Within.weaken (P := Found rt b deadline attempt run) ?_
      fun h hh => ⟨hdeadline, hh.1.2, hattempt, hh.2⟩
    refine within_lift_bind fun status _ => ?_
    split
    · exact within_pure
    · refine within_lift_bind fun conclusion _ => ?_
      split
      · exact granting_quiet (quiet_close _ _ _) lasts_found
      · split
        · exact granting_quiet (quiet_close _ _ _) lasts_found
        · exact granting_retry _ _ _

theorem granting_contract {deadline : Int} (hdeadline : b.deadline = .ok deadline) (observed : Value) :
    Within (Granting rt policy b) (fun _ => True) (b.contract rt policy deadline observed) := by
  have htrue : Lasts fun _ : History => True := lasts_true
  refine granting_then (reads_originalConsumption _ _ _) htrue fun consumed => ?_
  split
  · refine (granting_read (reads_checkContract b policy) htrue).attempt_bind htrue fun checked => ?_
    cases checked with
    | ok u => exact granting_proceed hdeadline
    | error e =>
      dsimp only
      split
      · exact granting_quiet (quiet_close _ _ _) htrue
      · exact within_ofExcept
  · exact within_pure

theorem granting_recoverBound :
    Within (Granting rt policy b) (fun _ => True) (recoverBound rt policy b) := by
  have htrue : Lasts fun _ : History => True := lasts_true
  refine within_lift_bind fun _ _ => within_lift_bind fun deadline hdeadline => ?_
  refine granting_then (reads_fetch _) htrue fun observed => within_lift_bind fun attempt _ => ?_
  split
  · next attempt =>
    split
    · refine granting_then (reads_readJournal _ _ _) htrue fun claimed => ?_
      split
      · refine within_lift_bind fun status _ => ?_
        dsimp only
        split
        · refine (granting_quiet (quiet_observe b _ _ _) htrue).bind htrue fun ended => ?_
          cases ended with
          | some result => exact within_pure
          | none => exact granting_contract hdeadline _
        · exact granting_contract hdeadline _
      · exact within_pure
    · exact granting_contract hdeadline _
  · exact within_ofExcept

end

/-- The run was sealed and not closed when the journal was opened, and the rerun for the attempt was granted
on that journal. -/
inductive Authorized (rt : Runtime) (x : Worker) (repo repoId : PyStr) (runId number : Int) (h : History) :
    Prop
  | intro {claimant : Int} {journal : Journal} {seed : Value} (hrepo : journal.repo = repo)
      (hseed : Saw rt h journal (seedPath runId) seed) (hsealed : validateSeed rt seed repo repoId runId = .ok ())
      (hgranted : Granted rt x.site.policy
        ⟨repo, repoId, runId, x.source, x.now, claimant, root runId, journal, seed⟩ number h) :
      Authorized rt x repo repoId runId number h

/-- A post is asked for where the rerun is authorized. -/
def Authorizing (rt : Runtime) (x : Worker) (repo repoId : PyStr) (runId : Int) (h : History) :
    ContinuationOp → Prop
  | .send _ _ => ∃ number, Authorized rt x repo repoId runId number h
  | _ => True

theorem Authorized.append {x : Worker} {repo repoId : PyStr} {runId number : Int} {h h' : History}
    (h₀ : Authorized rt x repo repoId runId number h) :
    Authorized rt x repo repoId runId number (h ++ h') := by
  rcases h₀ with ⟨hrepo, hseed, hsealed, hgranted⟩
  exact .intro hrepo hseed.append hsealed hgranted.append

theorem repo_of_openJournal {repo repoId : PyStr} {h : History} {journal : Journal}
    (hran : Ran h (openJournal repo repoId) journal) : journal.repo = repo := by
  rcases ran_bind hran with ⟨ref, -, hran⟩
  rcases ran_lift_bind hran with ⟨_, -, hran⟩
  rcases ran_lift_bind hran with ⟨value, -, hran⟩
  cases value with
  | str oid =>
    rcases ran_lift_bind hran with ⟨_, -, hran⟩
    cases ran_lift (y := .ok (⟨repo, repoId, oid⟩ : Journal)) hran
    rfl
  | _ => cases ran_lift (y := Except.error (PyError.valueError "journal commit")) hran

section

variable {α : Type} {x : Worker} {repo repoId : PyStr} {runId : Int} {P : History → Prop}
  {y : ContinuationAct α}

theorem authorizing_of_quiet {h : History} {op : ContinuationOp} (hop : IsQuiet op) :
    Authorizing rt x repo repoId runId h op := by
  cases op with
  | send _ _ => exact hop.elim
  | _ => trivial

theorem authorizing_quiet (hy : Only IsQuiet y) (hP : Lasts P) :
    Within (Authorizing rt x repo repoId runId) P y :=
  Within.of_only hy hP fun _ _ _ hop => authorizing_of_quiet hop

theorem authorizing_read (hy : Only IsRead y) (hP : Lasts P) :
    Within (Authorizing rt x repo repoId runId) P y := authorizing_quiet (quiet_of_reads hy) hP

end

theorem authorizing_recover (x : Worker) (repo repoId : PyStr) (runId : Int) :
    Within (Authorizing rt x repo repoId runId) (fun _ => True) (x.recover rt repo repoId runId) := by
  have htrue : Lasts fun _ : History => True := lasts_true
  refine (authorizing_read (reads_writer _ _ _ _ _) htrue).bind htrue fun claimant => ?_
  refine within_lift_bind fun path hpath => ?_
  obtain ⟨_, -, hroot⟩ := bind_eq_ok.mp hpath
  cases hroot
  refine (authorizing_read (reads_openJournal _ _) htrue).learn (K := fun journal _ => journal.repo = repo) htrue
    (fun _ _ _ _ _ hends => repo_of_openJournal (ran_of_ends (h := []) hends)) fun journal => ?_
  have hopened : Lasts fun _ : History => True ∧ journal.repo = repo := fun _ _ hh => hh
  refine (authorizing_read (reads_readJournal rt _ _) hopened).learn
    (K := fun seed h => Saw rt h journal (seedPath runId) seed) hopened
    (fun _ _ _ _ _ hends => saw_of_ends hends) fun seed => ?_
  have hsaw : Lasts fun h => (True ∧ journal.repo = repo) ∧ Saw rt h journal (seedPath runId) seed :=
    hopened.and lasts_saw
  split
  · exact within_pure
  · refine (authorizing_read (reads_readJournal _ _ _) hsaw).bind hsaw fun closed => ?_
    split
    · refine within_lift_bind fun _ hsealed => ?_
      have hbound := (@granting_recoverBound rt x.site.policy
        ⟨repo, repoId, runId, x.source, x.now, claimant, root runId, journal, seed⟩).weaken
        fun h (_ : (True ∧ journal.repo = repo) ∧ Saw rt h journal (seedPath runId) seed) => trivial
      refine (hbound.allow hsaw fun h op hh hop => ?_).attempt_bind hsaw fun r => ?_
      · cases op with
        | send route payload =>
          rcases hop with ⟨number, hgranted⟩
          exact ⟨number, .intro hh.1.2 hh.2 hsealed hgranted⟩
        | _ => trivial
      · cases r with
        | ok result => exact within_pure
        | error e =>
          dsimp only
          split
          · refine (authorizing_read (reads_openJournal _ _) hsaw).bind hsaw fun fresh => ?_
            exact (authorizing_quiet (quiet_terminal _ _ _ _ _ _) hsaw).bind hsaw fun _ => within_pure
          · exact within_ofExcept
    · exact within_pure

/-- Whatever it is answered, an execution that asks for a rerun was granted it. -/
theorem granted_of_asks {x : Worker} {repo repoId : PyStr} {runId : Int} {h : History} {route : PyStr}
    {payload : Value} (hasks : Asks (x.recover rt repo repoId runId) none h (.send route payload)) :
    ∃ number, Authorized rt x repo repoId runId number h :=
  authorizing_recover x repo repoId runId [] none h _ trivial hasks

/-! ## 4. What the checks have shown -/

theorem saw_of_ran {h : History} {journal : Journal} {path : PyStr} {record : Value}
    (hran : Ran h (readJournal rt journal path) record) : Saw rt h journal path record := by
  rcases hran with ⟨pre, tr, post, s, s', rfl, hends⟩
  rw [← List.append_assoc]
  exact (saw_of_ends hends).append

theorem eq_true_of_demand {message : String} {condition : Bool} {u : Unit}
    (h : demand message [.ok condition] = .ok u) : condition = true := by
  obtain ⟨_, hall, hraise⟩ := bind_eq_ok.mp h
  rw [raiseUnless_eq_ok.mp hraise] at hall
  exact Except.ok.inj (allOf_cons hall).1

/-- The claim was sent, and answered with a commit. -/
theorem made_of_ran {h : History} {journal : Journal} {path : PyStr} {entries : List (PyStr × Value)}
    {u : Unit} (hran : Ran h (create rt journal path (.dict entries)) u) :
    ∃ raw result, recordBytes rt (.dict entries) = .ok raw ∧
      (⟨.commit (commitPayload journal path raw), .ok result⟩ : Event ContinuationAns) ∈ h ∧
      ShowsCommit result := by
  rcases ran_bind hran with ⟨present, -, hran⟩
  rcases ran_lift_bind hran with ⟨_, -, hran⟩
  rcases ran_lift_bind hran with ⟨raw, hraw, hran⟩
  rcases ran_bind hran with ⟨result, hcommit, hran⟩
  rcases ran_lift_bind hran with ⟨_, -, hran⟩
  rcases ran_lift_bind hran with ⟨oid, hoid, -⟩
  rcases ran_bind hcommit with ⟨answer, ⟨pre, tr, post, s, s', rfl, hends⟩, hjudged⟩
  rcases ends_attempt.mp hends with ⟨_, heq, hends⟩
  cases heq
  rw [judge_eq_ok (ran_lift hjudged)] at hends
  refine ⟨raw, result, hraw, ?_, showsCommit_of_committedOid hoid⟩
  cases s with
  | none =>
    rcases ends_call.mp hends with ⟨rfl, -⟩
    exact List.mem_append_right _ List.mem_cons_self
  | some budget =>
    rcases ends_raise.mp hends with ⟨-, heq, -⟩
    cases heq

theorem prior_of_ran {h : History} {b : Bound} {u : Unit} (hran : Ran h (b.validateClaims rt 1 3) u) :
    ∃ prior, Saw rt h b.journal (b.attemptPath 3) prior ∧ validateClaim prior b.seed 3 = .ok () := by
  rcases ran_bind hran with ⟨prior, hread, hran⟩
  rcases ran_lift_bind hran with ⟨_, hvalid, -⟩
  exact ⟨prior, saw_of_ran hread, hvalid⟩

/-- What was read after the claim. -/
inductive Rechecked (rt : Runtime) (b : Bound) (claimPath : PyStr) (deadline : Int) (record cause : Value)
    (h : History) : Prop
  | intro {fresh : Journal} {claim run again : Value} {clock : ℚ} (hrepo : fresh.repo = b.repo)
      (hclaim : Saw rt h fresh claimPath claim) (hsame : claim.pyEq record = true)
      (hopen : Saw rt h fresh (b.path ++ "/terminal.json") .none)
      (hrun : Ran h (fetch ("repos/" ++ b.repo ++ "/actions/runs/" ++ ofInt b.runId)) run)
      (hagain : Ran h (b.cause rt run) again) (hcause : again.pyEq cause = true)
      (hclock : (⟨.timestamp, .ok clock⟩ : Event ContinuationAns) ∈ h)
      (hreserve : clock + (reserveSeconds : ℚ) ≤ (deadline : ℚ)) :
      Rechecked rt b claimPath deadline record cause h

theorem rechecked_of_ran {h : History} {policy claimPath : PyStr} {b : Bound} {deadline attempt : Int}
    {record cause : Value} {u : Unit}
    (hran : Ran h (b.recheck rt policy claimPath deadline attempt record cause) u) :
    Rechecked rt b claimPath deadline record cause h := by
  rcases ran_bind hran with ⟨first, -, hran⟩
  rcases ran_bind hran with ⟨consumed, -, hran⟩
  rcases ran_bind hran with ⟨current, -, hran⟩
  rcases ran_lift_bind hran with ⟨_, -, hran⟩
  rcases ran_bind hran with ⟨run, hrun, hran⟩
  rcases ran_bind hran with ⟨again, hagain, hran⟩
  rcases ran_lift_bind hran with ⟨_, hcause, hran⟩
  rcases ran_bind hran with ⟨elected, -, hran⟩
  rcases ran_lift_bind hran with ⟨_, -, hran⟩
  rcases ran_bind hran with ⟨fresh, hfresh, hran⟩
  rcases ran_bind hran with ⟨claim, hclaim, hran⟩
  rcases ran_lift_bind hran with ⟨_, hsame, hran⟩
  rcases ran_bind hran with ⟨closed, hclosed, hran⟩
  rcases ran_lift_bind hran with ⟨_, hopen, hran⟩
  rcases ran_bind hran with ⟨_, -, hran⟩
  rcases ran_bind hran with ⟨clock, hclock, hran⟩
  have hreserve := ran_lift hran
  cases eq_none_of_isNone (eq_true_of_demand hopen)
  exact .intro (repo_of_openJournal hfresh) (saw_of_ran hclaim) (eq_true_of_demand hsame)
    (saw_of_ran hclosed) hrun hagain (eq_true_of_demand hcause) (mem_of_ran hclock)
    (of_decide_eq_true (eq_true_of_demand hreserve))

/-! ## 5. Runs -/

variable {repo : PyStr} {ι : Type} {jobs : ι → Job} {w : WriterWorld ι}

/-- The rerun for the attempt is one that the journal, the native run and the clock allow.  The seed,
valid for the run, and the claim of the attempt before are in the commit that the journal was opened at;
the worker's own claim, valid for the seed, has landed; in a commit that was read after that it is there
and the recovery is not closed; the attempt before failed for the cause that the claim names, which was
found again; the cooldown after it was over; the scheduler run that is elected is the claim's; and when
the clock was read at last, the reserve was left before the deadline. -/
inductive Warranted (rt : Runtime) (repo repoId : PyStr) (runId : Int) (x : Worker) (number : Int)
    (w : WriterWorld ι) (i : ι) : Prop
  | intro {b : Bound} {oid oid' : PyStr} {t t' : PyStr → Option Bytes} {run cause again elected claim : Value}
      {entries : List (PyStr × Value)} {raw : Bytes} {created completed cooldown : Int} {clock : ℚ}
      (hbound : b.repo = repo ∧ b.runId = runId ∧ b.now = x.now)
      (htree : w.branch.tree oid = some t) (hseed : ReadsAs rt (t (seedPath runId)) b.seed)
      (hsealed : validateSeed rt b.seed repo repoId runId = .ok ())
      (hprior : number = 4 → ∃ prior, ReadsAs rt (t (attemptPath runId 3)) prior ∧
        validateClaim prior b.seed 3 = .ok ())
      (hraw : recordBytes rt (.dict entries) = .ok raw)
      (hlanded : ∃ journal, (i, commitPayload journal (attemptPath runId number) raw) ∈ w.landed)
      (hvalid : validateClaim (.dict entries) b.seed number = .ok ())
      (htree' : w.branch.tree oid' = some t') (hclaim : ReadsAs rt (t' (attemptPath runId number)) claim)
      (hsame : claim.pyEq (.dict entries) = true) (hopen : ¬ HasRecord rt t' (terminalPath runId))
      (hattempt : nativeAttempt run = .ok (number - 1))
      (hrun : Ran (w.history i) (fetch ("repos/" ++ repo ++ "/actions/runs/" ++ ofInt runId)) run)
      (hcause : lookup entries "cause" = some cause)
      (hagain : ∃ run', Ran (w.history i) (b.cause rt run') again) (hstill : again.pyEq cause = true)
      (hcompleted : itemEpoch cause "completed_at" = .ok completed)
      (hcooldown : cooldownSeconds number = .ok cooldown)
      (hcooled : ((completed + cooldown : Int) : ℚ) ≤ x.now.timestamp)
      (helected : Ran (w.history i) (electedClaimant repo b.seed cause number) elected)
      (hown : ∃ claimant, lookup entries "claim_run" = some (.int claimant) ∧
        elected.pyEq (.int claimant) = true)
      (hcreated : itemEpoch b.seed "created_at" = .ok created)
      (hclock : (⟨.timestamp, .ok clock⟩ : Event ContinuationAns) ∈ w.history i)
      (hreserve : clock + (reserveSeconds : ℚ) ≤ ((created + totalSeconds : Int) : ℚ)) :
      Warranted rt repo repoId runId x number w i

/-- The entries of a claim. -/
theorem claimRecord_eq_ok {b : Bound} {number : Int} {cause : Value} {entries : List (PyStr × Value)}
    (h : b.claimRecord number cause = .ok entries) :
    lookup entries "cause" = some cause ∧ lookup entries "claim_run" = some (.int b.claimant) := by
  obtain ⟨contract, -, h⟩ := bind_eq_ok.mp h
  cases h
  exact ⟨rfl, rfl⟩

theorem deadline_eq_ok {b : Bound} {deadline : Int} (h : b.deadline = .ok deadline) :
    ∃ created, itemEpoch b.seed "created_at" = .ok created ∧ deadline = created + totalSeconds := by
  obtain ⟨created, hcreated, h⟩ := bind_eq_ok.mp h
  cases h
  exact ⟨created, hcreated, rfl⟩

theorem reads_of_saw {ready : ι → History → Prop} {i : ι} {journal : Journal} {path : PyStr} {record : Value}
    (hinv : WriterInv rt repo ready w) (hrepo : journal.repo = repo)
    (hsaw : Saw rt (w.history i) journal path record) :
    ∃ t, w.branch.tree journal.oid = some t ∧ ReadsAs rt (t path) record :=
  hinv.shown i journal path record hrepo hsaw

theorem warranted_of_authorized {ready : ι → History → Prop} {i : ι} {x : Worker} {repoId : PyStr}
    {runId number : Int} (hinv : WriterInv rt repo ready w)
    (h : Authorized rt x repo repoId runId number (w.history i)) :
    (number = 3 ∨ number = 4) ∧ Warranted rt repo repoId runId x number w i := by
  rcases h with ⟨hrepo, hseed, hsealed, hgranted⟩
  rename_i claimant journal seed
  have hpath : ∀ n, Bound.attemptPath
      ⟨repo, repoId, runId, x.source, x.now, claimant, root runId, journal, seed⟩ n = attemptPath runId n :=
    Recovers.attempt (b := ⟨repo, repoId, runId, x.source, x.now, claimant, root runId, journal, seed⟩) rfl
  rcases hgranted with ⟨hdeadline, hrun, hattempt, hclaims, hcause, hcompleted, hcooldown, hcooled, helected,
    hown, hentries, hvalid, hcreate, hrecheck⟩
  rename_i run cause elected entries deadline completed cooldown
  have hnumber := attempt_of_cooldown hcooldown
  rw [hpath] at hcreate hrecheck
  rcases made_of_ran hcreate with ⟨raw, result, hraw, hmem, hshows⟩
  rcases rechecked_of_ran hrecheck with ⟨hfresh, hclaim, hsame, hopen, -, hagain, hstill, hclock, hreserve⟩
  rcases deadline_eq_ok hdeadline with ⟨created, hcreated, rfl⟩
  rcases reads_of_saw hinv hrepo hseed with ⟨t, htree, hseedReads⟩
  rcases reads_of_saw hinv hfresh hclaim with ⟨t', htree', hclaimReads⟩
  rcases reads_of_saw hinv hfresh hopen with ⟨t₂, htree₂, hopenReads⟩
  cases htree'.symm.trans htree₂
  refine ⟨hnumber, .intro (b := ⟨repo, repoId, runId, x.source, x.now, claimant, root runId, journal, seed⟩)
    ⟨rfl, rfl, rfl⟩ htree hseedReads hsealed (fun hfour => ?_) hraw
    ⟨journal, hinv.answered i _ _ hmem hshows⟩ hvalid htree' hclaimReads hsame
    (not_hasRecord_of_readsAs hopenReads) hattempt hrun (claimRecord_eq_ok hentries).1 ⟨_, hagain⟩ hstill
    hcompleted hcooldown hcooled helected ⟨claimant, (claimRecord_eq_ok hentries).2, hown⟩ hcreated hclock
    hreserve⟩
  subst hfour
  rcases prior_of_ran hclaims with ⟨prior, hprior, hpriorValid⟩
  rw [hpath] at hprior
  rcases reads_of_saw hinv hrepo hprior with ⟨t₁, htree₁, hpriorReads⟩
  cases htree.symm.trans htree₁
  exact ⟨prior, hpriorReads, hpriorValid⟩

/-- A job may post a rerun where that is authorized. -/
def Job.Permitted (rt : Runtime) (repo : PyStr) (x : Job) (h : History) : Prop :=
  x.Entitled h ∧ ∀ y repoId runId, x = .recover y repoId runId →
    ∃ number, Authorized rt y repo repoId runId number h

theorem disciplined_permitted :
    Disciplined rt (fun i => (jobs i).program rt repo) fun i h => (jobs i).Permitted rt repo h where
  commit _ _ _ hasks := (grounds_of_asks hasks).adds
  send i h route payload hasks := by
    rcases entitled_of_asks hasks with ⟨hsends, hentitled⟩
    refine ⟨hsends, hentitled, fun y repoId runId hjob => ?_⟩
    rw [hjob, asks_recover] at hasks
    exact granted_of_asks hasks
  append i h h' hpermitted := by
    refine ⟨hpermitted.1.append, fun y repoId runId hjob => ?_⟩
    rcases hpermitted.2 y repoId runId hjob with ⟨number, hauthorized⟩
    exact ⟨number, hauthorized.append⟩

def recoverTrace : History :=
  ((recoverJob ()).program sampleInterpreter sampleRepo).asked none fun _ => unsealedAnswer

end Supplementary.Recovery
