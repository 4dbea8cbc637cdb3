/-
# Any number of workers

Any number of workers that run `recover` for one sealed run, as programs that write to one journal.  A
worker adds a record only where it has seen that there is none, and it asks for a rerun once at most,
after the claim of an attempt that it made itself was confirmed (`tracks_recover`).

`rerun_once`: two workers that ask for a rerun have claimed different attempts, so there are two at
most.
-/
import Supplementary.Recovery.Recover
import Supplementary.Continuation.Claims

namespace Supplementary.Recovery

open Effects PyStr Native Continuation

variable {rt : Runtime} {α β : Type}

/-! ## 1. What only reads -/

theorem reads_read (request : Paging.Request) : Only IsRead (read request) := by
  refine (reads_api request).catching fun e => ?_
  split
  · exact only_ofExcept
  · exact only_ofExcept

theorem reads_fetch (route : PyStr) : Only IsRead (fetch route) := reads_read _

theorem reads_inventory (route : PyStr) (key : Option PyStr) : Only IsRead (inventory route key) := by
  refine (reads_pages route key).catching fun e => ?_
  split
  · exact only_ofExcept
  · exact only_ofExcept

theorem reads_sourceMarker (job pr : Value) : Only IsRead (sourceMarker job pr) := by
  refine reads_lift_bind fun value => reads_lift_bind fun source => (reads_fetch _).bind fun current => ?_
  exact reads_lift_bind fun _ => only_pure

theorem reads_jobsFor (repo : PyStr) (runId attempt head : Value) :
    Only IsRead (jobsFor repo runId attempt head) :=
  (reads_inventory _ _).bind fun _ => reads_lift_bind fun _ => only_pure

theorem reads_threads (repo : PyStr) (number : Int) : Only IsRead (threads repo number) := by
  have hfrom : ∀ left cursor seen nodes, Only IsRead (threadsFrom repo number left cursor seen nodes) := by
    intro left
    induction left with
    | zero => exact fun _ _ _ => only_ofExcept
    | succ left ih =>
      intro cursor seen nodes
      refine reads_lift_bind fun request => (reads_read _).bind fun result => reads_lift_bind fun page => ?_
      dsimp only
      split
      · exact reads_lift
      · exact ih _ _ _
  exact hfrom 10 none [] []

theorem reads_metadataRevision (repo : PyStr) (pr : Value) : Only IsRead (metadataRevision repo pr) := by
  refine reads_lift_bind fun number => reads_lift_bind fun request => (reads_read _).bind fun result => ?_
  exact reads_lift_bind fun _ => reads_lift_bind fun _ => reads_lift_bind fun _ => only_pure

theorem reads_neutralEvidence (repo : PyStr) (number : Int) (pr base head : Value) :
    Only IsRead (neutralEvidence rt repo number pr base head) := by
  refine (reads_inventory _ _).bind fun checks => reads_lift_bind fun check => ?_
  refine reads_lift_bind fun summary => reads_lift_bind fun _ => (reads_fetch _).bind fun producer => ?_
  refine reads_lift_bind fun _ => (reads_inventory _ _).bind fun jobs => ?_
  exact reads_lift_bind fun _ => only_pure

theorem reads_reviewEvidence (repo : PyStr) (number : Int) (head check : Value) :
    Only IsRead (reviewEvidence repo number head check) := by
  refine (reads_inventory _ _).bind fun reviews => reads_lift_bind fun review => ?_
  refine (reads_inventory _ _).bind fun comments => reads_lift_bind fun _ => ?_
  exact (reads_threads _ _).bind fun _ => only_pure

theorem reads_sourceEvidence (repo repoId writerSource : PyStr) (pr : Value) :
    Only IsRead (sourceEvidence repo repoId writerSource pr) := by
  refine (reads_fetch _).bind fun data => reads_lift_bind fun _ => (reads_fetch _).bind fun scheduler => ?_
  refine reads_lift_bind fun _ => reads_lift_bind fun baseRef => (reads_fetch _).bind fun branch => ?_
  exact reads_lift_bind fun _ => reads_lift

theorem reads_snapshot (policy repo repoId : PyStr) (number runId : Int) (writerSource : PyStr) :
    Only IsRead (snapshot rt policy repo repoId number runId writerSource) := by
  refine reads_lift_bind fun _ => (reads_fetch _).bind fun pr => reads_lift_bind fun _ => ?_
  refine (reads_sourceEvidence _ _ _ _).bind fun scheduler => (reads_fetch _).bind fun run => ?_
  refine reads_lift_bind fun _ => reads_lift_bind fun _ => reads_lift_bind fun base => ?_
  refine reads_lift_bind fun head => (reads_jobsFor _ _ _ _).bind fun original => ?_
  refine (reads_sourceMarker _ _).bind fun source => (reads_neutralEvidence _ _ _ _ _).bind fun _ => ?_
  refine (reads_reviewEvidence _ _ _ _).bind fun review => (reads_metadataRevision _ _).bind fun _ => ?_
  refine reads_lift_bind fun _ => reads_lift_bind fun _ => reads_lift_bind fun _ => ?_
  refine reads_lift_bind fun _ => reads_lift_bind fun _ => reads_lift_bind fun _ => ?_
  exact reads_lift_bind fun _ => only_pure

theorem reads_annotations (repo : PyStr) (check : Value) : Only IsRead (annotations repo check) := by
  have hfrom : ∀ id count left page rows, Only IsRead (annotationsFrom repo id count left page rows) := by
    intro id count left
    induction left with
    | zero => exact fun _ _ => only_pure
    | succ left ih =>
      intro page rows
      refine (reads_fetch _).bind fun batch => ?_
      split
      · exact reads_lift_bind fun _ => ih _ _
      · exact only_ofExcept
  exact reads_lift_bind fun _ => reads_lift_bind fun _ => reads_lift_bind fun _ => hfrom _ _ _ _ _

theorem reads_infrastructureCause (repo : PyStr) (run head : Value) :
    Only IsRead (infrastructureCause rt repo run head) := by
  refine reads_lift_bind fun _ => reads_lift_bind fun _ => (reads_jobsFor _ _ _ _).bind fun jobs => ?_
  refine reads_lift_bind fun _ => reads_lift_bind fun _ => Only.bind (only_call trivial) fun now => ?_
  refine reads_lift_bind fun _ => (reads_fetch _).bind fun check => reads_lift_bind fun _ => ?_
  refine (reads_annotations _ _).bind fun rows => reads_lift_bind fun _ => ?_
  exact reads_lift_bind fun _ => only_pure

theorem reads_electedClaimant (repo : PyStr) (seed cause : Value) (attempt : Int) :
    Only IsRead (electedClaimant repo seed cause attempt) :=
  reads_lift_bind fun _ => (reads_inventory _ _).bind fun _ => reads_lift

theorem reads_writer (site : Site) (repo source path event : PyStr) :
    Only IsRead (writer site repo source path event) := by
  refine reads_lift_bind fun _ => reads_lift_bind fun _ => (reads_fetch _).bind fun run => ?_
  exact reads_lift_bind fun _ => only_pure

theorem reads_readbackOnly (repo repoId path : PyStr) : Only IsRead (readbackOnly rt repo repoId path) := by
  refine Only.catching ((reads_openJournal _ _).bind fun _ => reads_readJournal _ _ _) fun e => ?_
  split
  · exact only_pure
  · exact only_ofExcept

theorem reads_originalConsumption (journal : Journal) (seed : Value) (allowPending : Bool) :
    Only IsRead (originalConsumption rt journal seed allowPending) := by
  refine reads_lift_bind fun key => reads_lift_bind fun path => (reads_readJournal _ _ _).bind fun _ => ?_
  refine reads_lift_bind fun _ => reads_lift_bind fun _ => reads_lift_bind fun _ => ?_
  exact (reads_fetch _).bind fun _ => reads_lift_bind fun _ => only_pure

theorem reads_cause (b : Bound) (run : Value) : Only IsRead (b.cause rt run) :=
  reads_lift_bind fun _ => reads_infrastructureCause _ _ _

theorem reads_observedCause (b : Bound) (observed : Value) : Only IsRead (b.observedCause rt observed) := by
  refine (reads_cause b observed).catching fun e => ?_
  split
  · exact only_pure
  · exact only_ofExcept

theorem reads_isCurrent (b : Bound) (policy : PyStr) : Only IsRead (b.isCurrent rt policy) := by
  refine reads_lift_bind fun _ => reads_lift_bind fun _ => reads_lift_bind fun _ => ?_
  split
  · exact (reads_snapshot _ _ _ _ _ _).bind fun _ => only_pure
  · exact only_ofExcept

theorem reads_checkContract (b : Bound) (policy : PyStr) : Only IsRead (b.checkContract rt policy) := by
  refine reads_lift_bind fun _ => reads_lift_bind fun _ => (reads_isCurrent b policy).bind fun _ => ?_
  exact reads_lift

theorem reads_validateClaims (b : Bound) (left : Nat) (number : Int) :
    Only IsRead (b.validateClaims rt left number) := by
  induction left generalizing number with
  | zero => exact only_pure
  | succ left ih => exact (reads_readJournal _ _ _).bind fun _ => reads_lift_bind fun _ => ih _

theorem reads_recheck (b : Bound) (policy claimPath : PyStr) (deadline attempt : Int)
    (record cause : Value) : Only IsRead (b.recheck rt policy claimPath deadline attempt record cause) := by
  refine (reads_openJournal _ _).bind fun _ => (reads_originalConsumption _ _ _).bind fun _ => ?_
  refine (reads_isCurrent b policy).bind fun _ => reads_lift_bind fun _ => (reads_fetch _).bind fun _ => ?_
  refine (reads_cause b _).bind fun _ => reads_lift_bind fun _ => (reads_electedClaimant _ _ _ _).bind ?_
  refine fun _ => reads_lift_bind fun _ => (reads_openJournal _ _).bind fun _ => ?_
  refine (reads_readJournal _ _ _).bind fun _ => reads_lift_bind fun _ => (reads_readJournal _ _ _).bind ?_
  refine fun _ => reads_lift_bind fun _ => Only.bind ?_ fun _ => Only.bind (only_call trivial) fun _ => ?_
  · exact (reads_fetch _).bind fun _ => reads_lift
  · exact reads_lift

/-! ## 2. What a worker may ask for -/

/-- The path of the claim of an attempt. -/
def attemptPath (runId number : Int) : PyStr :=
  "li259/" ++ ofInt runId ++ "/attempt-" ++ ofInt number ++ ".json"

/-- A commit of the worker that adds a record at the path was confirmed. -/
def Made (h : History) (path : PyStr) : Prop :=
  ∃ journal raw result, (⟨.commit (commitPayload journal path raw), .ok result⟩ :
    Event ContinuationAns) ∈ h ∧ ShowsCommit result

/-- The worker has claimed an attempt. -/
def Ready (runId : Int) (h : History) : Prop :=
  ∃ number, (number = 3 ∨ number = 4) ∧ Made h (attemptPath runId number)

/-- What a worker may ask for. -/
def Allowed (rt : Runtime) (runId : Int) (h : History) : ContinuationOp → Prop
  | .commit payload => Adds rt h payload
  | .send _ _ => sends h = [] ∧ Ready runId h
  | _ => True

/-- No post. -/
def IsQuiet : ContinuationOp → Prop
  | .send _ _ => False
  | _ => True

variable {runId : Int} {P : History → Prop} {x : ContinuationAct α}

theorem Made.append {h h' : History} {path : PyStr} (hmade : Made h path) : Made (h ++ h') path := by
  obtain ⟨journal, raw, result, hmem, hshows⟩ := hmade
  exact ⟨journal, raw, result, List.mem_append_left _ hmem, hshows⟩

theorem Ready.append {h h' : History} (hready : Ready runId h) : Ready runId (h ++ h') := by
  obtain ⟨number, hnumber, hmade⟩ := hready
  exact ⟨number, hnumber, hmade.append⟩

theorem allowed_read {h : History} {op : ContinuationOp} (hop : IsRead op) : Allowed rt runId h op := by
  cases op with
  | commit _ => exact hop.elim
  | send _ _ => exact hop.elim
  | _ => trivial

theorem quiet_of_read {op : ContinuationOp} (hop : IsRead op) : IsQuiet op := by
  cases op with
  | send _ _ => exact hop.elim
  | _ => trivial

theorem Stays.reads (hP : Stays IsQuiet P) : Stays IsRead P :=
  fun h e hh he => hP h e hh (quiet_of_read he)

theorem stays_silent : Stays IsQuiet fun h => sends h = [] := by
  intro h e hh he
  refine (sends_of_not_send ?_).trans hh
  obtain ⟨op, answer⟩ := e
  cases op with
  | send _ _ => exact he.elim
  | _ => rfl

/-! ## 3. Rules -/

theorem tracks_reading {Q : Py α → History → Prop} (hx : Tracks (Permitted rt) P x Q)
    (hreads : Only IsRead x) : Tracks (Allowed rt runId) P x Q := fun h s hh =>
  ⟨fun tr op hasks => allowed_read (hreads s tr op hasks), (hx h s hh).2⟩

theorem tracks_only (hx : Only IsRead x) (hP : Stays IsRead P) :
    Tracks (Allowed rt runId) P x fun _ => P := tracks_reading (tracks_reads hx hP) hx

section

variable {f : α → ContinuationAct β} {y : Py α} {Q : Py β → History → Prop}

/-- Reading first. -/
theorem tracks_then (hx : Only IsRead x) (hP : Stays IsRead P)
    (hf : ∀ a, Tracks (Allowed rt runId) P (f a) Q) (herror : ∀ e h, P h → Q (.error e) h) :
    Tracks (Allowed rt runId) P (x >>= f) Q := (tracks_only hx hP).bind hf herror

/-- A check first. -/
theorem tracks_check (hf : ∀ a, y = .ok a → Tracks (Allowed rt runId) P (f a) Q)
    (herror : ∀ e h, P h → Q (.error e) h) :
    Tracks (Allowed rt runId) P ((liftM y : ContinuationAct α) >>= f) Q :=
  tracks_lift_bind hf fun e h _ hh => herror e h hh

theorem tracks_return {a : β} (hQ : ∀ h, P h → Q (.ok a) h) :
    Tracks (Allowed rt runId) P (pure a : ContinuationAct β) Q := tracks_ofExcept hQ

end

/-! ## 4. Adding a record -/

/-- A record is added where there was seen to be none; where that returns, it was confirmed. -/
theorem tracks_create (hP : Stays IsQuiet P) (journal : Journal) (path : PyStr)
    (entries : List (PyStr × Value)) :
    Tracks (Allowed rt runId) P (create rt journal path (.dict entries)) fun r h =>
      P h ∧ (r = .ok () → Made h path) := by
  have herror : ∀ (e : PyError) h, P h → P h ∧ ((Except.error e : Py Unit) = .ok () → Made h path) :=
    fun e h hh => ⟨hh, fun heq => by cases heq⟩
  refine (tracks_reading (tracks_readJournal (Stays.reads hP) journal path)
    (reads_readJournal rt journal path)).bind (fun present => ?_) fun e h hread => herror e h hread.known
  refine tracks_lift_bind (fun _ habsent => ?_) fun e h _ hread => herror e h hread.known
  refine tracks_lift_bind (fun raw hraw => ?_) fun e h _ hread => herror e h hread.known
  have hnone : present = .none := eq_none_of_isNone (raiseUnless_eq_ok.mp habsent)
  have hpost : Tracks (Allowed rt runId) (fun h => P h ∧ Saw rt h journal path .none)
      (post (commitPayload journal path raw)) fun r h => P h ∧ ∀ result, r = .ok result →
        (⟨.commit (commitPayload journal path raw), .ok result⟩ : Event ContinuationAns) ∈ h := by
    refine tracks_read_bind fun budget => ?_
    cases budget with
    | none =>
      refine tracks_call (fun h hh => .intro hraw hh.2) fun h r hh => ⟨hP h _ hh.1 trivial, ?_⟩
      intro result hresult
      exact hresult ▸ List.mem_append_right h (List.mem_singleton_self _)
    | some budget => exact tracks_ofExcept fun h hh => ⟨hh.1, fun result hresult => by cases hresult⟩
  have hcommit : Tracks (Allowed rt runId) (fun h => P h ∧ Saw rt h journal path .none)
      (commitResponse rt (commitPayload journal path raw)) fun r h => P h ∧ ∀ result, r = .ok result →
        (⟨.commit (commitPayload journal path raw), .ok result⟩ : Event ContinuationAns) ∈ h :=
    hpost.attempt_bind fun answer => tracks_ofExcept fun h hh =>
      ⟨hh.1, fun result hresult => hh.2 result (judge_eq_ok hresult)⟩
  refine (hcommit.weaken (fun h hread => ⟨hread.known, hread.saw .none (congrArg _ hnone)⟩)
    fun _ _ hQ => hQ).bind (fun result => ?_) fun e h hh => herror e h hh.1
  refine tracks_lift_bind (fun _ _ => ?_) fun e h _ hh => herror e h hh.1
  refine tracks_lift_bind (fun oid hoid => ?_) fun e h _ hh => herror e h hh.1
  have hmade : Stays IsRead fun h => P h ∧ Made h path :=
    fun h e hh he => ⟨Stays.reads hP h e hh.1 he, hh.2.append⟩
  refine Tracks.weaken (P := fun h => P h ∧ Made h path) (tracks_only ?_ hmade) (fun h hh => ?_)
    fun r h hQ => ⟨hQ.1, fun _ => hQ.2⟩
  · exact (reads_readJournal _ _ _).bind fun _ => reads_lift
  · exact ⟨hh.1, journal, raw, result, hh.2 result rfl, showsCommit_of_committedOid hoid⟩

theorem tracks_terminal (hP : Stays IsQuiet P) (journal : Journal) (path : PyStr) (seed : Value)
    (reason : PyStr) (now : Now) (attempt : Value) :
    Tracks (Allowed rt runId) P (terminal rt journal path seed reason now attempt) fun _ => P := by
  refine tracks_check (fun entries _ => ?_) fun _ _ hh => hh
  refine (tracks_create hP journal path entries).attempt_bind fun r => ?_
  cases r with
  | ok u => exact tracks_return fun h hh => hh.1
  | error e =>
    refine Tracks.weaken ?_ (fun h hh => hh.1) fun _ _ hQ => hQ
    dsimp only
    split
    · refine tracks_only ?_ (Stays.reads hP)
      exact (reads_readbackOnly _ _ _).bind fun _ => reads_lift
    · exact tracks_ofExcept fun h hh => hh

theorem tracks_close (hP : Stays IsQuiet P) (b : Bound) (reason : PyStr) (attempt : Value) :
    Tracks (Allowed rt runId) P (b.close rt reason attempt) fun _ => P :=
  (tracks_terminal hP _ _ _ _ _ _).bind (fun _ => tracks_return fun _ hh => hh) fun _ _ hh => hh

/-! ## 5. One worker -/

/-- No post so far. -/
def Silent (h : History) : Prop := sends h = []

theorem tracks_observe (b : Bound) (deadline attempt : Int) (observed : Value) :
    Tracks (Allowed rt runId) Silent (b.observe rt deadline attempt observed) fun _ => Silent := by
  have hreads := Stays.reads stays_silent
  refine tracks_then (reads_observedCause b observed) hreads (fun cause => ?_) fun _ _ hh => hh
  split
  · exact tracks_return fun _ hh => hh
  · refine tracks_check (fun completed _ => ?_) fun _ _ hh => hh
    refine tracks_check (fun cooldown _ => ?_) fun _ _ hh => hh
    split
    · refine tracks_then (reads_originalConsumption _ _ _) hreads (fun consumed => ?_) fun _ _ hh => hh
      split
      · refine (tracks_close stays_silent b _ _).bind (fun _ => ?_) fun _ _ hh => hh
        exact tracks_return fun _ hh => hh
      · exact tracks_return fun _ hh => hh
    · split
      · refine tracks_then (reads_electedClaimant _ _ _ _) hreads (fun elected => ?_) fun _ _ hh => hh
        split
        · exact tracks_return fun _ hh => hh
        · refine tracks_only ?_ hreads
          exact (reads_readbackOnly _ _ _).bind fun _ => only_pure
      · exact tracks_return fun _ hh => hh

/-- Nothing more is known at the end. -/
def Over {γ : Type} (_ : Py γ) (_ : History) : Prop := True

/-- After the claim of an attempt nothing but the rerun is posted. -/
theorem tracks_rerun (b : Bound) (cause : Value) :
    Tracks (Allowed rt runId) (fun h => Silent h ∧ Ready runId h) (b.rerun cause) Over := by
  refine tracks_check (fun job _ => ?_) fun _ _ _ => trivial
  have hsend : ∀ route payload, Tracks (Allowed rt runId) (fun h => Silent h ∧ Ready runId h)
      (send route payload) Over := by
    intro route payload
    refine tracks_read_bind fun budget => ?_
    cases budget with
    | none => exact tracks_call (fun h hh => hh) fun _ _ _ => trivial
    | some budget => exact tracks_ofExcept fun _ _ => trivial
  refine (hsend _ _).attempt_bind fun answer => ?_
  have hover : ∀ y : ContinuationAct String, Only IsRead y →
      Tracks (Allowed rt runId) (Over answer) y Over := fun y hy =>
    (tracks_only (P := fun _ => True) hy fun _ _ _ _ => trivial).weaken (fun _ _ => trivial)
      fun _ _ _ => trivial
  refine hover _ ?_
  cases answer with
  | ok value => exact only_pure
  | error e =>
    dsimp only
    split
    · exact (reads_fetch _).bind fun _ => only_pure
    · exact only_ofExcept

theorem tracks_claim (b : Bound) (policy : PyStr) (deadline attempt : Int) (cause : Value)
    (hattempt : attempt = 3 ∨ attempt = 4) (hpath : b.attemptPath attempt = attemptPath runId attempt) :
    Tracks (Allowed rt runId) Silent (b.claim rt policy deadline attempt cause) Over := by
  have hreads := Stays.reads stays_silent
  refine tracks_check (fun entries _ => ?_) fun _ _ _ => trivial
  refine tracks_check (fun _ _ => ?_) fun _ _ _ => trivial
  refine (tracks_create stays_silent b.journal _ entries).attempt_bind fun created => ?_
  cases created with
  | error e =>
    refine Tracks.weaken (P := Silent) (tracks_only ?_ hreads) (fun h hh => hh.1) fun _ _ _ => trivial
    dsimp only
    split
    · exact (reads_readbackOnly _ _ _).bind fun _ => only_pure
    · exact only_ofExcept
  | ok u =>
    have hready : Stays IsRead fun h => Silent h ∧ Ready runId h :=
      fun h e hh he => ⟨hreads h e hh.1 he, hh.2.append⟩
    refine Tracks.weaken (P := fun h => Silent h ∧ Ready runId h) ?_ (fun h hh => ⟨hh.1, attempt, hattempt,
      hpath ▸ hh.2 rfl⟩) fun _ _ hQ => hQ
    refine (tracks_only (reads_recheck b _ _ _ _ _ _) hready).attempt_bind fun checked => ?_
    cases checked with
    | ok u => exact tracks_rerun b cause
    | error e =>
      refine (tracks_only ?_ hready).weaken (fun _ hh => hh) fun _ _ _ => trivial
      dsimp only
      split
      · exact (reads_readbackOnly _ _ _).bind fun _ => only_pure
      · exact only_ofExcept

/-- There is a cooldown before the attempts three and four only. -/
theorem attempt_of_cooldown {attempt cooldown : Int} (h : cooldownSeconds attempt = .ok cooldown) :
    attempt = 3 ∨ attempt = 4 := by
  unfold cooldownSeconds at h
  split at h
  · next h3 => exact Or.inl h3
  · split at h
    · next h4 => exact Or.inr h4
    · cases h

/-- The worker is for the run. -/
def IsOf (runId : Int) (b : Bound) : Prop := ∀ number, b.attemptPath number = attemptPath runId number

theorem tracks_over (hx : Tracks (Allowed rt runId) P x fun _ => P) :
    Tracks (Allowed rt runId) P x Over := hx.weaken (fun _ hh => hh) fun _ _ _ => trivial

theorem tracks_retry {b : Bound} (hb : IsOf runId b) (policy : PyStr) (deadline attempt : Int)
    (run : Value) : Tracks (Allowed rt runId) Silent (b.retry rt policy deadline attempt run) Over := by
  have hreads := Stays.reads stays_silent
  refine (tracks_only (reads_cause b run) hreads).attempt_bind fun found => ?_
  cases found with
  | error e =>
    dsimp only
    split
    · exact tracks_over (tracks_close stays_silent b _ _)
    · exact tracks_ofExcept fun _ _ => trivial
  | ok cause =>
    refine tracks_check (fun completed _ => ?_) fun _ _ _ => trivial
    refine tracks_check (fun cooldown hcooldown => ?_) fun _ _ _ => trivial
    split
    · exact tracks_return fun _ _ => trivial
    · refine tracks_then (reads_readJournal _ _ _) hreads (fun claimed => ?_) fun _ _ _ => trivial
      split
      · refine tracks_then (reads_electedClaimant _ _ _ _) hreads (fun elected => ?_)
          fun _ _ _ => trivial
        split
        · exact tracks_claim b _ _ _ _ (attempt_of_cooldown hcooldown) (hb _)
        · refine tracks_over (tracks_only ?_ hreads)
          exact (reads_readbackOnly _ _ _).bind fun _ => only_pure
      · exact tracks_return fun _ _ => trivial

theorem tracks_proceed {b : Bound} (hb : IsOf runId b) (policy : PyStr) (deadline : Int) :
    Tracks (Allowed rt runId) Silent (b.proceed rt policy deadline) Over := by
  have hreads := Stays.reads stays_silent
  refine tracks_then (reads_fetch _) hreads (fun run => ?_) fun _ _ _ => trivial
  refine tracks_check (fun attempt _ => ?_) fun _ _ _ => trivial
  split
  · exact tracks_return fun _ _ => trivial
  · refine tracks_then (reads_validateClaims b _ _) hreads (fun _ => ?_) fun _ _ _ => trivial
    refine tracks_check (fun status _ => ?_) fun _ _ _ => trivial
    split
    · exact tracks_return fun _ _ => trivial
    · refine tracks_check (fun conclusion _ => ?_) fun _ _ _ => trivial
      split
      · exact tracks_over (tracks_close stays_silent b _ _)
      · split
        · exact tracks_over (tracks_close stays_silent b _ _)
        · exact tracks_retry hb _ _ _ _

theorem tracks_contract {b : Bound} (hb : IsOf runId b) (policy : PyStr) (deadline : Int)
    (observed : Value) :
    Tracks (Allowed rt runId) Silent (b.contract rt policy deadline observed) Over := by
  have hreads := Stays.reads stays_silent
  refine tracks_then (reads_originalConsumption _ _ _) hreads (fun consumed => ?_) fun _ _ _ => trivial
  split
  · refine (tracks_only (reads_checkContract b policy) hreads).attempt_bind fun checked => ?_
    cases checked with
    | ok u => exact tracks_proceed hb policy deadline
    | error e =>
      dsimp only
      split
      · exact tracks_over (tracks_close stays_silent b _ _)
      · exact tracks_ofExcept fun _ _ => trivial
  · exact tracks_return fun _ _ => trivial

theorem tracks_recoverBound {b : Bound} (hb : IsOf runId b) (policy : PyStr) :
    Tracks (Allowed rt runId) Silent (recoverBound rt policy b) Over := by
  have hreads := Stays.reads stays_silent
  refine tracks_check (fun _ _ => ?_) fun _ _ _ => trivial
  refine tracks_check (fun deadline _ => ?_) fun _ _ _ => trivial
  refine tracks_then (reads_fetch _) hreads (fun observed => ?_) fun _ _ _ => trivial
  refine tracks_check (fun attempt _ => ?_) fun _ _ _ => trivial
  split
  · next attempt =>
    split
    · refine tracks_then (reads_readJournal _ _ _) hreads (fun claimed => ?_) fun _ _ _ => trivial
      split
      · refine tracks_check (fun status _ => ?_) fun _ _ _ => trivial
        dsimp only
        split
        · refine (tracks_observe b _ _ _).bind (fun ended => ?_) fun _ _ _ => trivial
          cases ended with
          | some result => exact tracks_return fun _ _ => trivial
          | none => exact tracks_contract hb _ _ _
        · exact tracks_contract hb _ _ _
      · exact tracks_return fun _ _ => trivial
    · exact tracks_contract hb _ _ _
  · exact tracks_ofExcept fun _ _ => trivial

/-- **Every worker asks for what is allowed**, whatever it is answered. -/
theorem tracks_recover (site : Site) (repo repoId : PyStr) (runId : Int) (source : PyStr) (now : Now) :
    Tracks (Allowed rt runId) Silent (recover rt site repo repoId runId source now) Over := by
  have hreads := Stays.reads stays_silent
  refine tracks_then (reads_writer _ _ _ _ _) hreads (fun claimant => ?_) fun _ _ _ => trivial
  refine tracks_check (fun path hpath => ?_) fun _ _ _ => trivial
  refine tracks_then (reads_openJournal _ _) hreads (fun journal => ?_) fun _ _ _ => trivial
  refine tracks_then (reads_readJournal _ _ _) hreads (fun seed => ?_) fun _ _ _ => trivial
  split
  · exact tracks_return fun _ _ => trivial
  · refine tracks_then (reads_readJournal _ _ _) hreads (fun closed => ?_) fun _ _ _ => trivial
    split
    · refine tracks_check (fun _ _ => ?_) fun _ _ _ => trivial
      have hb : IsOf runId ⟨repo, repoId, runId, source, now, claimant, path, journal, seed⟩ := by
        intro number
        obtain ⟨_, -, hroot⟩ := bind_eq_ok.mp hpath
        cases hroot
        rfl
      refine (tracks_recoverBound hb site.policy).attempt_bind fun r => ?_
      cases r with
      | ok result => exact tracks_return fun _ _ => trivial
      | error e =>
        dsimp only
        split
        · have hstays : Stays IsQuiet (Over (Except.error e : Py String)) := fun _ _ _ _ => trivial
          refine tracks_then (reads_openJournal _ _) (Stays.reads hstays) (fun fresh => ?_)
            fun _ _ _ => trivial
          refine Tracks.bind (Q := fun _ => Over (Except.error e : Py String))
            (tracks_terminal hstays _ _ _ _ _ _) (fun _ => ?_) fun _ _ _ => trivial
          exact tracks_return fun _ _ => trivial
        · exact tracks_ofExcept fun _ _ => trivial
    · exact tracks_return fun _ _ => trivial

end Supplementary.Recovery
