/-
# What a recovery adds to the journal

`recover` opens the journal once and claims an attempt only on top of the commit that it has opened.
So whatever it is answered, a claim that it sends is one for a commit in which the run was sealed and
its recovery was not closed, and the claim of the attempt four is one for a commit in which the
attempt three was claimed (`follows_of_asks`).  The other record that it adds is the terminal one.
-/
import Supplementary.Lib.Within
import Supplementary.Recovery.Workers

namespace Supplementary.Recovery

open Effects PyStr Native Continuation

variable {rt : Runtime} {α : Type}

/-! ## 1. Records -/

def root (runId : Int) : PyStr := "li259/" ++ ofInt runId

def seedPath (runId : Int) : PyStr := root runId ++ "/seed.json"

def terminalPath (runId : Int) : PyStr := root runId ++ "/terminal.json"

/-- A read of the journal showed a record at the path. -/
def SawSome (rt : Runtime) (h : History) (journal : Journal) (path : PyStr) : Prop :=
  ∃ record, record.isNone = false ∧ Saw rt h journal path record

/-- The run was seen to be sealed, and its recovery not to be closed. -/
structure Opened (rt : Runtime) (runId : Int) (h : History) (journal : Journal) : Prop where
  seed : SawSome rt h journal (seedPath runId)
  terminal : Saw rt h journal (terminalPath runId) .none

/-- The claim of the attempt before was seen, if that was no native one. -/
def Preceded (rt : Runtime) (runId : Int) (h : History) (journal : Journal) (number : Int) : Prop :=
  number = 4 → SawSome rt h journal (attemptPath runId 3)

/-- The commit closes the recovery of the run, or claims an attempt of it on top of the commit in which
the journal was seen to be as the attempt needs it. -/
inductive Follows (rt : Runtime) (runId : Int) (h : History) : Value → Prop
  | closes {journal : Journal} {raw : Bytes} :
      Follows rt runId h (commitPayload journal (terminalPath runId) raw)
  | claims {journal : Journal} {raw : Bytes} {number : Int} (hnumber : number = 3 ∨ number = 4)
      (hopened : Opened rt runId h journal) (hpreceded : Preceded rt runId h journal number) :
      Follows rt runId h (commitPayload journal (attemptPath runId number) raw)

/-- What may be asked for. -/
def InOrder (rt : Runtime) (runId : Int) (h : History) : ContinuationOp → Prop
  | .commit payload => Follows rt runId h payload
  | _ => True

theorem SawSome.append {h h' : History} {journal : Journal} {path : PyStr}
    (hsaw : SawSome rt h journal path) : SawSome rt (h ++ h') journal path := by
  rcases hsaw with ⟨record, hrecord, hsaw⟩
  exact ⟨record, hrecord, hsaw.append⟩

theorem lasts_opened {runId : Int} {journal : Journal} :
    Lasts fun h => Opened rt runId h journal :=
  fun _ _ hh => ⟨hh.seed.append, hh.terminal.append⟩

theorem lasts_preceded {runId number : Int} {journal : Journal} :
    Lasts fun h => Preceded rt runId h journal number :=
  fun _ _ hh hnumber => (hh hnumber).append

theorem lasts_saw {journal : Journal} {path : PyStr} {record : Value} :
    Lasts fun h => Saw rt h journal path record := fun _ _ hh => hh.append

theorem Follows.append {runId : Int} {h h' : History} {payload : Value}
    (hfollows : Follows rt runId h payload) : Follows rt runId (h ++ h') payload := by
  cases hfollows with
  | closes => exact .closes
  | claims hnumber hopened hpreceded =>
    exact .claims hnumber (lasts_opened _ _ hopened) (lasts_preceded _ _ hpreceded)

/-! ## 2. Operations that add no other record -/

/-- Not a commit, or one that adds a record at the path to the commit of the journal. -/
def AddsAt (journal : Journal) (path : PyStr) (op : ContinuationOp) : Prop :=
  ∀ payload, op = .commit payload → ∃ raw, payload = commitPayload journal path raw

def IsNoCommit (op : ContinuationOp) : Prop := ∀ payload, op ≠ .commit payload

theorem addsAt_of_read {journal : Journal} {path : PyStr} {op : ContinuationOp} (h : IsRead op) :
    AddsAt journal path op := by
  rintro payload rfl
  exact h.elim

theorem noCommit_of_read {op : ContinuationOp} (h : IsRead op) : IsNoCommit op := by
  rintro payload rfl
  exact h

variable {journal : Journal} {path : PyStr} {x : ContinuationAct α}

theorem Only.addsAt (hx : Only IsRead x) : Only (AddsAt journal path) x :=
  fun s tr op hasks => addsAt_of_read (hx s tr op hasks)

theorem Only.noCommit (hx : Only IsRead x) : Only IsNoCommit x :=
  fun s tr op hasks => noCommit_of_read (hx s tr op hasks)

theorem only_post (raw : Bytes) :
    Only (AddsAt journal path) (post (commitPayload journal path raw)) := by
  intro s tr op hasks
  cases s with
  | none =>
    obtain ⟨-, rfl⟩ := asks_call.mp hasks
    rintro payload ⟨⟩
    exact ⟨raw, rfl⟩
  | some budget => exact absurd hasks not_asks_ofExcept

theorem only_create (record : Value) : Only (AddsAt journal path) (create rt journal path record) := by
  have hreads : ∀ j p, Only (AddsAt journal path) (readJournal rt j p) :=
    fun j p => Only.addsAt (reads_readJournal rt j p)
  refine (hreads _ _).bind fun present => only_lift_bind fun _ => only_lift_bind fun raw => ?_
  refine Only.bind ((only_attempt (only_post raw)).bind fun answer => only_ofExcept) fun result => ?_
  refine only_lift_bind fun _ => only_lift_bind fun oid => (hreads _ _).bind fun readback => ?_
  exact only_ofExcept

theorem only_terminal (seed : Value) (reason : PyStr) (now : Now) (attempt : Value) :
    Only (AddsAt journal path) (terminal rt journal path seed reason now attempt) := by
  refine only_lift_bind fun entries => (only_create _).catching fun e => ?_
  split
  · exact (Only.addsAt (reads_readbackOnly _ _ _)).bind fun _ => only_ofExcept
  · exact only_ofExcept

theorem only_close (b : Bound) (reason : PyStr) (attempt : Value) :
    Only (AddsAt b.journal (b.path ++ "/terminal.json")) (b.close rt reason attempt) :=
  (only_terminal _ _ _ _).bind fun _ => only_pure

theorem only_rerun (b : Bound) (cause : Value) : Only IsNoCommit (b.rerun cause) := by
  refine only_lift_bind fun job => Only.bind (only_attempt ?_) fun answer => ?_
  · intro s tr op hasks
    cases s with
    | none =>
      obtain ⟨-, rfl⟩ := asks_call.mp hasks
      exact fun payload heq => by cases heq
    | some budget => exact absurd hasks not_asks_ofExcept
  · cases answer with
    | ok value => exact only_pure
    | error e =>
      dsimp only
      split
      · exact (Only.noCommit (reads_fetch _)).bind fun _ => only_pure
      · exact only_ofExcept

/-! ## 3. The rules for a recovery -/

section

variable {β : Type} {runId : Int} {P : History → Prop} {f : α → ContinuationAct β}

theorem inOrder_of_noCommit {h : History} {op : ContinuationOp} (hop : IsNoCommit op) :
    InOrder rt runId h op := by
  cases op with
  | commit payload => exact absurd rfl (hop payload)
  | _ => trivial

theorem within_noCommit (hx : Only IsNoCommit x) (hP : Lasts P) : Within (InOrder rt runId) P x :=
  Within.of_only hx hP fun _ _ _ hop => inOrder_of_noCommit hop

theorem within_read (hx : Only IsRead x) (hP : Lasts P) : Within (InOrder rt runId) P x :=
  within_noCommit (Only.noCommit hx) hP

/-- Reading first. -/
theorem within_then (hx : Only IsRead x) (hP : Lasts P)
    (hf : ∀ a, Within (InOrder rt runId) P (f a)) : Within (InOrder rt runId) P (x >>= f) :=
  (within_read hx hP).bind hP hf

theorem saw_of_ends {h tr : History} {s s' : Option Visibility} {record : Value}
    (hends : Ends (readJournal rt journal path) s tr (.ok record) s') :
    Saw rt (h ++ tr) journal path record :=
  ((tracks_readJournal stays_true journal path h s trivial).2 tr _ s' hends).saw record rfl

/-- What a read of the journal returns is seen from then on. -/
theorem within_readJournal {g : Value → ContinuationAct β} (hP : Lasts P)
    (hg : ∀ record, Within (InOrder rt runId) (fun h => P h ∧ Saw rt h journal path record) (g record)) :
    Within (InOrder rt runId) P (readJournal rt journal path >>= g) := by
  exact (within_read (reads_readJournal rt journal path) hP).learn hP
    (fun _ _ _ _ _ hends => saw_of_ends hends) hg

/-- The record that closes the recovery may always be added. -/
theorem within_closing (hx : Only (AddsAt journal (terminalPath runId)) x) (hP : Lasts P) :
    Within (InOrder rt runId) P x := by
  refine Within.of_only hx hP fun h op _ hop => ?_
  cases op with
  | commit payload =>
    obtain ⟨raw, rfl⟩ := hop payload rfl
    exact .closes
  | _ => trivial

end

/-! ## 4. One recovery -/

/-- It is the recovery of the run. -/
def Recovers (runId : Int) (b : Bound) : Prop := b.path = root runId

section

variable {runId : Int} {b : Bound}

theorem Recovers.attempt (hb : Recovers runId b) (number : Int) :
    b.attemptPath number = attemptPath runId number := by
  unfold Recovers at hb
  rw [Bound.attemptPath, attemptPath, hb, root]

theorem Recovers.terminal (hb : Recovers runId b) : b.path ++ "/terminal.json" = terminalPath runId := by
  unfold Recovers at hb
  rw [terminalPath, hb]

theorem within_close {P : History → Prop} (hb : Recovers runId b) (hP : Lasts P) (reason : PyStr)
    (attempt : Value) : Within (InOrder rt runId) P (b.close rt reason attempt) := by
  have hclose : Only (AddsAt b.journal (b.path ++ "/terminal.json")) (b.close rt reason attempt) :=
    only_close b reason attempt
  rw [hb.terminal] at hclose
  exact within_closing hclose hP

/-- A claim is made where the journal is as the attempt needs it. -/
theorem within_claim (hb : Recovers runId b) (policy : PyStr) (deadline : Int) {attempt : Int}
    (cause : Value) (hattempt : attempt = 3 ∨ attempt = 4) :
    Within (InOrder rt runId) (fun h => Opened rt runId h b.journal ∧ Preceded rt runId h b.journal attempt)
      (b.claim rt policy deadline attempt cause) := by
  have hlasts : Lasts fun h => Opened rt runId h b.journal ∧ Preceded rt runId h b.journal attempt :=
    lasts_opened.and lasts_preceded
  have hcreate : ∀ record, Within (InOrder rt runId)
      (fun h => Opened rt runId h b.journal ∧ Preceded rt runId h b.journal attempt)
      (create rt b.journal (b.attemptPath attempt) record) := by
    refine fun record => Within.of_only (only_create record) hlasts fun h op hh hop => ?_
    cases op with
    | commit payload =>
      obtain ⟨raw, rfl⟩ := hop payload rfl
      rw [hb.attempt]
      exact .claims hattempt hh.1 hh.2
    | _ => trivial
  refine within_lift_bind fun entries _ => within_lift_bind fun _ _ => ?_
  refine (hcreate _).attempt_bind hlasts fun created => ?_
  cases created with
  | error e =>
    dsimp only
    split
    · exact within_then (reads_readbackOnly _ _ _) hlasts fun _ => within_pure
    · exact within_ofExcept
  | ok u =>
    refine (within_read (reads_recheck b _ _ _ _ _ _) hlasts).attempt_bind hlasts fun checked => ?_
    cases checked with
    | ok u => exact within_noCommit (only_rerun b cause) hlasts
    | error e =>
      dsimp only
      split
      · exact within_then (reads_readbackOnly _ _ _) hlasts fun _ => within_pure
      · exact within_ofExcept

/-- The attempt four is tried only where the attempt three was seen to be claimed. -/
theorem within_retry (hb : Recovers runId b) (policy : PyStr) (deadline attempt : Int) (run : Value) :
    Within (InOrder rt runId)
      (fun h => Opened rt runId h b.journal ∧ Preceded rt runId h b.journal (attempt + 1))
      (b.retry rt policy deadline attempt run) := by
  have hlasts : Lasts fun h => Opened rt runId h b.journal ∧ Preceded rt runId h b.journal (attempt + 1) :=
    lasts_opened.and lasts_preceded
  refine (within_read (reads_cause b run) hlasts).attempt_bind hlasts fun found => ?_
  cases found with
  | error e =>
    dsimp only
    split
    · exact within_close hb hlasts _ _
    · exact within_ofExcept
  | ok cause =>
    refine within_lift_bind fun completed _ => within_lift_bind fun cooldown hcooldown => ?_
    split
    · exact within_pure
    · refine within_then (reads_readJournal _ _ _) hlasts fun claimed => ?_
      split
      · refine within_then (reads_electedClaimant _ _ _ _) hlasts fun elected => ?_
        split
        · exact within_claim hb _ _ _ (attempt_of_cooldown hcooldown)
        · exact within_then (reads_readbackOnly _ _ _) hlasts fun _ => within_pure
      · exact within_pure

theorem not_isNone_of_validateClaim {claim seed : Value} {number : Int} {u : Unit}
    (h : validateClaim claim seed number = .ok u) : claim.isNone = false := by
  obtain ⟨_, hclaim, -⟩ := bind_eq_ok.mp h
  obtain ⟨_, hall, hraise⟩ := bind_eq_ok.mp hclaim
  rw [raiseUnless_eq_ok.mp hraise] at hall
  have hdict := (allOf_cons hall).1
  cases claim with
  | none => cases hdict
  | _ => rfl

/-- Where the claims were found valid, the claim of the attempt three was seen if one is left to check. -/
theorem within_validateClaims {β : Type} {P : History → Prop} {g : Unit → ContinuationAct β} (left : Nat)
    (hP : Lasts P) (hg : Within (InOrder rt runId)
      (fun h => P h ∧ (0 < left → SawSome rt h b.journal (b.attemptPath 3))) (g ())) :
    Within (InOrder rt runId) P (b.validateClaims rt left 3 >>= g) := by
  refine (within_read (reads_validateClaims b left 3) hP).learn
    (K := fun _ h => 0 < left → SawSome rt h b.journal (b.attemptPath 3)) hP ?_ fun _ => hg
  intro h s tr a s' hends hleft
  cases left with
  | zero => exact absurd hleft (Nat.lt_irrefl 0)
  | succ left =>
    obtain ⟨tr₁, tr₂, claim, s₁, rfl, hread, hends⟩ := ends_bind_ok.mp hends
    obtain ⟨tr₃, tr₄, u, s₂, rfl, hvalid, -⟩ := ends_bind_ok.mp hends
    obtain ⟨rfl, hvalid, -⟩ := ends_lift.mp hvalid
    rw [← List.append_assoc]
    exact SawSome.append ⟨claim, not_isNone_of_validateClaim hvalid.symm, saw_of_ends hread⟩

theorem within_proceed (hb : Recovers runId b) (policy : PyStr) (deadline : Int) :
    Within (InOrder rt runId) (fun h => Opened rt runId h b.journal) (b.proceed rt policy deadline) := by
  refine within_then (reads_fetch _) lasts_opened fun run => within_lift_bind fun attempt _ => ?_
  split
  · exact within_pure
  · refine within_validateClaims _ lasts_opened ?_
    have hseen : Lasts fun h => Opened rt runId h b.journal ∧
        (0 < (attempt - 2).toNat → SawSome rt h b.journal (b.attemptPath 3)) :=
      lasts_opened.and fun _ _ hh hleft => (hh hleft).append
    refine within_lift_bind fun status _ => ?_
    split
    · exact within_pure
    · refine within_lift_bind fun conclusion _ => ?_
      split
      · exact within_close hb hseen _ _
      · split
        · exact within_close hb hseen _ _
        · refine (within_retry hb _ _ _ _).weaken fun h hh => ⟨hh.1, fun hfour => ?_⟩
          rw [← hb.attempt]
          exact hh.2 (by omega)

theorem within_contract (hb : Recovers runId b) (policy : PyStr) (deadline : Int) (observed : Value) :
    Within (InOrder rt runId) (fun h => Opened rt runId h b.journal)
      (b.contract rt policy deadline observed) := by
  refine within_then (reads_originalConsumption _ _ _) lasts_opened fun consumed => ?_
  split
  · refine (within_read (reads_checkContract b policy) lasts_opened).attempt_bind lasts_opened
      fun checked => ?_
    cases checked with
    | ok u => exact within_proceed hb policy deadline
    | error e =>
      dsimp only
      split
      · exact within_close hb lasts_opened _ _
      · exact within_ofExcept
  · exact within_pure

theorem within_observe (hb : Recovers runId b) (deadline attempt : Int) (observed : Value) :
    Within (InOrder rt runId) (fun h => Opened rt runId h b.journal)
      (b.observe rt deadline attempt observed) := by
  refine within_then (reads_observedCause b observed) lasts_opened fun cause => ?_
  split
  · exact within_pure
  · refine within_lift_bind fun completed _ => within_lift_bind fun cooldown _ => ?_
    split
    · refine within_then (reads_originalConsumption _ _ _) lasts_opened fun consumed => ?_
      split
      · exact (within_close hb lasts_opened _ _).bind lasts_opened fun _ => within_pure
      · exact within_pure
    · split
      · refine within_then (reads_electedClaimant _ _ _ _) lasts_opened fun elected => ?_
        split
        · exact within_pure
        · exact within_then (reads_readbackOnly _ _ _) lasts_opened fun _ => within_pure
      · exact within_pure

theorem within_recoverBound (hb : Recovers runId b) (policy : PyStr) :
    Within (InOrder rt runId) (fun h => Opened rt runId h b.journal) (recoverBound rt policy b) := by
  refine within_lift_bind fun _ _ => within_lift_bind fun deadline _ => ?_
  refine within_then (reads_fetch _) lasts_opened fun observed => within_lift_bind fun attempt _ => ?_
  split
  · next attempt =>
    split
    · refine within_then (reads_readJournal _ _ _) lasts_opened fun claimed => ?_
      split
      · refine within_lift_bind fun status _ => ?_
        dsimp only
        split
        · refine (within_observe hb _ _ _).bind lasts_opened fun ended => ?_
          cases ended with
          | some result => exact within_pure
          | none => exact within_contract hb _ _ _
        · exact within_contract hb _ _ _
      · exact within_pure
    · exact within_contract hb _ _ _
  · exact within_ofExcept

end

/-- **Every recovery adds its records in order**, whatever it is answered. -/
theorem within_recover (site : Site) (repo repoId : PyStr) (runId : Int) (source : PyStr) (now : Now) :
    Within (InOrder rt runId) (fun _ => True) (recover rt site repo repoId runId source now) := by
  have htrue : Lasts fun _ : History => True := lasts_true
  refine within_then (reads_writer _ _ _ _ _) htrue fun claimant => within_lift_bind fun path hpath => ?_
  obtain ⟨_, -, hroot⟩ := bind_eq_ok.mp hpath
  cases hroot
  refine within_then (reads_openJournal _ _) htrue fun journal => within_readJournal htrue fun seed => ?_
  have hseed : Lasts fun h : History => True ∧ Saw rt h journal (root runId ++ "/seed.json") seed :=
    htrue.and lasts_saw
  split
  · exact within_pure
  · next hsome =>
    refine within_readJournal hseed fun closed => ?_
    split
    · next hclosed =>
      cases eq_none_of_isNone hclosed
      refine within_lift_bind fun _ _ => ?_
      have hopened := (within_recoverBound
        (b := ⟨repo, repoId, runId, source, now, claimant, root runId, journal, seed⟩) rfl site.policy).weaken
        fun h (hh : (True ∧ Saw rt h journal (root runId ++ "/seed.json") seed) ∧
          Saw rt h journal (root runId ++ "/terminal.json") .none) =>
        (⟨⟨seed, Bool.eq_false_iff.mpr hsome, hh.1.2⟩, hh.2⟩ : Opened rt runId h journal)
      have hterminal : Lasts fun h => Saw rt h journal (root runId ++ "/terminal.json") .none := lasts_saw
      have hboth := hseed.and hterminal
      refine hopened.attempt_bind hboth fun r => ?_
      cases r with
      | ok result => exact within_pure
      | error e =>
        dsimp only
        split
        · refine within_then (reads_openJournal _ _) hboth fun fresh => ?_
          exact (within_closing (only_terminal _ _ _ _) hboth).bind hboth fun _ => within_pure
        · exact within_ofExcept
    · exact within_pure

/-- What a worker sends is in order. -/
theorem follows_of_asks {x : Worker} {repo repoId : PyStr} {runId : Int} {h : History} {payload : Value}
    (hasks : Asks (x.recover rt repo repoId runId) none h (.commit payload)) : Follows rt runId h payload :=
  within_recover x.site repo repoId runId x.source x.now [] none h (.commit payload) trivial hasks

end Supplementary.Recovery
