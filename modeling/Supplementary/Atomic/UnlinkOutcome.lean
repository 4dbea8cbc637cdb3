/-
# How a removal ends

The parts of the module, one after the other, and from them the whole run: it ends with one printed
result, which is honest unless a step fails late, and no other process can make it remove a file
that it did not verify, except one that it had linked back.
-/
import Supplementary.Atomic.UnlinkRuns

namespace Supplementary.Atomic.Unlink

open Machine Posix

section

variable {p : Params} {target : Key PyStr} {quiet : Prop} {w₀ : World PyStr}
  {env : Machine.Env (World PyStr) Fault} {v q : Nat} {qn : PyStr} {info : Inode} {s : State}
  {before w : World PyStr} {t tq vq : Option Nat} (henv : Obeys env (Between quiet target.1))

/-! ## 1. Recovering -/

/-- The target was linked back, and is still in the quarantine too. -/
structure Linked (p : Params) (target : Key PyStr) (quiet : Prop) (w₀ : World PyStr) (v q : Nat)
    (qn : PyStr) (j : Nat) (s : State) : Prop where
  held : Held p target quiet w₀ v q qn s
  entry : s.world.lookup (q, "target") = some j
  restored : Restored target s.log j

theorem Held.parent_ne (h : Held p target quiet w₀ v q qn s) : target.1 ≠ q := by
  intro heq
  refine h.core.apart ?_
  rw [h.own, heq]
  exact List.mem_singleton_self q

/-- A step that does nothing keeps what is held. -/
theorem Held.idle {call : Call PyStr Outcome} {ok : Bool} (h : Held p target quiet w₀ v q qn s)
    (hbetween : Between quiet target.1 s.world before) (hprint : ∀ o, call ≠ .print o)
    (hrename : ok = true → ∀ k k', call ≠ .rename k k')
    (hlate : ¬ FailsLate s.log ⟨call, before, before, ok⟩) :
    Held p target quiet w₀ v q qn (after s call before before ok) :=
  (h.between hbetween).step (h.core.idle hbetween hrename) rfl rfl rfl hprint hlate

theorem addLink_eq_ok {i : Nat} {k : Key PyStr} {u : Unit} (h : before.addLink i k = .ok (u, w)) :
    before.lookup k = none ∧ w = (before.insert k i).touch i := by
  unfold World.addLink at h
  split at h
  · cases h
  · split at h
    · cases h
    · split at h
      · cases h
      · split at h
        · cases h
        · next hnone =>
          cases h
          exact ⟨by simpa using hnone, rfl⟩

include henv

/-- The quarantined entry is linked back, unless that fails. -/
theorem triple_linkBack {j : Nat} :
    Triple env (Stage p target quiet w₀ v q qn t (some j) (some v))
      (attempt (link (q, "target") target) : Sys _)
      (fun r s => match r with
        | .ok () => Linked p target quiet w₀ v q qn j s
        | .error _ => Held p target quiet w₀ v q qn s) (After p target quiet w₀) := by
  refine triple_attempt (triple_syscall henv (fun s before a w h hbetween hact => ?_)
    fun s before e h hbetween => ?_)
  · have hbefore := h.between hbetween
    have hentry : before.lookup (q, "target") = some j := by
      have hinside := hbefore.inside "target"
      rwa [if_pos rfl] at hinside
    cases hfind : before.find (q, "target") with
    | error e =>
      rw [hfind] at hact
      cases hact
    | ok st =>
      rw [hfind] at hact
      obtain ⟨hnone, rfl⟩ := addLink_eq_ok hact
      obtain rfl : j = st.ino := Option.some.inj (hentry.symm.trans (find_eq_ok hfind).1)
      have happart := hbefore.parent_ne
      have hne : ∀ n : PyStr, (q, n) ≠ target := fun n heq => happart (congrArg Prod.fst heq).symm
      have hj := (hbefore.core.wf.entry _ _ hentry).2
      have hlookup : ∀ k : Key PyStr, k ≠ target →
          ((before.insert target st.ino).touch st.ino).lookup k = before.lookup k := fun k hk => by
        rw [World.lookup_touch, World.lookup_insert_ne hk]
      have hname : (target.1, qn) ≠ target := fun heq => hbefore.free (congrArg Prod.snd heq)
      refine ⟨hbefore.held.step (hbefore.core.put hnone hbefore.core.parent hj nofun
        (Or.inr hbefore.unlinked)) rfl (hlookup _ hname) (hlookup _ (hne _)) nofun
          (fun hlate => nomatch hlate.1), ?_, ?_⟩
      · exact (hlookup _ (hne _)).trans hentry
      · refine ⟨[], _, s.log, rfl, ⟨_, rfl⟩, rfl, ?_, nofun⟩
        change ((before.insert target st.ino).touch st.ino).lookup target = _
        rw [World.lookup_touch, World.lookup_insert_self]
  · refine h.held.idle hbetween nofun nofun ?_
    rintro ⟨-, ⟨q, -, hcall⟩ | ⟨⟨i, hcall⟩, -⟩⟩ <;> cases hcall

/-- What was linked back may leave the quarantine. -/
theorem triple_unlinkBack {j : Nat} : Triple env (Linked p target quiet w₀ v q qn j)
    (attempt (unlink (q, "target")) : Sys _) (fun _ => Held p target quiet w₀ v q qn)
    (After p target quiet w₀) := by
  refine triple_attempt (triple_syscall henv (fun s before a w h hbetween hact => ?_)
    fun s before e h hbetween => ?_)
  · have hheld := h.held.between hbetween
    have happart := hheld.parent_ne
    have hmem : q ∈ s.world.own := by rw [h.held.own]; exact List.mem_singleton_self q
    have hentry : before.lookup (q, "target") = some j :=
      (hbetween.allowed.inside q hmem _).trans h.entry
    cases hfind : before.find (q, "target") with
    | error e =>
      rw [hfind] at hact
      cases hact
    | ok st =>
      simp only [hfind, Except.bind] at hact
      split at hact
      · cases hact
      · cases hact
        have hne : (q, ("target" : PyStr)) ≠ target := fun heq => happart (congrArg Prod.fst heq).symm
        refine hheld.step (hheld.core.take hentry hne (by intro k k' hcall; cases hcall)
          (Or.inr h.restored)) rfl ?_ ?_ (by intro o hcall; cases hcall) ?_
        · rw [World.lookup_touch, World.lookup_remove_ne fun heq => happart (congrArg Prod.fst heq)]
        · rw [World.lookup_touch, World.lookup_remove_ne]
          simp only [ne_eq, Prod.mk.injEq, true_and]
          decide
        · rintro ⟨hok, -⟩
          cases hok
  · refine h.held.idle hbetween (by intro o hcall; cases hcall)
      (by intro hok; cases hok) ?_
    rintro ⟨-, ⟨q, -, hcall⟩ | ⟨⟨i, hcall⟩, -⟩⟩ <;> cases hcall

/-- A quarantine that holds something is not removed. -/
theorem triple_removeRestored {restored : Bool} : Triple env (Held p target quiet w₀ v q qn)
    (removeRestored (target.1, qn) restored)
    (fun cleaned s => cleaned = false ∧ Held p target quiet w₀ v q qn s)
    (After p target quiet w₀) := by
  unfold removeRestored
  by_cases hrestored : restored = true
  · rw [if_pos hrestored]
    refine Triple.bind (Q := fun r s => (∃ e, r = .error e) ∧ Held p target quiet w₀ v q qn s)
      (triple_attempt (triple_syscall henv (fun s before a w h hbetween hact => ?_)
        fun s before e h hbetween => ?_)) fun r => triple_of_prop fun hr => ?_
    · have hheld := h.between hbetween
      exfalso
      cases hfind : before.find (target.1, qn) with
      | error e =>
        rw [hfind] at hact
        cases hact
      | ok st =>
        obtain rfl : q = st.ino := Option.some.inj (hheld.name.symm.trans (find_eq_ok hfind).1)
        simp only [hfind, Except.bind] at hact
        split at hact
        · cases hact
        · split at hact
          · next hempty =>
            have hnone := World.isEmpty_iff.mp hempty "verified"
            rw [hheld.link] at hnone
            cases hnone
          · cases hact
    · refine ⟨⟨e, rfl⟩, h.idle hbetween (by intro o hcall; cases hcall)
      (by intro hok; cases hok) ?_⟩
      rintro ⟨-, ⟨q, -, hcall⟩ | ⟨⟨i, hcall⟩, -⟩⟩ <;> cases hcall
    · obtain ⟨e, rfl⟩ := hr
      exact triple_pure fun s h => ⟨rfl, h⟩
  · rw [if_neg hrestored]
    exact triple_pure fun s h => ⟨rfl, h⟩

/-- Whatever can be recovered, the second hard link is reported. -/
theorem triple_recoverAndFail {j : Nat} {msg : String} {Q : Unit → State → Prop} :
    Triple env (Stage p target quiet w₀ v q qn t (some j) (some v))
      (recoverAndFail p target q qn msg) Q (After p target quiet w₀) := by
  have hrestore : Triple env (Stage p target quiet w₀ v q qn t (some j) (some v))
      (restoreQuarantinedFile target q) (fun _ => Held p target quiet w₀ v q qn)
      (After p target quiet w₀) := by
    refine (triple_linkBack henv).bind fun r => ?_
    cases r with
    | error e => exact triple_pure fun _ h => h
    | ok u => exact (triple_unlinkBack henv).bind fun _ => triple_pure fun _ h => h
  have hrecover : Triple env (Stage p target quiet w₀ v q qn t (some j) (some v))
      (recoverQuarantine target q qn)
      (fun r s => r.2 = false ∧ Held p target quiet w₀ v q qn s) (After p target quiet w₀) := by
    refine hrestore.bind fun restored => ?_
    exact (triple_removeRestored henv).bind fun cleaned => triple_pure fun _ h => h
  refine hrecover.bind fun r => triple_of_prop fun hcleaned => ?_
  obtain ⟨restored, cleaned⟩ := r
  obtain rfl : cleaned = false := hcleaned
  refine Triple.bind (Q := fun _ => Held p target quiet w₀ v q qn) (triple_pure fun _ h => h)
    fun _ => triple_failJson henv fun s h => h.settled rfl nofun nofun

/-! ## 2. Removing -/

/-- The quarantine is removed if it is empty. -/
theorem triple_rmdir {P : State → Prop} (k : Key PyStr) (hk : k.1 = target.1) (hown : ∀ s, P s → ∃ q ∈ s.world.own, s.world.lookup k = some q)
    {Q : Except Errno Unit → State → Prop} {E : Raised → State → Prop}
    (hremoved : ∀ s before q, P s → Between quiet target.1 s.world before → q ∈ s.world.own →
      s.world.lookup k = some q → before.isEmpty q = true →
      Q (.ok ()) (after s (.rmdir k) before (before.remove k) true))
    (hkept : ∀ s before e, P s → Between quiet target.1 s.world before →
      Q (.error e) (after s (.rmdir k) before before false)) :
    Triple env P (attempt (rmdir k) : Sys _) Q E := by
  refine triple_attempt (triple_syscall henv (fun s before a w h hbetween hact => ?_)
    fun s before e h hbetween => hkept s before e h hbetween)
  obtain ⟨q, hq, hname⟩ := hown s h
  have hname' : before.lookup k = some q := by
    have hmem := (hbetween.allowed.name q hq k.2).mpr
    rw [← hk] at hmem
    exact hmem hname
  cases hfind : before.find k with
  | error e =>
    rw [hfind] at hact
    cases hact
  | ok st =>
    obtain rfl : q = st.ino := Option.some.inj (hname'.symm.trans (find_eq_ok hfind).1)
    simp only [hfind, Except.bind] at hact
    split at hact
    · cases hact
    · split at hact
      · next hempty =>
        cases hact
        exact hremoved s before _ h hbetween hq hname hempty
      · cases hact

/-- The end of a removal. -/
theorem triple_removeQuarantine {Q : Unit → State → Prop} :
    Triple env (Stage p target quiet w₀ v q qn none none none)
      (removeQuarantine p (target.1, qn)) Q (After p target quiet w₀) := by
  have hsettled : ∀ warning s, Stage p target quiet w₀ v q qn none none none s →
      Settled p target quiet w₀
        { failed := false, changed := true, path := p.path, cleanupWarning := warning } [] s ∧
        Named target s := fun warning s h => h.settled nofun fun _ => rfl
  by_cases hfree : qn ≠ target.2
  · refine Triple.bind (Q := fun r s => match r with
      | .ok () => ∀ warning, Settled p target quiet w₀
        { failed := false, changed := true, path := p.path, cleanupWarning := warning } [] s
      | .error _ => Stage p target quiet w₀ v q qn none none none s)
      (triple_rmdir henv (target.1, qn) rfl (fun s h => ⟨q, ?_, h.name⟩)
        (fun s before q h hbetween hq hname hempty warning => ?_) fun s before e h hbetween =>
          h.look (plain_of rfl) (by nofun) hbetween) fun r => ?_
    · rw [h.own]
      exact List.mem_singleton_self q
    · exact (hsettled warning s h).1.rmdir hbetween rfl rfl hfree hq hname hempty
    · cases r with
      | error e => exact triple_exitJson henv fun s h => hsettled _ s h
      | ok u =>
        refine Triple.bind (Q := fun _ s => (∀ warning, Settled p target quiet w₀
          { failed := false, changed := true, path := p.path, cleanupWarning := warning } [] s) ∧
            Named target s) (triple_assign fun s h =>
              ⟨fun warning => ?_, fun _ hname => nomatch hname⟩) fun _ =>
              triple_exitJson henv fun s h => ⟨h.1 _, h.2⟩
        obtain ⟨⟨v', hcore, hgone⟩, hshown, hhonest⟩ := h warning
        exact ⟨⟨v', ⟨hcore.wf, hcore.parent, hcore.apart, hcore.clean, hcore.verified,
          hcore.displaced⟩, hgone⟩, hshown, hhonest⟩
  · exact triple_of_false fun s h => hfree h.free

/-- Removing a link of the verified file from the quarantine. -/
theorem triple_unlinkVerified {n : PyStr}
    (hn : (if n = "target" then tq else if n = "verified" then vq else none) = some v)
    {Q : Except Errno Unit → State → Prop} {E : Raised → State → Prop}
    (hremoved : ∀ s before, Stage p target quiet w₀ v q qn t (if n = "target" then none else tq)
        (if n = "verified" then none else vq)
        (after s (.unlink (q, n)) before ((before.remove (q, n)).touch v) true) →
      Q (.ok ()) (after s (.unlink (q, n)) before ((before.remove (q, n)).touch v) true))
    (hkept : ∀ s e, Stage p target quiet w₀ v q qn t tq vq s → Q (.error e) s) :
    Triple env (Stage p target quiet w₀ v q qn t tq vq) (attempt (unlink (q, n)) : Sys _) Q E := by
  refine triple_attempt (triple_syscall henv (fun s before a w h hbetween hact => ?_)
    fun s before e h hbetween => hkept _ e (h.look (plain_of rfl) (by nofun) hbetween))
  have hentry : before.lookup (q, n) = some v := ((h.between hbetween).inside n).trans hn
  cases hfind : before.find (q, n) with
  | error e =>
    rw [hfind] at hact
    cases hact
  | ok st =>
    obtain rfl : v = st.ino := Option.some.inj (hentry.symm.trans (find_eq_ok hfind).1)
    simp only [hfind, Except.bind] at hact
    split at hact
    · cases hact
    · cases hact
      exact hremoved s before (stage_of_unlink h hbetween hentry)

/-- After both removals only the close can fail, and then it fails late. -/
theorem triple_deleteVerified {Q : Unit → State → Prop} :
    Triple env (Stage p target quiet w₀ v q qn none none (some v))
      (deleteVerified p target.1 q qn) Q (After p target quiet w₀) := by
  let Removed : State → Prop := fun s => Stage p target quiet w₀ v q qn none none none s ∧
    ∃ u rest, s.log = u :: rest ∧ u.ok = true ∧ u.call = .unlink (q, "verified")
  have hunlink : Triple env (Stage p target quiet w₀ v q qn none none (some v))
      (attempt (unlink (q, "verified")) : Sys _) (fun r s => match r with
        | .ok () => Removed s
        | .error _ => Stage p target quiet w₀ v q qn none none (some v) s)
      (After p target quiet w₀) :=
    triple_unlinkVerified henv (n := "verified") rfl
      (fun s before h => ⟨h, _, _, rfl, rfl, rfl⟩) fun s e h => h
  refine hunlink.bind fun r => ?_
  cases r with
  | error e =>
    refine triple_exitJson henv fun s h => h.held.settled rfl ?_ fun _ hquiet => h.same hquiet
    intro _ i _ q' hq'
    rw [h.own] at hq'
    rw [List.mem_singleton.mp hq', h.inside, if_pos rfl]
    exact nofun
  | ok u =>
    refine Triple.bind (Q := fun _ => Stage p target quiet w₀ v q qn none none none)
      (triple_syscall henv (fun s before a w h hbetween hact => ?_) fun s before e h hbetween => ?_)
      fun _ => ?_
    · cases hact
      have hbefore := h.1.between hbetween
      exact hbefore.step (h.1.core.idle hbetween nofun) rfl rfl hbefore.inside hbefore.same nofun
        nofun fun hlate => nomatch hlate.1
    · obtain ⟨h, u, rest, hlog, hok, hcall⟩ := h
      have hbefore := h.between hbetween
      have hnone : ∀ n, before.lookup (q, n) = none := by
        intro n
        refine (hbefore.inside n).trans ?_
        split
        · rfl
        · split <;> rfl
      refine ⟨⟨⟨some v, h.core.idle hbetween nofun, nofun⟩, h.shown, fun hquiet => ?_⟩,
        (named_of_vars h.vars h.free h.own h.name).idle hbetween⟩
      refine iff_of_false (fun hhonest => ?_) (not_not_intro (Or.inl ⟨rfl, Or.inr ⟨⟨q, rfl⟩, u, rest,
        q, hlog, hok, hcall⟩⟩))
      rcases hhonest.failure rfl v (h.first hquiet) with htarget | ⟨q', hq', n, hn⟩
      · change before.lookup target = some v at htarget
        rw [show before.lookup target = none from hbefore.same hquiet] at htarget
        cases htarget
      · change q' ∈ before.own at hq'
        rw [show before.own = [q] from hbefore.own, List.mem_singleton] at hq'
        change before.lookup (q', n) = some v at hn
        rw [hq', hnone] at hn
        cases hn
    · refine Triple.bind (Q := fun _ => Stage p target quiet w₀ v q qn none none none)
        (triple_assign fun s h => ?_) fun _ => triple_removeQuarantine henv
      exact ⟨⟨h.core.wf, h.core.parent, h.core.apart, h.core.clean, h.core.verified,
        h.core.displaced⟩, h.own, h.name, h.free, h.inside, h.same, h.first, h.shown, h.onTime,
        h.unlinked, h.vars⟩

theorem triple_deleteTarget {Q : Unit → State → Prop} :
    Triple env (Stage p target quiet w₀ v q qn none (some v) (some v)) (deleteTarget p target q qn) Q
      (After p target quiet w₀) := by
  refine Triple.bind (Q := fun r s => match r with
    | .ok () => Stage p target quiet w₀ v q qn none none (some v) s
    | .error _ => Stage p target quiet w₀ v q qn none (some v) (some v) s)
    (triple_unlinkVerified henv (n := "target") rfl (fun s before h => h) fun s e h => h)
      fun r => ?_
  cases r with
  | error e => exact triple_recoverAndFail henv
  | ok u => exact triple_deleteVerified henv

/-- A look at the quarantined target. -/
theorem triple_statQuarantined {j : Nat} {P : State → Prop}
    (hstage : ∀ s, P s → Stage p target quiet w₀ v q qn t (some j) vq s)
    (hstable : ∀ s before ok, P s → Between quiet target.1 s.world before →
      P (after s (.stat (q, "target")) before before ok)) :
    Triple env P (stat (q, "target") : Sys _) (fun st s => st.ino = j ∧ P s)
      (fun e s => (∃ e', e = .os e') ∧ P s) := by
  refine (triple_reading henv hstable).weaken (fun _ h => h) (fun st s h => ⟨?_, h.1⟩)
    fun e s h => ⟨h.2, h.1⟩
  have hinside := (hstage s h.1).inside "target"
  rw [if_pos rfl] at hinside
  exact Option.some.inj ((find_eq_ok h.2).1.symm.trans hinside)

theorem triple_revalidate {final : Stat} {Q : Unit → State → Prop} :
    Triple env (Stage p target quiet w₀ v q qn none (some v) (some v))
      (revalidate p target v final q qn) Q (After p target quiet w₀) := by
  let Looked : State → Prop := Stage p target quiet w₀ v q qn none (some v) (some v)
  have hlook : Triple env Looked (attempt (do
      let finalQuarantine ← stat (q, "target")
      let finalChecksum ← checksumFd v
      pure (finalQuarantine, finalChecksum)) : Sys (Except Errno (Stat × PyStr)))
      (fun _ => Looked) (After p target quiet w₀) := by
    refine triple_attempt (Triple.bind (Q := fun _ => Looked) ?_ fun st => ?_)
    · refine (triple_statQuarantined henv (fun _ h => h) fun s before ok h hbetween =>
        h.look (plain_of rfl) (fun _ q' hcall => ?_) hbetween).weaken (fun _ h => h)
          (fun _ _ h => h.2) fun e s h => ?_
      · have hname : ("target" : PyStr) = "verified" := congrArg Prod.snd (Call.stat.inj hcall)
        exact absurd hname (by decide)
      · obtain ⟨⟨e', rfl⟩, h⟩ := h
        exact h
    · have hread : ∀ n, Triple env (fun s => Looked s ∧ Known v n s) (checksumFd v : Sys _)
          (fun _ => Looked) (fun e s => ∃ e', e = .os e' ∧ Looked s) := fun n =>
        (triple_checksumFd henv (fun s before call ok h hcall hne hbetween =>
          ⟨h.1.look hcall (fun _ => hne) hbetween, h.2.between hbetween⟩) (fun s h => h.2)
          fun s e h => ⟨e, rfl, h.1⟩).post fun _ _ h => h.1.1
      refine Triple.bind (Q := fun _ => Looked) ((triple_exists hread).weaken (fun s h => ?_)
        (fun _ _ h => h) fun e s h => ?_) fun checksum => triple_pure fun _ h => h
      · obtain ⟨n, hn, -⟩ := h.core.verified v rfl
        exact ⟨n, h, n, hn, .refl n⟩
      · obtain ⟨e', rfl, h⟩ := h
        exact h
  refine hlook.bind fun r => ?_
  cases r with
  | error e => exact triple_recoverAndFail henv
  | ok r =>
    obtain ⟨st, checksum⟩ := r
    simp only
    split
    · exact triple_deleteTarget henv
    · exact triple_recoverAndFail henv

theorem triple_inspect {final : Stat} {j : Nat} (hfinal : final.ino = v) {Q : Unit → State → Prop} :
    Triple env (Stage p target quiet w₀ v q qn none (some j) (some v))
      (inspect p target v final q qn) Q (After p target quiet w₀) := by
  let Moved : State → Prop := Stage p target quiet w₀ v q qn none (some j) (some v)
  have hstat : Triple env Moved (attempt (stat (q, "target")) : Sys _)
      (fun r s => match r with
        | .ok st => st.ino = j ∧ Moved s
        | .error _ => Moved s) (After p target quiet w₀) := by
    refine triple_attempt ((triple_statQuarantined henv (fun _ h => h) fun s before ok h hbetween =>
      h.look (plain_of rfl) (fun _ q' hcall => ?_) hbetween).weaken (fun _ h => h)
        (fun _ _ h => h) fun e s h => ?_)
    · have hname : ("target" : PyStr) = "verified" := congrArg Prod.snd (Call.stat.inj hcall)
      exact absurd hname (by decide)
    · obtain ⟨⟨e', rfl⟩, h⟩ := h
      exact h
  refine hstat.bind fun r => ?_
  cases r with
  | error e => exact triple_recoverAndFail henv
  | ok st =>
    refine triple_of_prop fun hino => ?_
    simp only
    by_cases hsame : final.sameIdentity st = true
    · obtain rfl : j = v := by rw [← hino, ← hfinal, Stat.ino_of_sameIdentity hsame]
      rw [if_pos hsame]
      exact triple_revalidate henv
    · rw [if_neg hsame]
      exact triple_recoverAndFail henv

/-! ## 3. The whole run -/

/-- The open file gets a second hard link in the quarantine; what fails late leaves it unreported. -/
theorem triple_preserveOpenFile {final : Stat} (hfinal : final.ino = v) :
    Triple env (fun s => Stage p target quiet w₀ v q qn (some v) none none s ∧
        Known v final.info s) (preserveOpenFile v q final)
      (fun _ => Stage p target quiet w₀ v q qn (some v) none (some v)) (After p target quiet w₀) := by
  let Second : State → Prop := fun s => Stage p target quiet w₀ v q qn (some v) none (some v) s ∧
    Known v final.info s
  refine Triple.bind (Q := fun _ => Second) (triple_syscall henv
    (fun s before a w h hbetween hact => ?_) fun s before e h hbetween => ?_) fun _ => ?_
  · obtain ⟨-, rfl⟩ := addLink_eq_ok hact
    obtain ⟨n, hn, hsame⟩ := h.2
    obtain ⟨n', hn', hsame'⟩ := hbetween.allowed.data v n hn
    obtain ⟨n'', hn'', hsame''⟩ := World.same_touch (w := before.insert (q, "verified") v) (i := v) hn'
    exact ⟨stage_of_link h.1 hbetween, n'', hn'', (hsame.trans hsame').trans hsame''⟩
  · exact (h.1.look (plain_of rfl) (by nofun) hbetween).settled (fun _ => rfl) nofun
  refine Triple.bind (Q := fun st s => final.sameIdentity st = true ∧
    Stage p target quiet w₀ v q qn (some v) none (some v) s) (triple_syscall henv
      (fun s before st w h hbetween hact => ?_) fun s before e h hbetween => ?_)
      fun st => triple_of_prop fun hsame => ?_
  · have hstage : Stage p target quiet w₀ v q qn (some v) none (some v)
        (after s (.stat (q, "verified")) before before true) :=
      h.1.look (plain_of rfl) (by nofun) hbetween
    cases hfind : before.find (q, "verified") with
    | error e =>
      rw [hfind] at hact
      cases hact
    | ok st' =>
      rw [hfind] at hact
      cases hact
      obtain ⟨hlookup, hinode⟩ := find_eq_ok hfind
      have hv : v = st.ino := Option.some.inj (hstage.held.link.symm.trans hlookup)
      obtain ⟨n, hn, hknown⟩ := hbetween.allowed.data v _ h.2.choose_spec.1
      rw [hv, hinode] at hn
      cases hn
      exact ⟨Stat.sameIdentity_of_same (hfinal.trans hv) (h.2.choose_spec.2.trans hknown), hstage⟩
  · have hbefore := h.1.between hbetween
    have hmem : q ∈ before.own := by
      rw [show before.own = [q] from hbefore.own]
      exact List.mem_singleton_self q
    refine ⟨⟨⟨some v, h.1.core.idle hbetween nofun, nofun⟩, h.1.shown, fun hquiet => ?_⟩,
      (named_of_vars h.1.vars h.1.free h.1.own h.1.name).idle hbetween⟩
    refine iff_of_false (fun hhonest => ?_) (not_not_intro (Or.inl ⟨rfl, Or.inl ⟨q, hmem, rfl⟩⟩))
    obtain ⟨_, _, _, hpath, -⟩ := hhonest.residue q hmem "verified" v hbefore.held.link
    cases hpath
  · rw [if_pos hsame]
    exact triple_pure fun _ h => h

/-- The directory that was just made is opened, or removed again. -/
theorem triple_openQuarantine : Triple env
    (fun s => Stage p target quiet w₀ v q qn (some v) none none s ∧ s.vars.quarantineName = none ∧
      Known v info s) (openQuarantine target.1 qn)
    (fun r s => r = (q, qn) ∧ Stage p target quiet w₀ v q qn (some v) none none s ∧ Known v info s)
    (After p target quiet w₀) := by
  let Made : State → Prop := fun s => Stage p target quiet w₀ v q qn (some v) none none s ∧
    s.vars.quarantineName = none ∧ Known v info s
  have hopen : Triple env Made (attempt (openDirectory (target.1, qn)) : Sys _)
      (fun r s => (∀ i, r = .ok i → i = q) ∧ Made s) (After p target quiet w₀) := by
    refine triple_attempt (triple_syscall henv (fun s before i w h hbetween hact => ?_)
      fun s before e h hbetween => ⟨(by intro i hi; cases hi),
        h.1.look (plain_of rfl) (by intro hok q hcall; cases hcall) hbetween, h.2.1, h.2.2.between hbetween⟩)
    cases hfind : before.find (target.1, qn) with
    | error e =>
      rw [hfind] at hact
      cases hact
    | ok st =>
      simp only [hfind, Except.bind] at hact
      split at hact
      · cases hact
        refine ⟨fun i hi => ?_, h.1.look (plain_of rfl) (by intro hok q hcall; cases hcall) hbetween,
          h.2.1, h.2.2.between hbetween⟩
        cases hi
        exact (Option.some.inj ((h.1.between hbetween).name.symm.trans (find_eq_ok hfind).1)).symm
      · cases hact
  refine hopen.bind fun r => ?_
  cases r with
  | ok i => exact triple_pure fun s h => ⟨by rw [h.1 i rfl], h.2.1, h.2.2.2⟩
  | error e =>
    refine Triple.bind (Q := fun _ s => Settled p target quiet w₀ (lost p) [] s ∧ Named target s)
      (triple_rmdir henv (target.1, qn) rfl (fun s h => ⟨q, ?_, h.2.1.name⟩)
        (fun s before q' h hbetween hq hname hempty => ?_) fun s before e h hbetween => ?_)
      fun _ => triple_raise fun _ h => h
    · rw [h.2.1.own]
      exact List.mem_singleton_self q
    · refine ⟨(h.2.1.settled (o := lost p) (fun _ => rfl) (by intro hset; cases hset)).1.rmdir hbetween rfl
        rfl h.2.1.free hq hname hempty, fun qn' hqn' => ?_⟩
      change s.vars.quarantineName = some qn' at hqn'
      rw [h.2.2.1] at hqn'
      cases hqn'
    · exact (h.2.1.look (plain_of rfl) (by intro hok q hcall; cases hcall) hbetween).settled (fun _ => rfl)
        (by intro hset; cases hset)

theorem triple_makePrivateQuarantine {uid gid : Nat} {names : List PyStr} {final : Stat}
    (hfree : quiet ∨ ∀ n ∈ names, n ≠ target.2) : Triple env (Ready p target quiet w₀ v final)
    (makePrivateQuarantine uid gid target.1 names)
    (fun r s => Stage p target quiet w₀ v r.1 r.2 (some v) none none s ∧ Known v final.info s)
    (After p target quiet w₀) := by
  induction names with
  | nil => exact triple_raise fun s h => h.opened.fresh.settled nofun
  | cons qn rest ih =>
    have hready : ∀ {s before} {ok : Bool} {call : Call PyStr Outcome},
        Ready p target quiet w₀ v final s → Plain call → Between quiet target.1 s.world before →
        Ready p target quiet w₀ v final (after s call before before ok) :=
      fun h hcall hbetween => ⟨h.opened.look hcall hbetween, h.ino, h.verified⟩
    refine Triple.bind (Q := fun r s => match r with
      | .ok () => ∃ q, Stage p target quiet w₀ v q qn (some v) none none s ∧
          s.vars.quarantineName = none ∧ Known v final.info s
      | .error _ => Ready p target quiet w₀ v final s)
      (triple_attempt (triple_syscall henv (fun s before a w h hbetween hact => ?_)
        fun s before e h hbetween => hready h (plain_of rfl) hbetween)) fun r => ?_
    · split at hact
      · cases hact
      · next hnone =>
        cases hact
        refine ⟨_, stage_of_mkdir h hbetween (by simpa using hnone)
          (hfree.imp_right fun hne => hne qn List.mem_cons_self), h.opened.fresh.vars, ?_⟩
        obtain ⟨n, hn, hsame⟩ := h.opened.data
        obtain ⟨n', hn', hsame'⟩ := hbetween.allowed.data v n hn
        refine ⟨n', ?_, hsame.trans hsame'⟩
        have hne : v ≠ before.next := by
          rintro rfl
          rw [(h.core.between hbetween).wf.inode _ (Nat.le_refl _)] at hn'
          cases hn'
        exact (Function.update_of_ne hne _ _).trans hn'
    · cases r with
      | ok u =>
        refine triple_exists fun q => (triple_openQuarantine henv).post fun r s h => ?_
        rw [h.1]
        exact h.2
      | error e =>
        have hrest := ih (hfree.imp_right fun hne n hn => hne n (List.mem_cons_of_mem _ hn))
        have hraise : ∀ e', Triple env (Ready p target quiet w₀ v final)
            (Program.raise (.os e') : Sys (Nat × PyStr))
            (fun r s => Stage p target quiet w₀ v r.1 r.2 (some v) none none s ∧
              Known v final.info s) (After p target quiet w₀) := fun e' =>
          triple_raise fun s h => h.opened.fresh.settled nofun
        cases e with
        | exist => exact hrest
        | _ => exact hraise _

theorem triple_removeVerified {uid gid : Nat} {names : List PyStr} {final : Stat}
    (hfree : quiet ∨ ∀ n ∈ names, n ≠ target.2) {Q : Unit → State → Prop} :
    Triple env (Ready p target quiet w₀ v final) (removeVerified p uid gid names target v final) Q
      (After p target quiet w₀) := by
  refine Triple.pre (P := fun s => final.ino = v ∧ Ready p target quiet w₀ v final s)
    (triple_of_prop fun hfinal => ?_) fun s h => ⟨h.ino, h⟩
  refine (triple_makePrivateQuarantine henv hfree).bind fun r => ?_
  obtain ⟨q, qn⟩ := r
  refine Triple.bind (Q := fun _ s => Stage p target quiet w₀ v q qn (some v) none none s ∧
    Known v final.info s) (triple_assign fun s h => ⟨?_, h.2⟩) fun _ => ?_
  · obtain ⟨h, -⟩ := h
    exact ⟨⟨h.core.wf, h.core.parent, h.core.apart, h.core.clean, h.core.verified,
      h.core.displaced⟩, h.own, h.name, h.free, h.inside, h.same, h.first, h.shown, h.onTime,
      h.unlinked, Or.inr rfl⟩
  refine (triple_preserveOpenFile henv hfinal).bind fun _ => ?_
  refine Triple.bind (Q := fun r s =>
      (∀ u, r = .ok u → ∃ j, Stage p target quiet w₀ v q qn none (some j) (some v) s) ∧
      (∀ e, r = .error e → Held p target quiet w₀ v q qn s))
    (triple_attempt (triple_syscall henv (fun s before a w h hbetween hact => ?_)
      fun s before e h hbetween => ?_)) fun r => ?_
  · have hnone : before.lookup (q, "target") = none := by
      have hinside := (h.between hbetween).inside "target"
      rwa [if_pos rfl] at hinside
    cases hfind : before.find target with
    | error e =>
      rw [hfind] at hact
      cases hact
    | ok st =>
      have hreplace : before.replaceable st (q, "target") = .ok () := by
        simp [World.replaceable, World.find, hnone]
      simp only [hfind, Except.bind, hreplace, hnone] at hact
      cases hact
      exact ⟨fun _ _ => ⟨st.ino, (stage_of_rename h hbetween (find_eq_ok hfind).1).2⟩,
        by intro e he; cases he⟩
  · refine ⟨(by intro u hu; cases hu), fun _ _ => ?_⟩
    refine h.held.idle hbetween (by intro o hcall; cases hcall) (by intro hok; cases hok) ?_
    rintro ⟨-, ⟨q, -, hcall⟩ | ⟨⟨i, hcall⟩, -⟩⟩ <;> cases hcall
  · cases r with
    | error e =>
      refine triple_failJson henv fun s h => ?_
      exact (h.2 e rfl).settled rfl (by intro hset; cases hset) (by intro hset; cases hset)
    | ok u => exact (triple_exists fun j => triple_inspect henv hfinal).pre fun s h => h.1 () rfl

theorem triple_body {uid gid : Nat} {names : List PyStr}
    (hfree : quiet ∨ ∀ n ∈ names, n ≠ target.2) {Q : Unit → State → Prop} :
    Triple env (Fresh p target quiet w₀) (body p uid gid names target) Q
      (After p target quiet w₀) := by
  refine (triple_verifyTarget henv).bind fun r => ?_
  by_cases hcheck : p.checkMode = true
  · simp only [if_pos hcheck]
    exact triple_exitJson henv fun s h => h.opened.fresh.settled fun _ => hcheck
  · simp only [if_neg hcheck]
    exact triple_removeVerified henv hfree

/-- After a result has been printed. -/
def Done (p : Params) (target : Key PyStr) (quiet : Prop) (w₀ : World PyStr) (s : State) : Prop :=
  ∃ o, Settled p target quiet w₀ o [o] s

theorem triple_closeOpen {fd : Option Nat} :
    Triple env (After p target quiet w₀ .exit) (closeOpen fd)
      (fun _ => After p target quiet w₀ .exit) (fun _ => Done p target quiet w₀) := by
  have hclose : ∀ i, ∀ s before ok, After p target quiet w₀ .exit s →
      Between quiet target.1 s.world before →
      After p target quiet w₀ .exit (after s (.close i) before before ok) := by
    rintro i s before ok ⟨o, hsettled, hnamed, hcalm⟩ hbetween
    have hlate : ¬ FailsLate s.log ⟨.close i, before, before, ok⟩ := by
      rintro ⟨-, ⟨q, -, hcall⟩ | ⟨-, u, rest, q, hlog, -, hcall⟩⟩
      · cases hcall
      · exact hcalm u rest hlog _ hcall
    refine ⟨o, hsettled.idle (.close i) ok hbetween (by nofun) hlate, hnamed.idle hbetween, ?_⟩
    intro u rest hlog k
    obtain rfl := (List.cons.inj hlog).1
    exact nofun
  cases fd with
  | none => exact triple_pure fun _ h => h
  | some i =>
    change Triple env _ (close i : Sys Unit) _ _
    refine triple_syscall henv (fun s before a w h hbetween hact => ?_) fun s before e h hbetween => ?_
    · cases hact
      exact hclose i s before true h hbetween
    · obtain ⟨o, hsettled, -⟩ := hclose i s before false h hbetween
      exact ⟨o, hsettled⟩

theorem triple_closeParent {i : Nat} : Triple env (fun s => ∃ o, Settled p target quiet w₀ o [o] s ∧
      Calm s.log) (close i : Sys Unit) (fun _ => Done p target quiet w₀)
      (fun _ => Done p target quiet w₀) := by
  have hclose : ∀ s before ok, (∃ o, Settled p target quiet w₀ o [o] s ∧ Calm s.log) →
      Between quiet target.1 s.world before →
      Done p target quiet w₀ (after s (.close i) before before ok) := by
    rintro s before ok ⟨o, hsettled, hcalm⟩ hbetween
    refine ⟨o, hsettled.idle (.close i) ok hbetween (by nofun) ?_⟩
    rintro ⟨-, ⟨q, -, hcall⟩ | ⟨-, u, rest, q, hlog, -, hcall⟩⟩
    · cases hcall
    · exact hcalm u rest hlog _ hcall
  refine triple_syscall henv (fun s before a w h hbetween hact => ?_) fun s before e h hbetween =>
    hclose s before false h hbetween
  cases hact
  exact hclose s before true h hbetween

/-- Whatever the last part does, the result stays settled. -/
theorem triple_cleanup : Triple env (After p target quiet w₀ .exit) (cleanup target.1)
    (fun _ => Done p target quiet w₀) (fun _ => Done p target quiet w₀) := by
  let Printed : State → Prop := After p target quiet w₀ .exit
  have hlocals : Triple env Printed (Program.locals : Sys Locals) (fun v s => v = s.vars ∧ Printed s)
      (fun _ => Done p target quiet w₀) := triple_locals fun s h => ⟨rfl, h⟩
  refine hlocals.bind fun v => (Triple.pre (triple_closeOpen henv) fun s h => h.2).bind fun _ => ?_
  refine hlocals.bind fun v => (Triple.pre (triple_closeOpen henv) fun s h => h.2).bind fun _ => ?_
  refine hlocals.bind fun v => ?_
  have hcalm : ∀ s, v = s.vars ∧ Printed s → ∃ o, Settled p target quiet w₀ o [o] s ∧ Calm s.log :=
    fun s h => ⟨h.2.choose, h.2.choose_spec.1, h.2.choose_spec.2.2⟩
  cases hname : v.quarantineName with
  | none => exact (triple_closeParent henv).pre hcalm
  | some qn =>
    refine Triple.bind (Q := fun _ s => ∃ o, Settled p target quiet w₀ o [o] s ∧ Calm s.log)
      (triple_rmdir henv (target.1, qn) rfl (fun s h => ?_)
        (fun s before q h hbetween hq hentry hempty => ?_) fun s before e h hbetween => ?_)
      fun _ => triple_closeParent henv
    · obtain ⟨hv, o, -, hnamed, -⟩ := h
      exact (hnamed qn (by rw [← hv, hname])).2
    · obtain ⟨hv, o, hsettled, hnamed, -⟩ := h
      refine ⟨o, hsettled.rmdir hbetween rfl rfl (hnamed qn (by rw [← hv, hname])).1 hq hentry hempty,
        ?_⟩
      intro u rest hlog k
      obtain rfl := (List.cons.inj hlog).1
      exact nofun
    · obtain ⟨hv, o, hsettled, -, -⟩ := h
      refine ⟨o, hsettled.idle (.rmdir (target.1, qn)) false hbetween (by nofun) ?_, ?_⟩
      · rintro ⟨-, ⟨q, -, hcall⟩ | ⟨⟨i, hcall⟩, -⟩⟩ <;> cases hcall
      · intro u rest hlog k
        obtain rfl := (List.cons.inj hlog).1
        exact nofun

/-- Every run ends with one settled result. -/
theorem triple_main {uid gid : Nat} {names : List PyStr}
    (hfree : quiet ∨ ∀ n ∈ names, n ≠ target.2) :
    Triple env (Fresh p target quiet w₀) (main p uid gid names target)
      (fun _ => Done p target quiet w₀) (fun _ => Done p target quiet w₀) := by
  have hbody : Triple env (Fresh p target quiet w₀) (attempt (body p uid gid names target))
      (fun r s => match r with
        | .ok () => After p target quiet w₀ .exit s
        | .error _ => Settled p target quiet w₀ (lost p) [] s ∧ Named target s)
      (fun _ => After p target quiet w₀ .exit) := by
    refine triple_attempt ((triple_body henv hfree).weaken (fun _ h => h) (fun _ _ h => h)
      fun e s h => ?_)
    cases e with
    | os e' => exact h
    | exit => exact h
  have hhandled : Triple env (Fresh p target quiet w₀) (do
      match ← attempt (body p uid gid names target) with
      | .ok () => pure ()
      | .error _ => failJson p "atomic unlink failed" : Sys Unit)
      (fun _ => After p target quiet w₀ .exit) (fun _ => After p target quiet w₀ .exit) := by
    refine hbody.bind fun r => ?_
    cases r with
    | ok u => exact triple_pure fun _ h => h
    | error e => exact triple_result henv (fun _ h => h) fun _ h => h
  exact hhandled.ensuring (fun _ => triple_cleanup henv) fun _ => triple_cleanup henv

omit henv

/-! ## 4. Removing without interference -/

/-- A directory to remove a file from, before the module has made anything. -/
structure Start (target : Key PyStr) (w : World PyStr) : Prop where
  wf : w.Wf
  parent : target.1 < w.next
  own : w.own = []

/-- The run of the module from a world. -/
def runFrom (p : Params) (uid gid : Nat) (names : List PyStr) (target : Key PyStr)
    (env : Machine.Env (World PyStr) Fault) (w : World PyStr) : State :=
  (main p uid gid names target env { world := w, log := [], vars := {} }).2

theorem Start.fresh (h : Start target w₀) :
    Fresh p target quiet w₀ { world := w₀, log := [], vars := {} } := by
  refine ⟨⟨h.wf, h.parent, ?_, trivial, nofun, ?_⟩, h.own, fun _ => rfl, rfl, id, nofun, rfl⟩
  · rw [h.own]
    exact List.not_mem_nil
  · rintro i ⟨e, he, -⟩
    cases he

theorem done_runFrom (p : Params) (uid gid : Nat) (names : List PyStr)
    (henv : Obeys env (Between quiet target.1)) (h : Start target w₀) (hfree : quiet ∨ ∀ n ∈ names, n ≠ target.2) :
    Done p target quiet w₀ (runFrom p uid gid names target env w₀) := by
  have hmain : Triple env (Fresh p target quiet w₀) (main p uid gid names target)
      (fun _ => Done p target quiet w₀) (fun _ => Done p target quiet w₀) := triple_main henv hfree
  have hmain := hmain _ h.fresh
  unfold runFrom
  split at hmain
  · next heq => rw [heq]; exact hmain
  · next heq => rw [heq]; exact hmain

/-- **A removal is honest, unless it fails late.**  Whatever calls fail, one result is printed.  If
it is a failure, the file that was there is still linked at the target or in the quarantine; if it
is a removal, the target is gone; and a quarantine with an entry in it is reported.  This is so
exactly if neither the look at the new hard link fails nor the close after its removal. -/
theorem unlink_honest (p : Params) (uid gid : Nat) (names : List PyStr) {target : Key PyStr}
    {w : World PyStr} (hstart : Start target w) (fault : Nat → Option Fault) :
    ∃ o, printed (runFrom p uid gid names target ⟨fault, fun _ w => w⟩ w).log = [o] ∧
      (Honest p target w o (runFrom p uid gid names target ⟨fault, fun _ w => w⟩ w).world ↔
        ¬ SomeFailsLate (runFrom p uid gid names target ⟨fault, fun _ w => w⟩ w).log) := by
  have henv : Obeys ⟨fault, fun _ w => w⟩ (Between True target.1) := fun _ w =>
    ⟨.refl _ w, fun _ => rfl⟩
  obtain ⟨o, hsettled⟩ := done_runFrom p uid gid names henv hstart (Or.inl trivial)
  exact ⟨o, hsettled.shown, hsettled.honest trivial⟩

/-- The arguments that name an empty file of the superuser. -/
def sampleParams : Params :=
  { path := "/d/a", directory := "/d", checksum := Sha256.hexdigest [], mode := 0o644, uid := 0,
    gid := 0, allowAbsent := false, checkMode := false }

/-- A directory with that file, and a file of somebody else. -/
def sampleWorld : World PyStr where
  inode i := match i with
    | 1 => some ⟨.directory, 0o755, 0, 0, [], 0, 0⟩
    | 2 => some ⟨.regular, 0o644, 0, 0, [], 0, 0⟩
    | 3 => some ⟨.regular, 0o600, 7, 7, [], 0, 0⟩
    | _ => none
  entries := [((1, "a"), 2), ((1, "b"), 3)]
  next := 4
  own := []

theorem start_sampleWorld : Start (1, "a") sampleWorld := by
  refine ⟨⟨fun k i hi => ?_, fun i hi => ?_⟩, by decide, rfl⟩
  · have hmem := World.lookup_mem hi
    simp only [sampleWorld, List.mem_cons, List.not_mem_nil, or_false, Prod.mk.injEq] at hmem
    rcases hmem with ⟨rfl, rfl⟩ | ⟨rfl, rfl⟩ <;> decide
  · obtain ⟨k, rfl⟩ := Nat.exists_eq_add_of_le' hi
    rfl

/-- A removal in which nothing fails. -/
theorem unlink_honest_sample :
    ∃ o, printed (runFrom sampleParams 0 0 ["q"] (1, "a") ⟨fun _ => none, fun _ w => w⟩
        sampleWorld).log = [o] ∧
      (Honest sampleParams (1, "a") sampleWorld o (runFrom sampleParams 0 0 ["q"] (1, "a")
          ⟨fun _ => none, fun _ w => w⟩ sampleWorld).world ↔
        ¬ SomeFailsLate (runFrom sampleParams 0 0 ["q"] (1, "a") ⟨fun _ => none, fun _ w => w⟩
          sampleWorld).log) :=
  unlink_honest sampleParams 0 0 ["q"] start_sampleWorld fun _ => none

/-- The look at the new hard link is step ten; where it fails, nothing reports the link. -/
def sampleFault : Nat → Option Fault
  | 10 => some (.fail (.other 5))
  | _ => none

theorem unlink_unreported : ∃ o,
    printed (runFrom sampleParams 0 0 ["q"] (1, "a") ⟨sampleFault, fun _ w => w⟩ sampleWorld).log =
      [o] ∧
    ¬ Honest sampleParams (1, "a") sampleWorld o
      (runFrom sampleParams 0 0 ["q"] (1, "a") ⟨sampleFault, fun _ w => w⟩ sampleWorld).world := by
  generalize hrun : runFrom sampleParams 0 0 ["q"] (1, "a") ⟨sampleFault, fun _ w => w⟩
    sampleWorld = s
  have hprinted : (printed s.log).map Outcome.recoveryPath = [none] := by
    rw [← hrun]
    decide +kernel
  have hleft : s.world.own = [4] ∧ s.world.lookup (4, "verified") = some 2 := by
    rw [← hrun]
    decide +kernel
  obtain ⟨o, ho, hpath⟩ := List.map_eq_singleton_iff.mp hprinted
  refine ⟨o, ho, fun hhonest => ?_⟩
  obtain ⟨_, _, _, hrecovery, -⟩ := hhonest.residue 4 (by simp [hleft.1]) "verified" 2 hleft.2
  rw [hpath] at hrecovery
  cases hrecovery

/-! ## 5. Removing among other processes -/

/-- Another process removes an entry of the parent directory, if it is not the module's. -/
def otherRemoves (k : Key PyStr) (w : World PyStr) : World PyStr :=
  if k.1 ∈ w.own ∨ ∃ q ∈ w.own, w.lookup k = some q then w else w.remove k

/-- Another process puts the file behind `k'` in the place of `k`. -/
def otherPuts (k k' : Key PyStr) (w : World PyStr) : World PyStr :=
  match w.lookup k' with
  | some i =>
    if (k.1 ∈ w.own ∨ ∃ q ∈ w.own, w.lookup k = some q) ∨ i ∈ w.own ∨ w.next ≤ k.1 then w
    else w.insert k i
  | none => w

theorem Allowed.trans {w'' : World PyStr} {w' : World PyStr} {parent : Nat}
    (h : Allowed parent w w') (h' : Allowed parent w' w'') : Allowed parent w w'' := by
  refine ⟨fun hwf => h'.wf (h.wf hwf), h.next.trans h'.next, h'.own.trans h.own,
    fun q hq n => ?_, fun q hq n => ?_, fun i n hn => ?_⟩
  · rw [h'.inside q (h.own.symm ▸ hq), h.inside q hq]
  · rw [h'.name q (h.own.symm ▸ hq), h.name q hq]
  · obtain ⟨n', hn', hsame⟩ := h.data i n hn
    obtain ⟨n'', hn'', hsame'⟩ := h'.data i n' hn'
    exact ⟨n'', hn'', hsame.trans hsame'⟩

theorem allowed_otherRemoves (parent : Nat) (k : Key PyStr) (w : World PyStr) :
    Allowed parent w (otherRemoves k w) := by
  unfold otherRemoves
  by_cases h : k.1 ∈ w.own ∨ ∃ q ∈ w.own, w.lookup k = some q
  · rw [if_pos h]
    exact .refl parent w
  · rw [if_neg h]
    push Not at h
    refine ⟨fun hwf => hwf.remove, Nat.le_refl _, rfl, fun q hq n => ?_, fun q hq n => ?_,
      fun i n hn => ⟨n, hn, .refl n⟩⟩
    · rw [World.lookup_remove_ne]
      rintro rfl
      exact h.1 hq
    · rw [World.lookup_remove]
      split
      · next heq =>
        refine iff_of_false ?_ (heq ▸ h.2 q hq)
        intro hnone
        cases hnone
      · exact Iff.rfl

theorem allowed_otherPuts (parent : Nat) (k k' : Key PyStr) (w : World PyStr) :
    Allowed parent w (otherPuts k k' w) := by
  unfold otherPuts
  split
  · next i hi =>
    split
    · exact .refl parent w
    · next h =>
      push Not at h
      refine ⟨fun hwf => hwf.insert h.2.2 (hwf.entry _ _ hi).2, Nat.le_refl _, rfl,
        fun q hq n => ?_, fun q hq n => ?_, fun i n hn => ⟨n, hn, .refl n⟩⟩
      · rw [World.lookup_insert_ne]
        rintro rfl
        exact h.1.1 hq
      · rw [World.lookup_insert]
        split
        · next heq =>
          refine iff_of_false (fun hsome => ?_) (heq ▸ h.1.2 q hq)
          exact h.2.1 (Option.some.inj hsome ▸ hq)
        · exact Iff.rfl
  · exact .refl parent w

/-- Somebody moves another file to the target right before it is moved into the quarantine, and
removes it again right after it was linked back. -/
def sampleOther : Nat → World PyStr → World PyStr
  | 11, w => otherRemoves (1, "b") (otherPuts (1, "a") (1, "b") w)
  | 14, w => otherRemoves (1, "a") w
  | _, w => w

theorem allowed_sampleOther (n : Nat) (w : World PyStr) : Allowed 1 w (sampleOther n w) := by
  unfold sampleOther
  split
  · exact (allowed_otherPuts 1 _ _ w).trans (allowed_otherRemoves 1 _ _)
  · exact allowed_otherRemoves 1 _ w
  · exact .refl 1 w

end

end Supplementary.Atomic.Unlink
