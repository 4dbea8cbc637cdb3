/-
# Runs of a removal

Each part of the module takes its stage to the next one, or leaves a settled result behind.  The
whole run therefore ends with one settled result, whatever fails and whatever other processes do.
-/
import Supplementary.Atomic.UnlinkSteps

namespace Supplementary.Atomic.Unlink

open Machine Posix

/-! ## 1. Settled results -/

section

variable {p : Params} {target : Key PyStr} {quiet : Prop} {w₀ : World PyStr} {s : State}
  {before w : World PyStr} {ok : Bool} {v q : Nat} {qn : PyStr} {t : Option Nat} {o : Outcome}
  {shown : List Outcome}

/-- The result of the handler that catches whatever is left. -/
def lost (p : Params) : Outcome := { failed := true, msg := "atomic unlink failed", path := p.path }

variable (p target quiet w₀) in
/-- What a raised exception leaves: the last handler still has to print, or a result was printed. -/
def After : Raised → State → Prop
  | .os _, s => Settled p target quiet w₀ (lost p) [] s ∧ Named target s
  | .exit, s => ∃ o, Settled p target quiet w₀ o [o] s ∧ Named target s ∧ Calm s.log

/-- Before the quarantine is made nothing has to be reported. -/
theorem Fresh.settled (h : Fresh p target quiet w₀ s) (hchanged : o.changed = true → p.checkMode = true) :
    Settled p target quiet w₀ o [] s ∧ Named target s := by
  refine ⟨⟨⟨none, h.core, fun _ i hi => nomatch hi⟩, h.shown, fun hquiet => ?_⟩, fun qn hqn => ?_⟩
  · refine iff_of_true ⟨fun _ i hi => Or.inl ?_, fun hset hcheck => ?_, fun q hq => ?_⟩ h.onTime
    · rw [h.same hquiet, hi]
    · rw [hchanged hset] at hcheck
      cases hcheck
    · rw [h.own] at hq
      cases hq
  · rw [h.vars] at hqn
    cases hqn

theorem named_of_vars (hvars : s.vars.quarantineName = none ∨ s.vars.quarantineName = some qn)
    (hfree : qn ≠ target.2) (hown : s.world.own = [q])
    (hname : s.world.lookup (target.1, qn) = some q) : Named target s := by
  intro qn' hqn'
  rcases hvars with hnone | hsome
  · rw [hnone] at hqn'
    cases hqn'
  · obtain rfl := Option.some.inj (hsome.symm.trans hqn')
    exact ⟨hfree, q, by rw [hown]; exact List.mem_singleton_self q, hname⟩

/-- With the second hard link there is something to report, and to recover. -/
theorem Held.settled (h : Held p target quiet w₀ v q qn s)
    (hpath : o.recoveryPath = some (verifiedPath p qn)) (hgone : Gone o (some v) s.world)
    (hremoval : o.changed = true → quiet → s.world.lookup target = none) :
    Settled p target quiet w₀ o [] s ∧ Named target s := by
  refine ⟨⟨⟨some v, h.core, hgone⟩, h.shown, fun hquiet => ?_⟩,
    named_of_vars h.vars h.free h.own h.name⟩
  have hq : q ∈ s.world.own := by rw [h.own]; exact List.mem_singleton_self q
  refine iff_of_true ⟨fun _ i hi => Or.inr ?_, fun hset _ => hremoval hset hquiet, ?_⟩ h.onTime
  · obtain rfl := Option.some.inj ((h.first hquiet).symm.trans hi)
    exact ⟨q, hq, "verified", h.link⟩
  · intro q' hq' n i _
    rw [h.own] at hq'
    obtain rfl := List.mem_singleton.mp hq'
    exact ⟨qn, "verified", v, hpath, h.name, h.link⟩

/-- An empty quarantine needs no report. -/
theorem Stage.settled (h : Stage p target quiet w₀ v q qn t none none s)
    (hfailed : o.failed = true → t = some v) (hremoval : o.changed = true → t = none) :
    Settled p target quiet w₀ o [] s ∧ Named target s := by
  have hempty : ∀ n, s.world.lookup (q, n) = none := by
    intro n
    rw [h.inside]
    split
    · rfl
    · split <;> rfl
  refine ⟨⟨⟨some v, h.core, ?_⟩, h.shown, fun hquiet => ?_⟩,
    named_of_vars h.vars h.free h.own h.name⟩
  · intro _ i _ q' hq'
    rw [h.own] at hq'
    rw [List.mem_singleton.mp hq', hempty]
    exact nofun
  · refine iff_of_true ⟨fun hfail i hi => Or.inl ?_, fun hset _ => ?_, fun q' hq' n i hn => ?_⟩
      h.onTime
    · rw [h.same hquiet, hfailed hfail, ← h.first hquiet, hi]
    · rw [h.same hquiet, hremoval hset]
    · rw [h.own] at hq'
      rw [List.mem_singleton.mp hq', hempty] at hn
      cases hn

/-- What is settled does not change while nothing is done. -/
theorem Settled.idle (call : Call PyStr Outcome) (ok : Bool)
    (h : Settled p target quiet w₀ o shown s) (hbetween : Between quiet target.1 s.world before)
    (hrename : ok = true → ∀ k k', call ≠ .rename k k')
    (hlate : ¬ FailsLate s.log ⟨call, before, before, ok⟩) :
    Settled p target quiet w₀ o (printed [⟨call, before, before, ok⟩] ++ shown)
      (after s call before before ok) := by
  obtain ⟨⟨v, hcore, hgone⟩, hshown, hhonest⟩ := h
  refine ⟨⟨v, hcore.idle hbetween hrename, ?_⟩, ?_, fun hquiet => ?_⟩
  · intro hset i hi q hq
    change q ∈ before.own at hq
    rw [hbetween.allowed.own] at hq
    change before.lookup (q, "target") ≠ some i
    rw [hbetween.allowed.inside q hq]
    exact hgone hset i hi q hq
  · rw [← hshown]
    exact @List.filterMap_append _ _ [_] s.log _
  · have hsome : SomeFailsLate (⟨call, before, before, ok⟩ :: s.log) ↔ SomeFailsLate s.log :=
      ⟨fun hsome => hsome.resolve_left hlate, Or.inr⟩
    change Honest p target w₀ o before ↔ ¬ SomeFailsLate (_ :: s.log)
    rw [hsome, ← hhonest hquiet, hbetween.still hquiet]

theorem Named.idle {call : Call PyStr Outcome} (h : Named target s)
    (hbetween : Between quiet target.1 s.world before) :
    Named target (after s call before before ok) := by
  intro qn hqn
  obtain ⟨hne, q, hq, hname⟩ := h qn hqn
  exact ⟨hne, q, hbetween.allowed.own.symm ▸ hq, (hbetween.allowed.name q hq qn).mpr hname⟩

/-- The removal of the empty quarantine leaves a settled result settled. -/
theorem Settled.rmdir {call : Call PyStr Outcome} {k : Key PyStr}
    (h : Settled p target quiet w₀ o shown s)
    (hbetween : Between quiet target.1 s.world before) (hcall : call = .rmdir k)
    (hk : k.1 = target.1) (hne : k.2 ≠ target.2) (hq : q ∈ s.world.own)
    (hname : s.world.lookup k = some q) (hempty : before.isEmpty q = true) :
    Settled p target quiet w₀ o shown (after s call before (before.remove k) true) := by
  obtain ⟨⟨v, hcore, hgone⟩, hshown, hhonest⟩ := h
  subst hcall
  have hallowed := hbetween.allowed
  have hkt : target ≠ k := fun heq => hne (heq ▸ rfl)
  have hkey : before.lookup k = some q := by
    have hmem := (hallowed.name q hq k.2).mpr
    rw [← hk] at hmem
    exact hmem hname
  have happart : ∀ q' ∈ before.own, ∀ n, (q', n) ≠ k := by
    intro q' hq' n heq
    have hnot := hcore.apart
    rw [← hallowed.own, ← hk, ← heq] at hnot
    exact hnot hq'
  have hinside : ∀ q' ∈ before.own, ∀ n, (before.remove k).lookup (q', n) = before.lookup (q', n) :=
    fun q' hq' n => World.lookup_remove_ne (happart q' hq' n)
  have hbefore := hcore.between hbetween
  have hcore' : Core p target v (after s (.rmdir k) before (before.remove k) true) := by
    refine hbefore.step hbefore.wf.remove (Nat.le_refl _) hbefore.apart (fun k' i hb ha => ?_)
      (fun i n hn => ⟨n, hn, .refl n⟩) (fun i _ hi => ?_) fun _ _ hcall => nomatch hcall
    · change before.lookup k' = some i at hb
      change (before.remove k).lookup k' ≠ some i at ha
      rw [World.lookup_remove] at ha
      split at ha
      · next heq =>
        obtain rfl : q = i := Option.some.inj (hkey.symm.trans (heq ▸ hb))
        exact Or.inr (Or.inr (Or.inl (hallowed.own.symm ▸ hq)))
      · exact absurd hb ha
    · rcases hi with ⟨q', hq', n, hn⟩ | hrest
      · exact Or.inl ⟨q', hq', n, by rw [hinside q' hq', hn]⟩
      · exact Or.inr (hrest.cons (World.lookup_remove_ne hkt))
  refine ⟨⟨v, hcore', ?_⟩, hshown, fun hquiet => ?_⟩
  · intro hset i hi q' hq'
    change (before.remove k).lookup (q', "target") ≠ some i
    rw [hinside q' hq', hallowed.inside q' (hallowed.own ▸ hq')]
    exact hgone hset i hi q' (hallowed.own ▸ hq')
  · have hlate : SomeFailsLate (⟨.rmdir k, before, before.remove k, true⟩ :: s.log) ↔
        SomeFailsLate s.log := by
      refine ⟨fun hsome => hsome.resolve_left ?_, Or.inr⟩
      rintro ⟨hok, -⟩
      cases hok
    change Honest p target w₀ o (before.remove k) ↔ ¬ SomeFailsLate (_ :: s.log)
    rw [hlate, ← hhonest hquiet, ← hbetween.still hquiet]
    refine ⟨fun hon => ⟨?_, ?_, ?_⟩, fun hon => ⟨?_, ?_, ?_⟩⟩
    · intro hfail i hi
      refine (hon.failure hfail i hi).imp (fun h => ?_) fun hin => ?_
      · rwa [World.lookup_remove_ne hkt] at h
      · obtain ⟨q', hq', n, hn⟩ := hin
        exact ⟨q', hq', n, by rwa [hinside q' hq'] at hn⟩
    · intro hset hcheck
      rw [← hon.removal hset hcheck, World.lookup_remove_ne hkt]
    · intro q' hq' n i hn
      obtain ⟨qn', entry, j, hpath, hname', hentry⟩ := hon.residue q' hq' n i (by rw [hinside q' hq', hn])
      refine ⟨qn', entry, j, hpath, ?_, by rwa [hinside q' hq'] at hentry⟩
      rw [World.lookup_remove] at hname'
      split at hname'
      · cases hname'
      · exact hname'
    · intro hfail i hi
      refine (hon.failure hfail i hi).imp (fun h => ?_) fun hin => ?_
      · rw [World.lookup_remove_ne hkt, h]
      · obtain ⟨q', hq', n, hn⟩ := hin
        exact ⟨q', hq', n, by rw [hinside q' hq', hn]⟩
    · intro hset hcheck
      rw [World.lookup_remove_ne hkt, hon.removal hset hcheck]
    · intro q' hq' n i hn
      rw [hinside q' hq'] at hn
      obtain ⟨qn', entry, j, hpath, hname', hentry⟩ := hon.residue q' hq' n i hn
      refine ⟨qn', entry, j, hpath, ?_, by rw [hinside q' hq', hentry]⟩
      rw [World.lookup_remove_ne, hname']
      rintro rfl
      obtain rfl : q = q' := Option.some.inj (hkey.symm.trans hname')
      rw [World.isEmpty_iff.mp hempty] at hn
      cases hn

end

/-! ## 2. Results and reads -/

section

variable {p : Params} {target : Key PyStr} {quiet : Prop} {w₀ : World PyStr}
  {env : Machine.Env (World PyStr) Fault} {α : Type} {P : State → Prop} {Q : α → State → Prop}

/-- A settled result is printed. -/
theorem triple_result (henv : Obeys env (Between quiet target.1)) {o : Outcome}
    {E : Raised → State → Prop}
    (h : ∀ s, P s → Settled p target quiet w₀ o [] s ∧ Named target s)
    (hexit : ∀ s, After p target quiet w₀ .exit s → E .exit s) :
    Triple env P (do print o; Program.raise .exit : Sys α) Q E := by
  have hprint : Triple env P (print o : Sys Unit) (fun _ => After p target quiet w₀ .exit) E := by
    refine triple_print henv fun s before hs hbetween => ?_
    obtain ⟨hsettled, hnamed⟩ := h s hs
    have hdone : Settled p target quiet w₀ o [o] (after s (.print o) before before true) :=
      hsettled.idle (.print o) true hbetween nofun fun hlate => nomatch hlate.1
    refine ⟨o, hdone, hnamed.idle hbetween, ?_⟩
    intro u rest hlog k
    obtain rfl := (List.cons.inj hlog).1
    exact nofun
  exact hprint.bind fun _ => triple_raise hexit

theorem triple_failJson (henv : Obeys env (Between quiet target.1)) {msg : String}
    {path : Option PyStr}
    (h : ∀ s, P s → Settled p target quiet w₀
      { failed := true, msg, path := p.path, recoveryPath := path } [] s ∧ Named target s) :
    Triple env P (failJson p msg path : Sys α) Q (After p target quiet w₀) :=
  triple_result henv h fun _ h => h

theorem triple_exitJson (henv : Obeys env (Between quiet target.1)) {changed : Bool}
    {warning : Option Errno} {path : Option PyStr}
    (h : ∀ s, P s → Settled p target quiet w₀
      { failed := false, changed, path := p.path, recoveryPath := path, cleanupWarning := warning }
        [] s ∧ Named target s) :
    Triple env P (exitJson p changed warning path : Sys α) Q (After p target quiet w₀) :=
  triple_result henv h fun _ h => h

/-- Before the quarantine is made a check either holds or fails the module. -/
theorem triple_require (henv : Obeys env (Between quiet target.1)) {holds : Bool} {msg : String}
    (h : ∀ s, P s → Fresh p target quiet w₀ s) :
    Triple env P (require p holds msg) (fun _ s => holds = true ∧ P s)
      (After p target quiet w₀) := by
  unfold require
  by_cases hholds : holds = true
  · rw [if_pos hholds]
    exact triple_pure fun s hs => ⟨hholds, hs⟩
  · rw [if_neg hholds]
    exact triple_failJson henv fun s hs => (h s hs).settled nofun

/-- An error before the quarantine is made leaves nothing to report. -/
theorem after_of_fresh {e : Raised} {s : State}
    (h : Fresh p target quiet w₀ s ∧ ∃ e', e = .os e') : After p target quiet w₀ e s := by
  obtain ⟨hfresh, e', rfl⟩ := h
  exact hfresh.settled nofun

end

/-! ## 3. Verifying -/

section

variable (p : Params) (target : Key PyStr) (quiet : Prop) (w₀ : World PyStr)

/-- The file `v` is open and has the data `n`. -/
structure Opened (v : Nat) (n : Inode) (s : State) : Prop where
  fresh : Fresh p target quiet w₀ s
  data : ∃ n', s.world.inode v = some n' ∧ n.Same n'
  first : quiet → w₀.lookup target = some v

/-- The file has been verified. -/
structure Ready (v : Nat) (final : Stat) (s : State) : Prop where
  opened : Opened p target quiet w₀ v final.info s
  ino : final.ino = v
  verified : Verified p final.info

variable {p target quiet w₀} {env : Machine.Env (World PyStr) Fault} {v : Nat} {n : Inode}
  {s : State} {before : World PyStr} {call : Call PyStr Outcome} {ok : Bool}

theorem Opened.look (h : Opened p target quiet w₀ v n s) (hcall : Plain call)
    (hbetween : Between quiet target.1 s.world before) :
    Opened p target quiet w₀ v n (after s call before before ok) := by
  obtain ⟨n', hn', hsame⟩ := h.data
  obtain ⟨n'', hn'', hsame'⟩ := hbetween.allowed.data v n' hn'
  exact ⟨h.fresh.look hcall hbetween, ⟨n'', hn'', hsame.trans hsame'⟩, h.first⟩

theorem find_eq_ok {w : World PyStr} {k : Key PyStr} {st : Stat} (h : w.find k = .ok st) :
    w.lookup k = some st.ino ∧ w.inode st.ino = some st.info := by
  unfold World.find at h
  split at h
  · cases h
  · next i hi =>
    split at h
    · cases h
    · next n hn =>
      cases h
      exact ⟨hi, hn⟩

variable (henv : Obeys env (Between quiet target.1))

include henv

theorem triple_statTarget : Triple env (Fresh p target quiet w₀) (statTarget p target)
    (fun _ => Fresh p target quiet w₀) (After p target quiet w₀) := by
  have hstat : Triple env (Fresh p target quiet w₀) (attempt (stat target) : Sys _)
      (fun _ => Fresh p target quiet w₀) (After p target quiet w₀) := by
    refine triple_attempt ((triple_reading henv fun s before ok h hbetween =>
      h.look (plain_of rfl) hbetween).weaken (fun _ h => h) (fun _ _ h => h.1)
        fun e s h => ?_)
    obtain ⟨hfresh, e', rfl⟩ := h
    exact hfresh
  refine hstat.bind fun r => ?_
  split
  · exact triple_pure fun _ h => h
  · split
    · exact triple_exitJson henv fun s h => h.settled nofun
    · exact triple_failJson henv fun s h => h.settled nofun
  · exact triple_raise fun s h => after_of_fresh ⟨h, _, rfl⟩

theorem triple_checkChecksum : Triple env (Fresh p target quiet w₀) (checkChecksum p)
    (fun _ => Fresh p target quiet w₀) (After p target quiet w₀) := by
  unfold checkChecksum
  split <;> exact (triple_require henv fun _ h => h).post fun _ _ h => h.2

/-- The checksum of an open file is the one of its data. -/
theorem triple_checksumFd {P : State → Prop} {E : Raised → State → Prop}
    (hstable : ∀ s before call ok, P s → Plain call → (∀ q, call ≠ .stat (q, "verified")) →
      Between quiet target.1 s.world before → P (after s call before before ok))
    (hdata : ∀ s, P s → ∃ n', s.world.inode v = some n' ∧ n.Same n')
    (herror : ∀ s e, P s → E (.os e) s) :
    Triple env P (checksumFd v) (fun checksum s => P s ∧ checksum = Sha256.hexdigest n.bytes) E := by
  have hos : ∀ (e : Raised) s, (P s ∧ ∃ e', e = .os e') → E e s := by
    rintro e s ⟨hs, e', rfl⟩
    exact herror s e' hs
  have hread : ∀ s before ok, P s → Between quiet target.1 s.world before →
      P (after s (.read v) before before ok) := fun s before ok hs hbetween =>
    hstable s before (.read v) ok hs (plain_of rfl) nofun hbetween
  have hmore : ∀ m, Triple env P (readMore v m : Sys Unit) (fun _ => P) E := by
    intro m
    induction m with
    | zero => exact triple_pure fun _ hs => hs
    | succ m ih =>
      refine ((triple_looking henv hread).weaken (fun _ hs => hs) (fun _ _ h => h) hos).bind fun _ => ?_
      exact ih.pre fun _ hs => hs.1
  refine ((triple_looking henv fun s before ok hs hbetween =>
    hstable s before (.seek v) ok hs (plain_of rfl) nofun hbetween).weaken (fun _ hs => hs)
      (fun _ _ h => h.1) hos).bind fun _ => ?_
  refine Triple.bind (Q := fun bytes s => P s ∧ bytes = n.bytes) ?_ fun bytes => ?_
  · refine ((triple_looking henv hread).weaken (fun _ hs => hs) (fun _ _ h => h) hos).bind fun bytes => ?_
    refine Triple.bind (Q := fun _ s => P s ∧ bytes = n.bytes) ?_ fun _ => triple_pure fun _ hs => hs
    intro s hs
    have hbytes : bytes = n.bytes := by
      obtain ⟨n', hn', hsame⟩ := hdata s hs.1
      rw [hs.2, hn', hsame]
      rfl
    exact ((hmore _).post fun _ _ h => ⟨h, hbytes⟩) s hs.1
  · exact triple_pure fun _ hs => ⟨hs.1, congrArg _ hs.2⟩

/-- A read before the quarantine is made. -/
theorem triple_looking_opened {α : Type} {call : Call PyStr Outcome}
    {look : World PyStr → Except Errno α} (hcall : Plain call) :
    Triple env (Opened p target quiet w₀ v n) (syscall call fun w => (look w).map fun a => (a, w))
      (fun a s => Opened p target quiet w₀ v n s ∧ look s.world = .ok a)
      (After p target quiet w₀) :=
  (triple_reading henv fun _ _ _ h hbetween => h.look hcall hbetween).weaken (fun _ h => h)
    (fun _ _ h => h) fun _ _ h => after_of_fresh ⟨h.1.fresh, h.2⟩

theorem triple_openTarget : Triple env (Fresh p target quiet w₀) (openAt target)
    (fun fd s => Fresh p target quiet w₀ s ∧ (quiet → w₀.lookup target = some fd))
    (After p target quiet w₀) := by
  have hopen : Triple env (Fresh p target quiet w₀) (openAt target)
      (fun fd s => Fresh p target quiet w₀ s ∧
        (s.world.find target).map (fun st => st.ino) = .ok fd) (After p target quiet w₀) := by
    refine triple_syscall henv (fun s before fd w h hbetween hact => ?_) fun s before e h hbetween =>
      (h.look (plain_of rfl) hbetween).settled nofun
    cases hfind : before.find target with
    | error e => simp [hfind, Except.map] at hact
    | ok st =>
      simp only [hfind, Except.map, Except.ok.injEq, Prod.mk.injEq] at hact
      obtain ⟨rfl, rfl⟩ := hact
      refine ⟨h.look (plain_of rfl) hbetween, ?_⟩
      change (before.find target).map _ = _
      rw [hfind]
      rfl
  refine hopen.post fun fd s h => ⟨h.1, fun hquiet => ?_⟩
  cases hfind : s.world.find target with
  | error e => simp [hfind, Except.map] at h
  | ok st =>
    obtain ⟨hfresh, hino⟩ := h
    rw [hfind] at hino
    cases hino
    rw [← hfresh.same hquiet, (find_eq_ok hfind).1]

/-- What is verified is open, and has the type, mode, owner and checksum that are asked for. -/
theorem triple_verifyTarget : Triple env (Fresh p target quiet w₀) (verifyTarget p target)
    (fun r => Ready p target quiet w₀ r.1 r.2) (After p target quiet w₀) := by
  refine (triple_checkChecksum henv).bind fun _ => ?_
  refine (triple_statTarget henv).bind fun first => ?_
  refine (triple_require henv fun _ h => h).bind fun _ => triple_of_prop fun _ => ?_
  refine (triple_require henv fun _ h => h).bind fun _ => triple_of_prop fun _ => ?_
  refine (triple_require henv fun _ h => h).bind fun _ => triple_of_prop fun _ => ?_
  refine (triple_openTarget henv).bind fun fd => ?_
  refine Triple.bind (Q := fun _ s => Fresh p target quiet w₀ s ∧
      (quiet → w₀.lookup target = some fd)) (triple_assign fun s h => ?_) fun _ => ?_
  · obtain ⟨h, hfirst⟩ := h
    exact ⟨⟨⟨h.core.wf, h.core.parent, h.core.apart, h.core.clean, h.core.verified, h.core.displaced⟩,
      h.own, h.same, h.shown, h.onTime, h.unlinked, h.vars⟩, hfirst⟩
  refine Triple.bind (Q := fun opened s => opened.ino = fd ∧
    Opened p target quiet w₀ fd opened.info s) ?_ fun opened => triple_of_prop fun hino => ?_
  · refine triple_syscall henv (fun s before a w h hbetween hact => ?_) fun s before e h hbetween =>
      (h.1.look (plain_of rfl) hbetween).settled nofun
    split at hact
    · next n hn =>
      cases hact
      exact ⟨rfl, h.1.look (plain_of rfl) hbetween, ⟨n, hn, .refl n⟩, h.2⟩
    · cases hact
  refine (triple_require henv fun _ h => h.fresh).bind fun _ => triple_of_prop fun _ => ?_
  refine (triple_checksumFd henv (fun s before call ok h hcall _ hbetween => h.look hcall hbetween)
    (fun s h => h.data) fun s e h => h.fresh.settled nofun).bind fun checksum => ?_
  refine Triple.pre (P := fun s => checksum = Sha256.hexdigest opened.info.bytes ∧
    Opened p target quiet w₀ fd opened.info s) (triple_of_prop fun hchecksum => ?_)
    fun s h => ⟨h.2, h.1⟩
  refine (triple_require henv fun _ h => h.fresh).bind fun _ => triple_of_prop fun hexpected => ?_
  refine Triple.bind (Q := fun final s => (final.ino = fd ∧ opened.info.Same final.info) ∧
    Opened p target quiet w₀ fd final.info s) ?_ fun final => triple_of_prop fun hfinal => ?_
  · refine triple_syscall henv (fun s before a w h hbetween hact => ?_) fun s before e h hbetween =>
      (h.fresh.look (plain_of rfl) hbetween).settled nofun
    split at hact
    · next n hn =>
      cases hact
      have hlook : Opened p target quiet w₀ fd opened.info (after s (.fstat fd) before before true) :=
        h.look (plain_of rfl) hbetween
      obtain ⟨n', hn', hsame⟩ := hlook.data
      obtain rfl : n = n' := Option.some.inj (hn.symm.trans hn')
      exact ⟨⟨rfl, hsame⟩, hlook.fresh, ⟨n, hn, .refl n⟩, h.first⟩
    · cases hact
  refine (triple_looking_opened henv (plain_of rfl)).bind fun finalName => ?_
  refine (triple_require henv fun _ h => h.1.fresh).bind fun _ => triple_of_prop fun _ => ?_
  refine (triple_require henv fun _ h => h.1.fresh).bind fun _ => triple_of_prop fun hmatch => ?_
  refine triple_pure fun s h => ⟨?_, hfinal.1, hmatch, ?_⟩
  · rw [hfinal.1] at *
    exact h.1
  · have hbytes : final.info.bytes = opened.info.bytes := by rw [hfinal.2]
    rw [hbytes, ← hchecksum]
    exact of_decide_eq_true hexpected

end

/-! ## 4. The quarantine -/

section

variable {p : Params} {target : Key PyStr} {quiet : Prop} {w₀ : World PyStr}
  {env : Machine.Env (World PyStr) Fault} {v q : Nat} {qn : PyStr} {info : Inode} {s : State}
  {before w : World PyStr} {t tq vq : Option Nat}

/-- The inode has this data. -/
def Known (v : Nat) (info : Inode) (s : State) : Prop :=
  ∃ n, s.world.inode v = some n ∧ info.Same n

theorem Known.between {call : Call PyStr Outcome} {ok : Bool} (h : Known v info s)
    (hbetween : Between quiet target.1 s.world before) :
    Known v info (after s call before before ok) := by
  obtain ⟨n, hn, hsame⟩ := h
  obtain ⟨n', hn', hsame'⟩ := hbetween.allowed.data v n hn
  exact ⟨n', hn', hsame.trans hsame'⟩

theorem Ready.core {final : Stat} (h : Ready p target quiet w₀ v final s) :
    Core p target (some v) s := by
  have hcore := h.opened.fresh.core
  obtain ⟨n, hn, hsame⟩ := h.opened.data
  refine ⟨hcore.wf, hcore.parent, hcore.apart, hcore.clean.mono, fun i hi => ?_, fun i hi _ => ?_⟩
  · cases hi
    exact ⟨n, hn, h.verified.same p hsame⟩
  · exact hcore.displaced i hi nofun

/-- The quarantine that was just made. -/
theorem stage_of_mkdir {final : Stat} {mode uid gid : Nat}
    (h : Ready p target quiet w₀ v final s) (hbetween : Between quiet target.1 s.world before)
    (hnone : before.lookup (target.1, qn) = none) (hfree : quiet ∨ qn ≠ target.2) :
    Stage p target quiet w₀ v before.next qn (some v) none none
      (after s (.mkdir (target.1, qn)) before
        { before.create (target.1, qn) ⟨.directory, mode, uid, gid, [], 0, 0⟩ with
          own := before.next :: before.own } true) := by
  have hfresh := h.opened.fresh
  have hown : before.own = [] := hbetween.allowed.own.trans hfresh.own
  have hcore := h.core.between hbetween
  have hfirst : quiet → before.lookup target = some v := fun hquiet => by
    rw [hbetween.still hquiet, hfresh.same hquiet, h.opened.first hquiet]
  have hne : qn ≠ target.2 := by
    rintro rfl
    rcases hfree with hquiet | hne
    · rw [hfirst hquiet] at hnone
      cases hnone
    · exact hne rfl
  have hkt : target ≠ (target.1, qn) := fun heq => hne (congrArg Prod.snd heq).symm
  have hkeeps : ∀ k i, before.lookup k = some i →
      (before.create (target.1, qn) ⟨.directory, mode, uid, gid, [], 0, 0⟩).lookup k = some i := by
    intro k i hk
    rw [World.lookup_create, if_neg, hk]
    rintro rfl
    rw [hnone] at hk
    cases hk
  have hcore' : Core p target (some v) (after s (.mkdir (target.1, qn)) before
      { before.create (target.1, qn) ⟨.directory, mode, uid, gid, [], 0, 0⟩ with
        own := before.next :: before.own } true) := by
    have hwf : (before.create (target.1, qn) ⟨.directory, mode, uid, gid, [], 0, 0⟩).Wf :=
      hcore.wf.create hcore.parent
    refine hcore.step ⟨hwf.entry, hwf.inode⟩ (Nat.le_succ _) ?_
      (fun k i hb ha => absurd (hkeeps k i hb) ha) (fun i n hn => ⟨n, ?_, .refl n⟩) (fun i _ hi => ?_)
      fun _ _ hcall => nomatch hcall
    · change target.1 ∉ before.next :: before.own
      rw [hown, List.mem_singleton]
      exact Nat.ne_of_lt hcore.parent
    · have hlt : i ≠ before.next := by
        rintro rfl
        rw [hcore.wf.inode _ (Nat.le_refl _)] at hn
        cases hn
      exact (Function.update_of_ne hlt _ _).trans hn
    · rcases hi with ⟨q, hq, -⟩ | hrest
      · rw [hown] at hq
        cases hq
      · exact absurd hrest (hfresh.unlinked.not_restored i)
  refine ⟨hcore', ?_, ?_, hne, fun n => ?_, fun hquiet => ?_, h.opened.first, ?_, ?_, ?_, Or.inl hfresh.vars⟩
  · change before.next :: before.own = _
    rw [hown]
  · change (before.create (target.1, qn) ⟨.directory, mode, uid, gid, [], 0, 0⟩).lookup _ = _
    rw [World.lookup_create, if_pos rfl]
  · have hfree : before.lookup (before.next, n) = none := by
      cases hlookup : before.lookup (before.next, n) with
      | none => rfl
      | some i => exact absurd (hcore.wf.entry _ i hlookup).1 (Nat.lt_irrefl _)
    have hneq : (before.next, n) ≠ (target.1, qn) := fun heq =>
      absurd (congrArg Prod.fst heq).symm (Nat.ne_of_lt hcore.parent)
    change (before.create (target.1, qn) ⟨.directory, mode, uid, gid, [], 0, 0⟩).lookup _ = _
    rw [World.lookup_create, if_neg hneq, hfree]
    split
    · rfl
    · split <;> rfl
  · exact hkeeps target v (hfirst hquiet)
  · exact hfresh.shown
  · exact fun hsome => hsome.elim (fun hlate => nomatch hlate.1) hfresh.onTime
  · exact List.forall_mem_cons.mpr ⟨nofun, hfresh.unlinked⟩

theorem Stage.parent_ne (h : Stage p target quiet w₀ v q qn t tq vq s) : target.1 ≠ q := by
  intro heq
  refine h.core.apart ?_
  rw [h.own, heq]
  exact List.mem_singleton_self q

/-- The second hard link is there. -/
theorem stage_of_link (h : Stage p target quiet w₀ v q qn (some v) none none s)
    (hbetween : Between quiet target.1 s.world before) :
    Stage p target quiet w₀ v q qn (some v) none (some v)
      (after s (.linkTo v (q, "verified")) before
        ((before.insert (q, "verified") v).touch v) true) := by
  have hbefore := h.between hbetween
  have hnone : before.lookup (q, "verified") = none := by
    have hinside := hbefore.inside "verified"
    rwa [if_neg (by decide), if_pos rfl] at hinside
  have hq : q < before.next := (hbefore.core.wf.entry _ _ hbefore.name).2
  have happart := hbefore.parent_ne
  have hv : v < before.next := by
    obtain ⟨n, hn, -⟩ := hbefore.core.verified v rfl
    by_contra hle
    rw [hbefore.core.wf.inode v (Nat.le_of_not_lt hle)] at hn
    cases hn
  refine hbefore.step (hbefore.core.put hnone hq hv nofun (Or.inl fun heq => ?_)) rfl ?_ (fun n => ?_)
    (fun hquiet => ?_) nofun nofun fun hlate => nomatch hlate.1
  · exact happart (congrArg Prod.fst heq).symm
  · rw [World.lookup_touch, World.lookup_insert_ne fun heq => happart (congrArg Prod.fst heq)]
  · rw [World.lookup_touch, World.lookup_insert]
    have hinside := hbefore.inside n
    by_cases hn : n = "verified"
    · subst hn
      rw [if_pos rfl, if_neg (by decide), if_pos rfl]
    · rw [if_neg fun heq => hn (congrArg Prod.snd heq), hinside]
      simp only [if_neg hn]
  · rw [World.lookup_touch, World.lookup_insert_ne fun heq => happart (congrArg Prod.fst heq)]
    exact hbefore.same hquiet

/-- The target has been moved into the quarantine. -/
theorem stage_of_rename {j : Nat} (h : Stage p target quiet w₀ v q qn (some v) none (some v) s)
    (hbetween : Between quiet target.1 s.world before) (hj : before.lookup target = some j) :
    (quiet → j = v) ∧ Stage p target quiet w₀ v q qn none (some j) (some v)
      (after s (.rename target (q, "target")) before
        (((before.remove target).insert (q, "target") j).touch j) true) := by
  have hbefore := h.between hbetween
  have happart := hbefore.parent_ne
  have hkt : target ≠ (q, ("target" : PyStr)) := fun heq => happart (congrArg Prod.fst heq)
  have hq : q < before.next := (hbefore.core.wf.entry _ _ hbefore.name).2
  have hmem : q ∈ before.own := by
    have hown : before.own = [q] := hbefore.own
    rw [hown]
    exact List.mem_singleton_self q
  have hlookup : ∀ k, (((before.remove target).insert (q, "target") j).touch j).lookup k =
      if k = (q, ("target" : PyStr)) then some j else if k = target then none else before.lookup k := by
    intro k
    rw [World.lookup_touch, World.lookup_insert, World.lookup_remove]
  have hnone : before.lookup (q, "target") = none := by
    have hinside := hbefore.inside "target"
    rwa [if_pos rfl] at hinside
  refine ⟨fun hquiet => ?_, ?_⟩
  · exact Option.some.inj (hj.symm.trans (hbefore.same hquiet))
  have hin : InQuarantine (((before.remove target).insert (q, "target") j).touch j) j :=
    ⟨q, hmem, "target", by rw [hlookup, if_pos rfl]⟩
  have hcore : Core p target (some v) (after s (.rename target (q, "target")) before
      (((before.remove target).insert (q, "target") j).touch j) true) := by
    have hwf := hbefore.core.wf
    refine hbefore.core.step (hwf.remove.insert hq (hwf.entry _ _ hj).2).touch (Nat.le_refl _)
      hbefore.core.apart (fun k i hb ha => ?_) (fun i n hn => World.same_touch hn) (fun i _ hi => ?_)
      fun k _ _ i hi => ?_
    · change before.lookup k = some i at hb
      change (((before.remove target).insert (q, "target") j).touch j).lookup k ≠ some i at ha
      by_cases hk : k = target
      · obtain rfl : j = i := Option.some.inj (hj.symm.trans (hk ▸ hb))
        exact Or.inl (Or.inr hin)
      · rw [hlookup, if_neg hk] at ha
        split at ha
        · next heq =>
          rw [heq, hnone] at hb
          cases hb
        · exact absurd hb ha
    · rcases hi with ⟨q', hq', n, hn⟩ | hrest
      · obtain rfl : q' = q := by
          have hown : before.own = [q] := hbefore.own
          rw [hown] at hq'
          exact List.mem_singleton.mp hq'
        refine Or.inl ⟨q', hq', n, ?_⟩
        rw [hlookup, if_neg, if_neg fun heq => happart (congrArg Prod.fst heq).symm, hn]
        intro heq
        rw [heq, hnone] at hn
        cases hn
      · exact absurd hrest (hbefore.unlinked.not_restored i)
    · obtain rfl : j = i := Option.some.inj (hj.symm.trans hi)
      exact hin
  refine hbefore.step hcore rfl ?_ (fun n => ?_) (fun _ => ?_) (by intro o hcall; cases hcall)
    (by intro k hcall; cases hcall) ?_
  · rw [hlookup, if_neg fun heq => happart (congrArg Prod.fst heq),
      if_neg fun heq => hbefore.free (congrArg Prod.snd heq)]
  · have hne : (q, n) ≠ target := fun heq => happart (congrArg Prod.fst heq).symm
    rw [hlookup, if_neg hne]
    have hinside := hbefore.inside n
    by_cases hn : n = "target"
    · subst hn
      rw [if_pos rfl, if_pos rfl]
    · rw [if_neg fun heq => hn (congrArg Prod.snd heq), if_neg hn]
      rwa [if_neg hn] at hinside
  · rw [hlookup, if_neg hkt, if_pos rfl]
  · rintro ⟨hok, -⟩
    cases hok

/-- One of the two links in the quarantine has been removed, and it is one of the verified file. -/
theorem stage_of_unlink {n : PyStr} (h : Stage p target quiet w₀ v q qn t tq vq s)
    (hbetween : Between quiet target.1 s.world before) (hn : before.lookup (q, n) = some v) :
    Stage p target quiet w₀ v q qn t (if n = "target" then none else tq)
      (if n = "verified" then none else vq)
      (after s (.unlink (q, n)) before ((before.remove (q, n)).touch v) true) := by
  have hbefore := h.between hbetween
  have happart := hbefore.parent_ne
  have hne : (q, n) ≠ target := fun heq => happart (congrArg Prod.fst heq).symm
  refine hbefore.step (hbefore.core.take hn hne nofun (Or.inl rfl)) rfl ?_ (fun n' => ?_) (fun hquiet => ?_) nofun nofun fun hlate => nomatch hlate.1
  · rw [World.lookup_touch, World.lookup_remove_ne fun heq => happart (congrArg Prod.fst heq)]
  · rw [World.lookup_touch, World.lookup_remove]
    have hinside := hbefore.inside n'
    by_cases heq : n' = n
    · subst heq
      rw [if_pos rfl]
      split
      · rfl
      · split <;> rfl
    · rw [if_neg fun h => heq (congrArg Prod.snd h), hinside]
      split
      · next hname => rw [if_neg fun h => heq (hname.trans h.symm)]
      · split
        · next hname => rw [if_neg fun h => heq (hname.trans h.symm)]
        · rfl
  · rw [World.lookup_touch, World.lookup_remove_ne fun heq => happart (congrArg Prod.fst heq)]
    exact hbefore.same hquiet

end

end Supplementary.Atomic.Unlink
