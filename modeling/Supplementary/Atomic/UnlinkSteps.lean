/-
# What the steps of a removal do

Other processes may change the parent directory between two calls, but neither the quarantine nor
its name; `quiet` says that they do nothing at all.  Both cases are followed at once: what holds of
the target's name is stated under `quiet`, the rest always.

`Core` is what holds at every point of a run.  A step takes an entry away only as `Admitted` says,
and a displaced entry stays in the quarantine until it is linked back.
-/
import Supplementary.Atomic.Unlink

namespace Supplementary.Atomic.Unlink

open Machine Posix

/-! ## 1. Other processes -/

/-- What another process may do to the parent directory: anything but to the directories that the
module made, and to their names.  The data of the files is not touched. -/
structure Allowed (parent : Nat) (w w' : World PyStr) : Prop where
  wf : w.Wf → w'.Wf
  next : w.next ≤ w'.next
  own : w'.own = w.own
  inside : ∀ q ∈ w.own, ∀ n, w'.lookup (q, n) = w.lookup (q, n)
  name : ∀ q ∈ w.own, ∀ n, w'.lookup (parent, n) = some q ↔ w.lookup (parent, n) = some q
  data : ∀ i n, w.inode i = some n → ∃ n', w'.inode i = some n' ∧ n.Same n'

theorem Allowed.refl (parent : Nat) (w : World PyStr) : Allowed parent w w :=
  ⟨id, Nat.le_refl _, rfl, fun _ _ _ => rfl, fun _ _ _ => Iff.rfl, fun _ n h => ⟨n, h, .refl n⟩⟩

/-- What happens between two calls; nothing at all if it is quiet. -/
structure Between (quiet : Prop) (parent : Nat) (w w' : World PyStr) : Prop where
  allowed : Allowed parent w w'
  still : quiet → w' = w

/-! ## 2. What a log tells -/

abbrev Event := Step (World PyStr) (Call PyStr Outcome)

abbrev State := Run (World PyStr) (Call PyStr Outcome) Locals

section

variable (target : Key PyStr)

/-- The inode is linked in a directory that the module made. -/
def InQuarantine (w : World PyStr) (i : Nat) : Prop := ∃ q ∈ w.own, ∃ n, w.lookup (q, n) = some i

/-- The inode is linked at the target or in the quarantine. -/
def Kept (w : World PyStr) (i : Nat) : Prop := w.lookup target = some i ∨ InQuarantine w i

/-- The module linked the inode back to the target, and left the target alone since. -/
def Restored (log : List Event) (i : Nat) : Prop :=
  ∃ later e earlier, log = later ++ e :: earlier ∧ (∃ k, e.call = .link k target) ∧ e.ok = true ∧
    e.after.lookup target = some i ∧ ∀ e' ∈ later, e'.after.lookup target = e'.before.lookup target

/-- The module moved the inode away from the target. -/
def Displaced (log : List Event) (i : Nat) : Prop :=
  ∃ e ∈ log, e.ok = true ∧ (∃ k, e.call = .rename target k) ∧ e.before.lookup target = some i

/-- An entry that a step takes away: its inode is still kept, or it is the verified one, or a
directory of the module, or it had been restored. -/
def Admitted (v : Option Nat) (earlier : List Event) (e : Event) : Prop :=
  ∀ k i, e.before.lookup k = some i → e.after.lookup k ≠ some i →
    Kept target e.after i ∨ v = some i ∨ i ∈ e.before.own ∨ Restored target earlier i

/-- Every step is admitted. -/
def Clean (v : Option Nat) : List Event → Prop
  | [] => True
  | e :: earlier => Admitted target v earlier e ∧ Clean v earlier

/-- What has been printed. -/
def printed (log : List Event) : List Outcome := log.filterMap fun e => match e.call with
  | .print r => some r
  | _ => none

/-- The module has linked nothing back yet. -/
def Unlinked (log : List Event) : Prop := ∀ e ∈ log, ∀ k, e.call ≠ .link k target

/-- The look at the new hard link fails, or the close after its removal. -/
def FailsLate (earlier : List Event) (e : Event) : Prop :=
  e.ok = false ∧ ((∃ q ∈ e.before.own, e.call = .stat (q, "verified")) ∨
    ((∃ i, e.call = .close i) ∧
      ∃ u rest q, earlier = u :: rest ∧ u.ok = true ∧ u.call = .unlink (q, "verified")))

/-- Some step fails late. -/
def SomeFailsLate : List Event → Prop
  | [] => False
  | e :: earlier => FailsLate earlier e ∨ SomeFailsLate earlier

variable {target}

theorem Restored.cons {log : List Event} {i : Nat} {e : Event} (h : Restored target log i)
    (he : e.after.lookup target = e.before.lookup target) : Restored target (e :: log) i := by
  obtain ⟨later, e', earlier, rfl, hcall, hok, hafter, hlater⟩ := h
  exact ⟨e :: later, e', earlier, rfl, hcall, hok, hafter, List.forall_mem_cons.mpr ⟨he, hlater⟩⟩

theorem Unlinked.not_restored {log : List Event} (h : Unlinked target log) (i : Nat) :
    ¬ Restored target log i := by
  rintro ⟨later, e, earlier, rfl, ⟨k, hcall⟩, -⟩
  exact h e (List.mem_append_right _ List.mem_cons_self) k hcall

theorem Clean.mono {v : Nat} {log : List Event} (h : Clean target none log) :
    Clean target (some v) log := by
  induction log with
  | nil => trivial
  | cons e earlier ih =>
    refine ⟨fun k i hbefore hafter => ?_, ih h.2⟩
    rcases h.1 k i hbefore hafter with hkept | hnone | hrest
    · exact Or.inl hkept
    · cases hnone
    · exact Or.inr (Or.inr hrest)

/-- A step that changes no entry is admitted. -/
theorem admitted_of_same {v : Option Nat} {earlier : List Event} {e : Event}
    (h : ∀ k, e.after.lookup k = e.before.lookup k) : Admitted target v earlier e :=
  fun k _ hbefore hafter => absurd ((h k).trans hbefore) hafter

theorem Kept.of_inside {w w' : World PyStr} {i : Nat} (h : InQuarantine w i)
    (hown : ∀ q ∈ w.own, q ∈ w'.own) (hinside : ∀ q ∈ w.own, ∀ n, w'.lookup (q, n) = w.lookup (q, n)) :
    InQuarantine w' i := by
  obtain ⟨q, hq, n, hn⟩ := h
  exact ⟨q, hown q hq, n, by rw [hinside q hq, hn]⟩

end

/-! ## 3. What holds at every point -/

section

variable (p : Params) (target : Key PyStr)

/-- The type, mode, owner and checksum that are asked for. -/
def Verified (n : Inode) : Prop := isExpected p n = true ∧ Sha256.hexdigest n.bytes = p.checksum

theorem Verified.same {n n' : Inode} (h : Verified p n) (hsame : n.Same n') : Verified p n' := by
  rw [Inode.Same] at hsame
  rw [hsame]
  exact h

/-- What holds at every point, where `v` is the file that was verified. -/
structure Core (v : Option Nat) (s : State) : Prop where
  wf : s.world.Wf
  parent : target.1 < s.world.next
  apart : target.1 ∉ s.world.own
  clean : Clean target v s.log
  verified : ∀ i, v = some i → ∃ n, s.world.inode i = some n ∧ Verified p n
  displaced : ∀ i, Displaced target s.log i → v ≠ some i →
    InQuarantine s.world i ∨ Restored target s.log i

variable {p target} {quiet : Prop} {v : Option Nat} {s : State} {before : World PyStr}

/-- Other processes change nothing of it. -/
theorem Core.between (h : Core p target v s) (hbetween : Between quiet target.1 s.world before) :
    Core p target v { s with world := before } := by
  have hallowed := hbetween.allowed
  refine ⟨hallowed.wf h.wf, Nat.lt_of_lt_of_le h.parent hallowed.next, ?_, h.clean, ?_, ?_⟩
  · change target.1 ∉ before.own
    rw [hallowed.own]
    exact h.apart
  · intro i hi
    obtain ⟨n, hn, hverified⟩ := h.verified i hi
    obtain ⟨n', hn', hsame⟩ := hallowed.data i n hn
    exact ⟨n', hn', hverified.same p hsame⟩
  · intro i hi hv
    refine (h.displaced i hi hv).imp_left fun hin => ?_
    exact Kept.of_inside hin (fun q hq => hallowed.own.symm ▸ hq) hallowed.inside

/-- A step after which everything displaced is still there, or was restored. -/
theorem Core.step {call : Call PyStr Outcome} {w : World PyStr} {ok : Bool}
    (h : Core p target v { s with world := before }) (hwf : w.Wf) (hnext : before.next ≤ w.next)
    (hapart : target.1 ∉ w.own) (hadmitted : Admitted target v s.log ⟨call, before, w, ok⟩)
    (hdata : ∀ i n, before.inode i = some n → ∃ n', w.inode i = some n' ∧ n.Same n')
    (hkept : ∀ i, v ≠ some i → InQuarantine before i ∨ Restored target s.log i →
      InQuarantine w i ∨ Restored target (⟨call, before, w, ok⟩ :: s.log) i)
    (hrename : ∀ k, ok = true → call = .rename target k → ∀ i, before.lookup target = some i →
      InQuarantine w i) : Core p target v (after s call before w ok) := by
  refine ⟨hwf, Nat.lt_of_lt_of_le h.parent hnext, hapart, ⟨hadmitted, h.clean⟩, ?_, ?_⟩
  · intro i hi
    obtain ⟨n, hn, hverified⟩ := h.verified i hi
    obtain ⟨n', hn', hsame⟩ := hdata i n hn
    exact ⟨n', hn', hverified.same p hsame⟩
  · rintro i ⟨e, he, hok, ⟨k, hcall⟩, hbefore⟩ hv
    rcases List.mem_cons.mp he with rfl | he
    · exact Or.inl (hrename k hok hcall i hbefore)
    · exact hkept i hv (h.displaced i ⟨e, he, hok, ⟨k, hcall⟩, hbefore⟩ hv)

/-- A step that changes nothing. -/
theorem Core.idle {call : Call PyStr Outcome} {ok : Bool} (h : Core p target v s)
    (hbetween : Between quiet target.1 s.world before)
    (hcall : ok = true → ∀ k k', call ≠ .rename k k') :
    Core p target v (after s call before before ok) := by
  have hbefore := h.between hbetween
  refine hbefore.step hbefore.wf (Nat.le_refl _) hbefore.apart (admitted_of_same fun _ => rfl)
    (fun i n hn => ⟨n, hn, .refl n⟩) (fun i _ hi => ?_) fun k hok hk => absurd hk (hcall hok _ _)
  exact hi.imp_right fun hrestored => hrestored.cons rfl

end

/-! ## 4. The stages of a run -/

section

variable (p : Params) (target : Key PyStr) (quiet : Prop) (w₀ : World PyStr)

/-- Before the quarantine is made. -/
structure Fresh (s : State) : Prop where
  core : Core p target none s
  own : s.world.own = []
  same : quiet → s.world.lookup target = w₀.lookup target
  shown : printed s.log = []
  onTime : ¬ SomeFailsLate s.log
  unlinked : Unlinked target s.log
  vars : s.vars.quarantineName = none

/-- With the quarantine `q` under the name `qn`; `t` is behind the target if it is quiet, and `tq` and
`vq` are behind the two names in the quarantine. -/
structure Stage (v q : Nat) (qn : PyStr) (t tq vq : Option Nat) (s : State) : Prop where
  core : Core p target (some v) s
  own : s.world.own = [q]
  name : s.world.lookup (target.1, qn) = some q
  free : qn ≠ target.2
  inside : ∀ n, s.world.lookup (q, n) =
    if n = "target" then tq else if n = "verified" then vq else none
  same : quiet → s.world.lookup target = t
  first : quiet → w₀.lookup target = some v
  shown : printed s.log = []
  onTime : ¬ SomeFailsLate s.log
  unlinked : Unlinked target s.log
  vars : s.vars.quarantineName = none ∨ s.vars.quarantineName = some qn

/-- With the second hard link in the quarantine; the target may have been linked back. -/
structure Held (v q : Nat) (qn : PyStr) (s : State) : Prop where
  core : Core p target (some v) s
  own : s.world.own = [q]
  name : s.world.lookup (target.1, qn) = some q
  free : qn ≠ target.2
  link : s.world.lookup (q, "verified") = some v
  first : quiet → w₀.lookup target = some v
  shown : printed s.log = []
  onTime : ¬ SomeFailsLate s.log
  vars : s.vars.quarantineName = none ∨ s.vars.quarantineName = some qn

/-- A result is honest about a world: a failure has kept the file that was there, a removal has
removed it, and a quarantine with an entry is reported by a path to an entry in it. -/
structure Honest (o : Outcome) (w : World PyStr) : Prop where
  failure : o.failed = true → ∀ i, w₀.lookup target = some i → Kept target w i
  removal : o.changed = true → p.checkMode = false → w.lookup target = none
  residue : ∀ q ∈ w.own, ∀ n i, w.lookup (q, n) = some i → ∃ qn entry j,
    o.recoveryPath = some (joinPath (joinPath p.directory qn) entry) ∧
      w.lookup (target.1, qn) = some q ∧ w.lookup (q, entry) = some j

/-- The verified file is not behind the quarantined name. -/
def Gone (o : Outcome) (v : Option Nat) (w : World PyStr) : Prop :=
  o.changed = true → ∀ i, v = some i → ∀ q ∈ w.own, w.lookup (q, "target") ≠ some i

/-- The result is settled, and `shown` is what has been printed. -/
structure Settled (o : Outcome) (shown : List Outcome) (s : State) : Prop where
  core : ∃ v, Core p target v s ∧ Gone o v s.world
  shown : printed s.log = shown
  honest : quiet → (Honest p target w₀ o s.world ↔ ¬ SomeFailsLate s.log)

/-- The name that is left to remove is the one of the quarantine. -/
def Named (s : State) : Prop := ∀ qn, s.vars.quarantineName = some qn →
  qn ≠ target.2 ∧ ∃ q ∈ s.world.own, s.world.lookup (target.1, qn) = some q

/-- The last step was no removal. -/
def Calm (log : List Event) : Prop := ∀ u rest, log = u :: rest → ∀ k, u.call ≠ .unlink k

/-- A call that is neither a result nor a move nor a hard link nor a close. -/
structure Plain (call : Call PyStr Outcome) : Prop where
  print : ∀ o, call ≠ .print o
  rename : ∀ k k', call ≠ .rename k k'
  link : ∀ k k', call ≠ .link k k'
  close : ∀ i, call ≠ .close i

/-- `Plain`, decided. -/
def isPlain : Call PyStr Outcome → Bool
  | .print _ | .rename _ _ | .link _ _ | .close _ => false
  | _ => true

theorem plain_of {call : Call PyStr Outcome} (h : isPlain call = true) : Plain call := by
  refine ⟨?_, ?_, ?_, ?_⟩ <;> intros <;> rintro rfl <;> cases h

variable {p target quiet w₀} {s : State} {before w : World PyStr} {call : Call PyStr Outcome}
  {ok : Bool} {v q : Nat} {qn : PyStr} {t tq vq : Option Nat} {o : Outcome} {shown : List Outcome}

theorem printed_cons (h : ∀ o, call ≠ .print o) {log : List Event} :
    printed (⟨call, before, w, ok⟩ :: log) = printed log := by
  cases call <;> first | rfl | exact absurd rfl (h _)

theorem not_failsLate {log : List Event} (h : Plain call)
    (hlook : ok = false → ∀ q, call ≠ .stat (q, "verified")) :
    ¬ FailsLate log ⟨call, before, w, ok⟩ := by
  rintro ⟨hok, ⟨q, -, hcall⟩ | ⟨⟨i, hcall⟩, -⟩⟩
  · exact hlook hok q hcall
  · exact h.close i hcall

theorem Fresh.look (h : Fresh p target quiet w₀ s) (hcall : Plain call)
    (hbetween : Between quiet target.1 s.world before) :
    Fresh p target quiet w₀ (after s call before before ok) := by
  have hown : before.own = [] := hbetween.allowed.own.trans h.own
  refine ⟨h.core.idle hbetween fun _ => hcall.rename, hown, fun hquiet => ?_,
    (printed_cons hcall.print).trans h.shown, ?_,
    List.forall_mem_cons.mpr ⟨fun k => hcall.link k target, h.unlinked⟩, h.vars⟩
  · change before.lookup target = _
    rw [hbetween.still hquiet, h.same hquiet]
  · rintro (⟨-, ⟨q, hq, -⟩ | ⟨⟨i, hi⟩, -⟩⟩ | hlate)
    · change q ∈ before.own at hq
      rw [hown] at hq
      cases hq
    · exact hcall.close i hi
    · exact h.onTime hlate

/-- The stage after what other processes did. -/
theorem Stage.between (h : Stage p target quiet w₀ v q qn t tq vq s)
    (hbetween : Between quiet target.1 s.world before) :
    Stage p target quiet w₀ v q qn t tq vq { s with world := before } := by
  have hallowed := hbetween.allowed
  have hq : q ∈ s.world.own := by rw [h.own]; exact List.mem_singleton_self q
  refine ⟨h.core.between hbetween, hallowed.own.trans h.own, (hallowed.name q hq qn).mpr h.name,
    h.free, fun n => ?_, fun hquiet => ?_, h.first, h.shown, h.onTime, h.unlinked, h.vars⟩
  · exact (hallowed.inside q hq n).trans (h.inside n)
  · change before.lookup target = t
    rw [hbetween.still hquiet, h.same hquiet]

/-- The stage after a step on the quarantine or the target. -/
theorem Stage.step {t' tq' vq' : Option Nat}
    (h : Stage p target quiet w₀ v q qn t tq vq { s with world := before })
    (hcore : Core p target (some v) (after s call before w ok)) (hown : w.own = before.own)
    (hname : w.lookup (target.1, qn) = before.lookup (target.1, qn))
    (hinside : ∀ n, w.lookup (q, n) =
      if n = "target" then tq' else if n = "verified" then vq' else none)
    (hsame : quiet → w.lookup target = t') (hprint : ∀ o, call ≠ .print o)
    (hlink : ∀ k, call ≠ .link k target) (hlate : ¬ FailsLate s.log ⟨call, before, w, ok⟩) :
    Stage p target quiet w₀ v q qn t' tq' vq' (after s call before w ok) :=
  ⟨hcore, hown.trans h.own, hname.trans h.name, h.free, hinside, hsame, h.first,
    (printed_cons hprint).trans h.shown, fun hsome => hsome.elim hlate h.onTime,
    List.forall_mem_cons.mpr ⟨hlink, h.unlinked⟩, h.vars⟩

theorem Stage.look (h : Stage p target quiet w₀ v q qn t tq vq s) (hcall : Plain call)
    (hlook : ok = false → ∀ q, call ≠ .stat (q, "verified"))
    (hbetween : Between quiet target.1 s.world before) :
    Stage p target quiet w₀ v q qn t tq vq (after s call before before ok) := by
  have hbefore := h.between hbetween
  exact hbefore.step (h.core.idle hbetween fun _ => hcall.rename) rfl rfl hbefore.inside
    hbefore.same hcall.print (fun k => hcall.link k target) (not_failsLate hcall hlook)

theorem Stage.held (h : Stage p target quiet w₀ v q qn t tq (some v) s) :
    Held p target quiet w₀ v q qn s := by
  refine ⟨h.core, h.own, h.name, h.free, ?_, h.first, h.shown, h.onTime, h.vars⟩
  rw [h.inside, if_neg (by decide), if_pos rfl]

theorem Held.between (h : Held p target quiet w₀ v q qn s)
    (hbetween : Between quiet target.1 s.world before) :
    Held p target quiet w₀ v q qn { s with world := before } := by
  have hallowed := hbetween.allowed
  have hq : q ∈ s.world.own := by rw [h.own]; exact List.mem_singleton_self q
  exact ⟨h.core.between hbetween, hallowed.own.trans h.own, (hallowed.name q hq qn).mpr h.name,
    h.free, (hallowed.inside q hq _).trans h.link, h.first, h.shown, h.onTime, h.vars⟩

theorem Held.step (h : Held p target quiet w₀ v q qn { s with world := before })
    (hcore : Core p target (some v) (after s call before w ok)) (hown : w.own = before.own)
    (hname : w.lookup (target.1, qn) = before.lookup (target.1, qn))
    (hlink : w.lookup (q, "verified") = before.lookup (q, "verified"))
    (hprint : ∀ o, call ≠ .print o) (hlate : ¬ FailsLate s.log ⟨call, before, w, ok⟩) :
    Held p target quiet w₀ v q qn (after s call before w ok) :=
  ⟨hcore, hown.trans h.own, hname.trans h.name, h.free, hlink.trans h.link, h.first,
    (printed_cons hprint).trans h.shown, fun hsome => hsome.elim hlate h.onTime, h.vars⟩

/-- A new entry, in the quarantine or for the target, takes nothing away. -/
theorem Core.put {k : Key PyStr} {i j : Nat} (h : Core p target (some v) { s with world := before })
    (hnone : before.lookup k = none) (hk : k.1 < before.next) (hi : i < before.next)
    (hcall : ∀ k k', call ≠ .rename k k')
    (hrestored : k ≠ target ∨ Unlinked target s.log) :
    Core p target (some v) (after s call before ((before.insert k i).touch j) ok) := by
  have hkeeps : ∀ k' i', before.lookup k' = some i' →
      ((before.insert k i).touch j).lookup k' = some i' := by
    intro k' i' hk'
    have hne : k' ≠ k := by
      rintro rfl
      rw [hnone] at hk'
      cases hk'
    rw [World.lookup_touch, World.lookup_insert_ne hne, hk']
  refine h.step (h.wf.insert hk hi).touch (Nat.le_refl _) h.apart
    (fun k' i' hbefore hafter => absurd (hkeeps k' i' hbefore) hafter)
    (fun i' n hn => World.same_touch hn) (fun i' _ hi' => ?_) fun k' _ hk' => absurd hk' (hcall _ _)
  rcases hi' with ⟨q', hq', n, hn⟩ | hrest
  · exact Or.inl ⟨q', hq', n, hkeeps _ _ hn⟩
  · rcases hrestored with hne | hunlinked
    · refine Or.inr (hrest.cons ?_)
      change ((before.insert k i).touch j).lookup target = _
      rw [World.lookup_touch, World.lookup_insert_ne (Ne.symm hne)]
    · exact absurd hrest (hunlinked.not_restored i')

/-- An entry in the quarantine is taken away: its inode is the verified one, or was restored. -/
theorem Core.take {k : Key PyStr} {i j : Nat} (h : Core p target (some v) { s with world := before })
    (hk : before.lookup k = some i) (hne : k ≠ target)
    (hcall : ∀ k k', call ≠ .rename k k') (hi : v = i ∨ Restored target s.log i) :
    Core p target (some v) (after s call before ((before.remove k).touch j) ok) := by
  have htarget : ((before.remove k).touch j).lookup target = before.lookup target := by
    rw [World.lookup_touch, World.lookup_remove_ne (Ne.symm hne)]
  refine h.step h.wf.remove.touch (Nat.le_refl _) h.apart (fun k' i' hbefore hafter => ?_)
    (fun i' n hn => World.same_touch hn) (fun i' hv hi' => ?_) fun k' _ hk' => absurd hk' (hcall _ _)
  · change before.lookup k' = some i' at hbefore
    change ((before.remove k).touch j).lookup k' ≠ some i' at hafter
    rw [World.lookup_touch, World.lookup_remove] at hafter
    split at hafter
    · next heq =>
      obtain rfl : i = i' := Option.some.inj (hk.symm.trans (heq ▸ hbefore))
      exact Or.inr (hi.imp (congrArg some) Or.inr)
    · exact absurd hbefore hafter
  · rcases hi' with ⟨q', hq', n, hn⟩ | hrest
    · by_cases heq : (q', n) = k
      · obtain rfl : i = i' := Option.some.inj (hk.symm.trans (heq ▸ hn))
        rcases hi with rfl | hrestored
        · exact absurd rfl hv
        · exact Or.inr (hrestored.cons htarget)
      · refine Or.inl ⟨q', hq', n, ?_⟩
        rw [World.lookup_touch, World.lookup_remove_ne heq, hn]
    · exact Or.inr (hrest.cons htarget)

end

end Supplementary.Atomic.Unlink
