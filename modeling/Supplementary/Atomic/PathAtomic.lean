/-
# No partial file, and nothing lost

At every instant the target is what it was, or the complete new file.  Up to the conditional rename
the target is not touched, and the new file is written in the workspace; the rename publishes it when
it is complete; and from then on only a file that was not there before is taken back.

Only `installed` matters of the variables: without it nothing is taken back.
-/
import Supplementary.Atomic.PathSteps

namespace Supplementary.Atomic.Path

open Machine Posix

/-! ## 1. The new file -/

/-- A regular file with exactly the requested bytes, mode and owner. -/
def Complete (p : Params) (payload : List UInt8) (n : Inode) : Prop :=
  n.kind = .regular ∧ n.bytes = payload ∧ n.mode = p.mode ∧ n.uid = p.uid ∧ n.gid = p.gid

/-- The target is what it was, or the complete new file. -/
def Sound (p : Params) (payload : List UInt8) (target : Key PyStr) (w₀ w : World PyStr) : Prop :=
  Intact target w₀ w ∨ Linked target (Complete p payload) w

theorem stable_sound {p : Params} {payload : List UInt8} {target : Key PyStr} {w₀ : World PyStr} :
    Stable target (Sound p payload target w₀) :=
  stable_intact.or (stable_linked fun _ h => h)

/-- The target is not touched yet, and the new file is in the workspace. -/
structure Staged (target : Key PyStr) (w₀ : World PyStr) (k : Key PyStr) (f : Nat)
    (good : Inode → Prop) (w : World PyStr) : Prop extends Untouched target w₀ w where
  entry : w.lookup k = some f
  fresh : w₀.next ≤ f
  inode : ∃ n, w.inode f = some n ∧ good n

/-- Nothing is taken back where something was before. -/
def Taking (target : Key PyStr) (w₀ : World PyStr) (before : Option (Stat × PyStr)) (v : Flags) :
    Prop := v.installed = true → before = none → w₀.lookup target = none

section

variable {env : Env (World PyStr) Fault} {p : Params} {payload : List UInt8}
  {target : Key PyStr} {w₀ : World PyStr} {T : World PyStr → Prop} {V : Flags → Prop}
  {k : Key PyStr} {f : Nat}

theorem Staged.change {good good' : Inode → Prop} {w : World PyStr} {change : Inode → Inode}
    (h : Staged target w₀ k f good w) (hw₀ : w₀.Wf) (hchange : ∀ n, good n → good' (change n)) :
    Staged target w₀ k f good' (w.modify f change) := by
  obtain ⟨n, hn, hgood⟩ := h.inode
  refine ⟨h.toUntouched.modify hw₀ h.fresh, h.entry, h.fresh, change n, ?_, hchange n hgood⟩
  simp [World.modify, hn]

variable (hquiet : Quiet env) (hT : ∀ w, Untouched target w₀ w → T w) (hw₀ : w₀.Wf)

include hquiet hT

theorem fsync_staged {good : Inode → Prop} {i : Nat} :
    Preserves env (Through T (Staged target w₀ k f good) V) (sys (fsync i)) :=
  fsync_idle (through_idle hquiet fun w h => hT w h.toUntouched)

include hw₀

/-- One write, maybe of a part only. -/
theorem write_triple {written data : List UInt8} :
    Triple env (Through T (Staged target w₀ k f fun n => n.kind = .regular ∧ n.bytes = written) V)
      (sys (write f data))
      (fun a => Through T (Staged target w₀ k f fun n =>
        n.kind = .regular ∧ n.bytes = written ++ data.take a) V)
      fun _ => Through T (Untouched target w₀) V := by
  refine sys_triple ((perform_through hquiet (J := fun a => Staged target w₀ k f fun n =>
    n.kind = .regular ∧ n.bytes = written ++ data.take a) ?_ ?_ ?_ ?_).weaken (fun _ h => h)
    (fun _ _ h => h) fun _ _ h => h.mono fun _ hw => hw.toUntouched)
  · exact fun w h => hT w h.toUntouched
  · exact fun a w h => hT w h.toUntouched
  · intro fault w a w' hw hact
    cases fault with
    | none =>
      cases hact
      exact hw.change hw₀ fun n hn => ⟨hn.1, by simp [hn.2]⟩
    | some fault =>
      cases fault with
      | fail e => cases hact
      | short n =>
        cases hact
        exact hw.change hw₀ fun m hm => ⟨hm.1, by simp [hm.2]⟩
  · intro fault w e w' hw hact
    cases fault with
    | none => cases hact
    | some fault =>
      cases fault with
      | fail e =>
        cases hact
        rfl
      | short n => cases hact

/-- The loop writes everything. -/
theorem writeAll_triple (view : List UInt8) : ∀ written,
    Triple env (Through T (Staged target w₀ k f fun n => n.kind = .regular ∧ n.bytes = written) V)
      (writeAll f view)
      (fun _ => Through T (Staged target w₀ k f fun n =>
        n.kind = .regular ∧ n.bytes = written ++ view) V)
      fun _ => Through T (Untouched target w₀) V := by
  induction view using writeAll.induct with
  | case1 =>
    intro written
    unfold writeAll
    exact triple_pure fun _ h => by simpa using h
  | case2 byte rest ih =>
    intro written
    unfold writeAll
    refine Triple.bind (write_triple hquiet hT hw₀) fun a => ?_
    by_cases hzero : a = 0
    · rw [dif_pos hzero]
      exact triple_raise fun _ h => h.mono fun _ hw => hw.toUntouched
    · rw [dif_neg hzero]
      refine (ih a hzero (written ++ (byte :: rest).take a)).post fun _ s h => ?_
      rw [List.append_assoc, List.take_append_drop] at h
      exact h

/-- A change of the staged inode. -/
theorem modify_triple {good good' : Inode → Prop} {call : Call PyStr Outcome}
    {change : Inode → Inode} (hchange : ∀ n, good n → good' (change n)) :
    Triple env (Through T (Staged target w₀ k f good) V)
      (sys (syscall call fun w => .ok ((), w.modify f change)))
      (fun _ => Through T (Staged target w₀ k f good') V)
      fun _ => Through T (Untouched target w₀) V := by
  refine sys_triple ((syscall_through hquiet (J := fun _ => Staged target w₀ k f good')
    (fun w h => hT w h.toUntouched) (fun _ w h => hT w h.toUntouched)
    fun w a w' hw hact => ?_).weaken (fun _ h => h) (fun _ _ h => h)
    fun _ _ h => h.mono fun _ hw => hw.toUntouched)
  cases hact
  exact hw.change hw₀ hchange

/-- The new file is in the workspace, and the target is not touched. -/
theorem stageFile_triple {workspace : Nat} (hk : (workspace, payloadName) ≠ target)
    (hV : ∀ v d st, V v → V { v with descriptor := d, staged := st }) :
    Triple env (Through T (Untouched target w₀) V) (stageFile p workspace payload)
      (fun _ s => ∃ f, Through T (Staged target w₀ (workspace, payloadName) f (Complete p payload)) V s)
      fun _ => Through T (Untouched target w₀) V := by
  have hcreate : Triple env (Through T (Untouched target w₀) V)
      (sys (createFile (workspace, payloadName) 0o600 p.euid p.egid))
      (fun f => Through T (Staged target w₀ (workspace, payloadName) f fun n =>
        n.kind = .regular ∧ n.bytes = []) V) fun _ => Through T (Untouched target w₀) V := by
    refine sys_triple (syscall_through hquiet hT (fun _ w h => hT w h.toUntouched)
      fun w f w' hw hact => ?_)
    split at hact
    · cases hact
    · cases hact
      refine ⟨hw.create hw₀ hk, ?_, hw.next, _, Function.update_self .., rfl, rfl⟩
      simp [World.lookup_create]
  have hweak : ∀ {good : Inode → Prop} {f : Nat} (e : Failure) (s : State),
      Through T (Staged target w₀ (workspace, payloadName) f good) V s →
      Through T (Untouched target w₀) V s := fun _ _ h => h.mono fun _ hw => hw.toUntouched
  refine Triple.bind hcreate fun f => ?_
  refine Triple.bind (Triple.weaken (assign_through fun v hv => hV v (some f) v.staged hv)
    (fun _ h => h) (fun _ _ h => h) hweak) fun _ => ?_
  refine Triple.bind (writeAll_triple hquiet hT hw₀ payload []) fun _ => ?_
  refine Triple.bind (Triple.weaken (fsync_staged hquiet hT) (fun _ h => h) (fun _ _ h => h) hweak)
    fun _ => ?_
  let Owned (n : Inode) : Prop :=
    n.kind = .regular ∧ n.bytes = payload ∧ n.uid = p.uid ∧ n.gid = p.gid
  refine Triple.bind (@modify_triple _ _ _ _ _ _ _ hquiet hT hw₀ _ Owned _ _
    fun n hn => ⟨hn.1, hn.2, rfl, rfl⟩) fun _ => ?_
  refine Triple.bind (@modify_triple _ _ _ _ _ _ _ hquiet hT hw₀ _ (Complete p payload) _ _
    fun n hn => ⟨hn.1, hn.2.1, rfl, hn.2.2.1, hn.2.2.2⟩) fun _ => ?_
  refine Triple.weaken (?_ : Preserves env (Through T (Staged target w₀ (workspace, payloadName) f
    (Complete p payload)) V) _) (fun _ h => h) (fun _ _ h => ⟨f, h⟩) hweak
  refine Preserves.bind (fsync_staged hquiet hT) fun _ => ?_
  refine Preserves.bind (look_idle (through_idle hquiet fun w h => hT w h.toUntouched)) fun st => ?_
  refine Preserves.bind (assign_through fun v hv => hV v v.descriptor (some st) hv) fun _ => ?_
  exact demand_preserves.bind fun _ => preserves_pure

omit hw₀

/-- The conditional rename puts the complete file in the place of nothing. -/
theorem renameNoreplace_triple {good : Inode → Prop} (hgood : ∀ n, good n → good n.touched)
    (hL : ∀ w, Linked target good w → T w) :
    Triple env (Through T (Staged target w₀ k f good) V) (sys (renameNoreplace k target))
      (fun _ => Through T (fun w => w₀.lookup target = none ∧ Linked target good w) V)
      fun _ => Through T (Untouched target w₀) V := by
  refine sys_triple ((syscall_through hquiet (J := fun _ w => w₀.lookup target = none ∧
    Linked target good w) (fun w h => hT w h.toUntouched) (fun _ w h => hL w h.2)
    fun w a w' hw hact => ?_).weaken (fun _ h => h) (fun _ _ h => h)
    fun _ _ h => h.mono fun _ hw => hw.toUntouched)
  cases hfind : w.find k with
  | error e => simp [hfind, Except.bind] at hact
  | ok st =>
    simp only [hfind, Except.bind] at hact
    split at hact
    · cases hact
    · next hnone =>
      cases hact
      obtain ⟨hlookup, -⟩ := World.find_eq_ok hfind
      obtain ⟨n, hn, hdata⟩ := hw.inode
      have hino : st.ino = f := Option.some.inj (hlookup.symm.trans hw.entry)
      refine ⟨?_, (stable_linked hgood).touch _ _ ⟨f, n, ?_, hn, hdata⟩⟩
      · rw [← hw.lookup]
        simpa using hnone
      · rw [World.lookup_insert_self, hino]

/-- The exchange puts the complete file in the place of what was there. -/
theorem renameExchange_triple {good : Inode → Prop} (hgood : ∀ n, good n → good n.touched)
    (hL : ∀ w, Linked target good w → T w) :
    Triple env (Through T (Staged target w₀ k f good) V) (sys (renameExchange k target))
      (fun _ => Through T (Linked target good) V)
      fun _ => Through T (Untouched target w₀) V := by
  refine sys_triple ((syscall_through hquiet (J := fun _ => Linked target good)
    (fun w h => hT w h.toUntouched) (fun _ w h => hL w h)
    fun w a w' hw hact => ?_).weaken (fun _ h => h) (fun _ _ h => h)
    fun _ _ h => h.mono fun _ hw => hw.toUntouched)
  cases hfind : w.find k with
  | error e => simp [hfind, Except.bind] at hact
  | ok st =>
    cases hother : w.find target with
    | error e => simp [hfind, hother, Except.bind] at hact
    | ok st' =>
      simp only [hfind, hother, Except.bind, Except.ok.injEq, Prod.mk.injEq] at hact
      obtain ⟨-, rfl⟩ := hact
      obtain ⟨hlookup, -⟩ := World.find_eq_ok hfind
      obtain ⟨n, hn, hdata⟩ := hw.inode
      have hino : st.ino = f := Option.some.inj (hlookup.symm.trans hw.entry)
      have hlinked : Linked target good ((w.insert k st'.ino).insert target st.ino) :=
        ⟨f, n, by rw [World.lookup_insert_self, hino], hn, hdata⟩
      exact (stable_linked hgood).touch _ _ ((stable_linked hgood).touch _ _ hlinked)

end

/-! ## 2. After the rename -/

section

variable {env : Env (World PyStr) Fault} {p : Params} {payload : List UInt8}
  {target : Key PyStr} {w₀ : World PyStr} {before : Option (Stat × PyStr)}

/-- The target was sound at every instant, and is. -/
abbrev AllSound (p : Params) (payload : List UInt8) (target : Key PyStr) (w₀ : World PyStr)
    (V : Flags → Prop) (s : State) : Prop :=
  Through (Sound p payload target w₀) (Sound p payload target w₀) V s

theorem Untouched.sound {w : World PyStr} (h : Untouched target w₀ w) :
    Sound p payload target w₀ w := Or.inl h.toIntact

/-- Only the assignment of `installed` matters. -/
theorem assign_sound {change : Flags → Flags} (h : ∀ v, (change v).installed = v.installed) :
    Preserves env (AllSound p payload target w₀ (Taking target w₀ before))
      (Program.assign change : Sys Unit) :=
  assign_through fun v hv hinstalled => hv (h v ▸ hinstalled)

variable (hquiet : Quiet env)

include hquiet

theorem verifyInstalled_sound {V : Flags → Prop}
    (hV : ∀ v a b c, V v → V { v with final := a, preserveWorkspace := b, recoveryName := c })
    {descriptor : Nat} {staged : Stat} {desired : PyStr} :
    Preserves env (AllSound p payload target w₀ V)
      (verifyInstalled p target descriptor staged desired) := by
  have hdemand : ∀ holds, Preserves env (AllSound p payload target w₀ V)
      (demandInstalled holds) := by
    intro holds
    refine Preserves.ite (fun _ => preserves_pure) fun _ => ?_
    exact (assign_through fun v hv => hV v v.final _ _ hv).bind fun _ => preserves_raise
  refine (stat_preserves (through_idle hquiet fun _ h => h)).bind fun details => ?_
  refine Preserves.bind (Preserves.ite (fun _ => verifiedDescriptor_idle (through_idle hquiet fun _ h => h))
    fun _ => preserves_pure) fun holds => ?_
  refine (hdemand _).bind fun _ => (fsyncDirectory_idle (through_idle hquiet fun _ h => h)).bind fun _ => ?_
  refine (existing_idle (through_idle hquiet fun _ h => h)).bind fun final => ?_
  refine (assign_through fun v hv => hV v final v.preserveWorkspace v.recoveryName hv).bind
    fun _ => ?_
  refine (hdemand _).bind fun _ => (revalidatedEntry_idle (through_idle hquiet fun _ h => h)).bind
    fun canonical => ?_
  refine Preserves.ite (fun _ => preserves_pure) fun _ => ?_
  exact (assign_through fun v hv => hV v v.final _ v.recoveryName hv).bind fun _ => preserves_raise

/-- The rename publishes the staged file. -/
theorem publishFile_sound {workspace f : Nat} :
    Triple env (Through (Sound p payload target w₀)
        (Staged target w₀ (workspace, payloadName) f (Complete p payload)) (Taking target w₀ before))
      (publishFile p target workspace before)
      (fun _ => AllSound p payload target w₀ (Taking target w₀ before))
      fun _ => AllSound p payload target w₀ (Taking target w₀ before) := by
  have hU : ∀ w, Untouched target w₀ w → Sound p payload target w₀ w := fun _ => Untouched.sound
  have hL : ∀ w, Linked target (Complete p payload) w → Sound p payload target w₀ w :=
    fun _ => Or.inr
  have hweak : ∀ (e : Failure) (s : State),
      Through (Sound p payload target w₀) (Untouched target w₀) (Taking target w₀ before) s →
      AllSound p payload target w₀ (Taking target w₀ before) s := fun _ _ h => h.mono hU
  cases before with
  | none =>
    refine Triple.bind ((renameNoreplace_triple hquiet hU (fun _ h => h) hL).weaken (fun _ h => h)
      (fun _ _ h => h) hweak) fun _ => ?_
    intro s hs
    obtain ⟨hnone, hs⟩ := through_pull hs
    have hinstalled : Preserves env (AllSound p payload target w₀ (Taking target w₀ none))
        (Program.assign fun v => { v with installed := true } : Sys Unit) :=
      assign_through fun _ _ _ _ => hnone
    exact hinstalled s (hs.mono hL)
  | some found =>
    refine Triple.bind ((renameExchange_triple hquiet hU (fun _ h => h) hL).weaken (fun _ h => h)
      (fun _ _ h => h) hweak) fun _ => ?_
    refine Triple.pre (?_ : Preserves env (AllSound p payload target w₀ _) _)
      fun _ h => h.mono hL
    have hV : ∀ (change : Flags → Flags) v, Taking target w₀ (some found) v →
        Taking target w₀ (some found) (change v) := fun _ _ _ _ h => by cases h
    refine (assign_through (hV _)).bind fun _ => ?_
    refine (fsyncDirectory_idle (through_idle hquiet fun _ h => h)).bind fun _ => ?_
    refine (stat_preserves (through_idle hquiet fun _ h => h)).bind fun displaced => ?_
    refine (assign_through (hV _)).bind fun _ => ?_
    exact (verifiedFile_idle (through_idle hquiet fun _ h => h)).bind fun _ => demand_preserves

theorem discardDisplaced_sound {workspace : Nat} (hk : (workspace, payloadName) ≠ target) :
    Preserves env (AllSound p payload target w₀ (Taking target w₀ before))
      (discardDisplaced workspace) := by
  refine preserves_locals.bind fun v => ?_
  cases v.displaced with
  | none => exact preserves_pure
  | some displaced =>
    refine (removePrivateIfSame_through hquiet (fun _ h => h) stable_sound hk).bind fun removed => ?_
    refine Preserves.ite (fun _ => preserves_pure) fun _ => ?_
    exact Preserves.bind (assign_sound (by intro v; rfl)) fun _ => preserves_raise

/-- The `try` block. -/
theorem installFile_sound (hw₀ : w₀.Wf) {workspace : Nat} (hk : (workspace, payloadName) ≠ target) :
    Triple env (Through (Sound p payload target w₀) (Untouched target w₀) (Taking target w₀ before))
      (installFile p target workspace payload before)
      (fun _ => AllSound p payload target w₀ (Taking target w₀ before))
      fun _ => AllSound p payload target w₀ (Taking target w₀ before) := by
  have hU : ∀ w, Untouched target w₀ w → Sound p payload target w₀ w := fun _ => Untouched.sound
  refine Triple.bind ((stageFile_triple hquiet hU hw₀ hk fun v _ _ hv => hv).weaken (fun _ h => h)
    (fun _ _ h => h) fun _ _ h => h.mono hU) fun r => ?_
  obtain ⟨descriptor, staged⟩ := r
  refine triple_exists fun f => Triple.bind (publishFile_sound hquiet) fun _ => ?_
  refine Preserves.bind (verifyInstalled_sound hquiet fun v _ _ _ hv => hv) fun _ => ?_
  exact (discardDisplaced_sound hquiet hk).bind fun _ => assign_sound (by intro v; rfl)

/-- Where nothing was before, taking the target away leaves it as it was. -/
theorem captureAndRemove_sound {V : Flags → Prop} (hnone : w₀.lookup target = none)
    {capture : Key PyStr} (hk : capture ≠ target) {expected : Stat} {directory : Bool}
    {text : Option PyStr} : Preserves env (AllSound p payload target w₀ V)
      (captureAndRemove p target expected capture directory text) := by
  have hrename : Preserves env (AllSound p payload target w₀ V)
      (sys (renameNoreplace target capture)) := by
    refine sys_preserves (syscall_through hquiet (fun _ h => h) (fun _ _ h => h)
      fun w a w' hw hact => ?_)
    cases hfind : w.find target with
    | error e => simp [hfind, Except.bind] at hact
    | ok st =>
      simp only [hfind, Except.bind] at hact
      split at hact
      · cases hact
      · cases hact
        refine Or.inl ⟨?_, fun i n hi => by simp [hnone] at hi⟩
        simp [World.lookup_insert, Ne.symm hk, hnone]
  refine hrename.attempt.bind fun r => ?_
  cases r with
  | error e =>
    cases e with
    | os errno => cases errno <;> exact preserves_raise
    | _ => exact preserves_raise
  | ok u =>
    refine (stat_preserves (through_idle hquiet fun _ h => h)).attempt.bind fun r => ?_
    cases r with
    | error e => exact preserves_raise
    | ok captured =>
      have hcaptured : Preserves env (AllSound p payload target w₀ V)
          (isCaptured p capture captured expected directory text) := by
        refine Preserves.ite (fun _ => preserves_pure) fun _ => ?_
        cases text with
        | none => exact preserves_pure
        | some text =>
          exact Preserves.ite (fun _ => verifiedFile_idle (through_idle hquiet fun _ h => h))
            fun _ => preserves_pure
      refine hcaptured.attempt.bind fun r => ?_
      cases r with
      | error e => exact preserves_raise
      | ok same =>
        cases same with
        | false => exact preserves_raise
        | true => exact removePrivateIfSame_through hquiet (fun _ h => h) stable_sound hk

/-- The `except` block. -/
theorem rollbackFile_sound {workspace : Nat} (hk : (workspace, failedName) ≠ target)
    {desired : PyStr} {e : Failure} :
    Preserves env (AllSound p payload target w₀ (Taking target w₀ before))
      (rollbackFile p target workspace before desired e) := by
  refine Preserves.bind (assign_sound (by intro v; rfl)) fun _ => ?_
  refine Triple.bind (triple_locals (Q := fun v s => Taking target w₀ before v ∧
    AllSound p payload target w₀ (Taking target w₀ before) s) fun _ h => ⟨h.vars, h⟩) fun v => ?_
  refine triple_of_prop fun hv => ?_
  split
  · next hinstalled _ =>
    have hnone := hv hinstalled rfl
    refine Preserves.bind (captureAndRemove_sound hquiet hnone hk).attempt fun r => ?_
    have hV : ∀ (change : Flags → Flags) v, Taking target w₀ none v →
        Taking target w₀ none (change v) := fun _ _ _ _ _ => hnone
    match r with
    | .ok true => exact assign_through (hV _)
    | .ok false => exact assign_through (hV _)
    | .error (.preservedRecovery entry) => exact assign_through (hV _)
    | .error (.os errno) => exact assign_through (hV _)
    | .error (.preservedWorkspace path) => exact assign_through (hV _)
    | .error .value => exact assign_through (hV _)
    | .error .exit => exact assign_through (hV _)
  · exact assign_through fun v _ _ h => by cases h
  · exact preserves_pure

theorem closeDescriptor_sound : Preserves env
    (AllSound p payload target w₀ (Taking target w₀ before)) closeDescriptor := by
  refine preserves_locals.bind fun v => ?_
  cases v.descriptor with
  | none => exact preserves_pure
  | some descriptor =>
    have hinspect : Preserves env (AllSound p payload target w₀ (Taking target w₀ before))
        (inspectDescriptor descriptor) := by
      refine preserves_locals.bind fun v => Preserves.ite (fun _ => preserves_pure) fun _ => ?_
      refine (look_idle (through_idle hquiet fun _ h => h)).attempt.bind fun r => ?_
      cases r <;> exact assign_sound (by intro v; rfl)
    refine hinspect.bind fun _ => (close_idle (through_idle hquiet fun _ h => h)).attempt.bind fun r => ?_
    cases r with
    | ok u => exact preserves_pure
    | error e => exact assign_sound (by intro v; rfl)

theorem discardStaged_sound {workspace : Nat} (hk : (workspace, payloadName) ≠ target) :
    Preserves env (AllSound p payload target w₀ (Taking target w₀ before))
      (discardStaged workspace) := by
  refine preserves_locals.bind fun v => ?_
  cases v.cleanupIdentity with
  | none => exact preserves_pure
  | some st =>
    refine Preserves.ite (fun _ => ?_) fun _ => preserves_pure
    refine (removePrivateIfSame_through hquiet (fun _ h => h) stable_sound hk).bind fun removed => ?_
    exact Preserves.ite (fun _ => assign_sound (by intro v; rfl))
      fun _ => assign_sound (by intro v; rfl)

theorem closeWorkspace_sound {workspace : Nat} {name : PyStr} (hname : name ≠ target.2)
    {identity : Stat} : Preserves env (AllSound p payload target w₀ (Taking target w₀ before))
      (closeWorkspace target.1 workspace name identity) := by
  have hk : (target.1, name) ≠ target := fun heq => hname (congrArg Prod.snd heq)
  have hclose : Preserves env (AllSound p payload target w₀ (Taking target w₀ before))
      (closeWorkspaceFd workspace) := by
    refine (close_idle (through_idle hquiet fun _ h => h)).attempt.bind fun r => ?_
    cases r with
    | ok u => exact preserves_pure
    | error e => exact assign_sound (by intro v; rfl)
  refine hclose.bind fun _ => Preserves.bind (assign_sound (by intro v; rfl)) fun _ => ?_
  refine preserves_locals.bind fun v => Preserves.ite (fun _ => preserves_pure) fun _ => ?_
  refine (removePrivateIfSame_through hquiet (fun _ h => h) stable_sound hk).bind fun removed => ?_
  exact assign_sound (by intro v; rfl)

theorem confirmFile_sound : Preserves env
    (AllSound p payload target w₀ (Taking target w₀ before)) (confirmFile p target) := by
  refine preserves_locals.bind fun v => Preserves.ite (fun _ => preserves_pure) fun _ => ?_
  refine Preserves.bind (Preserves.attempt ((revalidatedEntry_idle (through_idle hquiet fun _ h => h)).bind
    fun _ => demand_preserves)) fun r => ?_
  cases r with
  | ok u => exact preserves_pure
  | error e => exact assign_sound (by intro v; rfl)

theorem report_sound {name : PyStr} {m : Messages} {checksum : Option PyStr} {V : Flags → Prop} :
    Preserves env (AllSound p payload target w₀ V) (report p m name checksum) := by
  refine preserves_locals.bind fun v => ?_
  have hfail : ∀ msg path, Preserves env (AllSound p payload target w₀ V)
      (failJson (α := Unit) p msg path) := fun _ _ => raising (failJson_raises (through_idle hquiet fun _ h => h))
  have hexit : Preserves env (AllSound p payload target w₀ V)
      (exitJson (α := Unit) p true checksum) := raising (exitJson_raises (through_idle hquiet fun _ h => h))
  cases v.failure with
  | none => exact Preserves.ite (fun _ => hfail _ _) fun _ => hexit
  | some e =>
    cases v.committedRecoveryPath with
    | some path => exact hfail _ _
    | none => exact Preserves.ite (fun _ => hfail _ _) fun _ => preserves_raise

/-- From the new workspace on. -/
theorem commitFile_sound (hw₀ : w₀.Wf) {workspace : Nat} (hworkspace : workspace ≠ target.1)
    {name : PyStr} (hname : name ≠ target.2) {identity : Stat} :
    Triple env (Through (Sound p payload target w₀) (Untouched target w₀) (Taking target w₀ before))
      (commitFile p target payload before workspace name identity)
      (fun _ => AllSound p payload target w₀ (Taking target w₀ before))
      fun _ => AllSound p payload target w₀ (Taking target w₀ before) := by
  have hk : ∀ n, (workspace, n) ≠ target := fun n heq => hworkspace (congrArg Prod.fst heq)
  have htry : Triple env (Through (Sound p payload target w₀) (Untouched target w₀)
      (Taking target w₀ before)) (tryFile p target payload before workspace)
      (fun _ => AllSound p payload target w₀ (Taking target w₀ before))
      fun _ => AllSound p payload target w₀ (Taking target w₀ before) := by
    refine Triple.bind (attempt_triple (installFile_sound hquiet hw₀ (hk _))) fun r => ?_
    cases r with
    | ok u => exact preserves_pure
    | error e => exact rollbackFile_sound hquiet (hk _)
  refine Triple.bind htry fun _ => (?_ : Preserves env _ _)
  refine (closeDescriptor_sound hquiet).bind fun _ => ?_
  refine (discardStaged_sound hquiet (hk _)).bind fun _ => ?_
  refine (closeWorkspace_sound hquiet hname).bind fun _ => ?_
  exact (confirmFile_sound hquiet).bind fun _ => report_sound hquiet

end

/-! ## 3. The whole module -/

section

variable {env : Env (World PyStr) Fault} {p : Params} {target : Key PyStr} {w₀ : World PyStr}
  {V : Flags → Prop} {I : World PyStr → Prop} (hquiet : Quiet env)

include hquiet

/-- A new workspace is not the parent directory. -/
theorem privateWorkspace_triple (hw₀ : w₀.Wf) (hparent : target.1 < w₀.next) :
    ∀ names, target.2 ∉ names →
      Triple env (Through (Untouched target w₀) (Untouched target w₀) V)
        (privateWorkspace p target.1 names)
        (fun r s => (r.1 ≠ target.1 ∧ r.2.1 ≠ target.2) ∧
          Through (Untouched target w₀) (Untouched target w₀) V s)
        fun _ => Through (Untouched target w₀) (Untouched target w₀) V := by
  intro names
  induction names with
  | nil => exact fun _ => triple_raise fun _ h => h
  | cons name rest ih =>
    intro hnames
    have hname : name ≠ target.2 := fun heq => hnames (heq ▸ List.mem_cons_self)
    have hk : (target.1, name) ≠ target := fun heq => hname (congrArg Prod.snd heq)
    let Made (w : World PyStr) : Prop :=
      Untouched target w₀ w ∧ ∀ d, w.lookup (target.1, name) = some d → d ≠ target.1
    have hmkdir : Triple env (Through (Untouched target w₀) (Untouched target w₀) V)
        (sys (mkdir (target.1, name) 0o700 p.euid p.egid))
        (fun _ => Through (Untouched target w₀) Made V)
        fun _ => Through (Untouched target w₀) (Untouched target w₀) V := by
      refine sys_triple (syscall_through hquiet (fun _ h => h) (fun _ _ h => h.1)
        fun w a w' hw hact => ?_)
      split at hact
      · cases hact
      · cases hact
        have hcreate := hw.create (n := ⟨.directory, 0o700, p.euid, p.egid, [], 0, 0⟩) hw₀ hk
        refine ⟨⟨⟨hcreate.lookup, hcreate.data⟩, hcreate.next⟩, fun d hd => ?_⟩
        have hd : (w.create (target.1, name) ⟨.directory, 0o700, p.euid, p.egid, [], 0, 0⟩).lookup
          (target.1, name) = some d := hd
        rw [World.lookup_create, if_pos rfl, Option.some.injEq] at hd
        have := hw.next
        omega
    have hstable : Stable target Made := by
      refine ⟨fun w k hne h => ⟨stable_untouched.remove w k hne h.1, fun d hd => h.2 d ?_⟩,
        fun w i h => ⟨stable_untouched.touch w i h.1, h.2⟩⟩
      rw [World.lookup_remove] at hd
      split at hd
      · cases hd
      · exact hd
    refine Triple.bind (attempt_triple hmkdir) fun r => ?_
    cases r with
    | ok u =>
      refine (openWorkspace_triple hquiet (fun _ h => h.1) hstable hk fun w i h hi => h.2 i hi).weaken
        (fun _ h => h) (fun r s h => ?_) fun _ _ h => h.mono fun _ hw => hw.1
      exact ⟨⟨h.1.1, h.1.2 ▸ hname⟩, h.2.mono fun _ hw => hw.1⟩
    | error e =>
      cases e with
      | os errno =>
        by_cases hexist : errno = .exist
        · rw [hexist]
          exact ih fun hmem => hnames (List.mem_cons_of_mem _ hmem)
        · cases errno <;> first | exact absurd rfl hexist | exact triple_raise fun _ h => h
      | _ => exact triple_raise fun _ h => h

/-- What is prepared is read, and the content is what was asked for. -/
theorem prepareFile_triple : Triple env (Through I I V) (prepareFile p target)
    (fun r s => p.content.bind PyStr.utf8Encode = some r.1 ∧ Through I I V s)
    fun _ => Through I I V := by
  have hfail : ∀ {α : Type} {msg : String}, Preserves env (Through I I V)
      (failJson (α := α) p msg) := fun {_ _} => raising (failJson_raises (through_idle hquiet fun _ h => h))
  have hencode : Triple env (Through I I V) (encodeContent p)
      (fun payload s => p.content.bind PyStr.utf8Encode = some payload ∧ Through I I V s)
      fun _ => Through I I V := by
    unfold encodeContent
    cases hcontent : p.content with
    | none => exact raising (failJson_raises (through_idle hquiet fun _ h => h))
    | some content =>
      simp only [Option.bind_some]
      cases hencode : content.utf8Encode with
      | none => exact triple_raise fun _ h => h
      | some payload => exact triple_pure fun _ h => ⟨rfl, h⟩
  have hbind : ∀ found, Preserves env (Through I I V) (bindBefore p target found) := by
    intro found
    cases found with
    | none => exact (require_idle (through_idle hquiet fun _ h => h)).bind fun _ => preserves_pure
    | some before =>
      refine (require_idle (through_idle hquiet fun _ h => h)).bind fun _ => ?_
      cases p.expectedChecksum with
      | none => exact hfail
      | some expected =>
        refine Preserves.bind ?_ fun bound => preserves_pure
        refine (openForReading_idle (through_idle hquiet fun _ h => h)).bind fun bound => ?_
        refine closing_at_end (through_idle hquiet fun _ h => h) ?_
        refine (look_idle (through_idle hquiet fun _ h => h)).bind fun opened => ?_
        refine (require_idle (through_idle hquiet fun _ h => h)).bind fun _ => ?_
        refine (checksum_idle (through_idle hquiet fun _ h => h)).bind fun found => ?_
        refine (require_idle (through_idle hquiet fun _ h => h)).bind fun _ => ?_
        refine (look_idle (through_idle hquiet fun _ h => h)).bind fun final => ?_
        exact (require_idle (through_idle hquiet fun _ h => h)).bind fun _ => preserves_pure
  refine Triple.bind (requireExclusiveParent_idle (through_idle hquiet fun _ h => h)) fun _ => ?_
  refine Triple.bind hencode fun payload => triple_of_prop fun hpayload => ?_
  refine Triple.bind (existing_idle (through_idle hquiet fun _ h => h)) fun found => ?_
  have hexpected : Preserves env (Through I I V) (checkExpected p) := by
    unfold checkExpected
    split
    · exact preserves_pure
    · exact require_idle (through_idle hquiet fun _ h => h)
  refine Triple.bind hexpected fun _ => Triple.bind (hbind found) fun before => ?_
  exact triple_pure fun _ h => ⟨hpayload, h⟩

/-- Up to the new workspace nothing is touched; from there on the target is sound. -/
theorem writeFile_sound (hw₀ : w₀.Wf) (hparent : target.1 < w₀.next) {names : List PyStr}
    (hnames : target.2 ∉ names) {T : World PyStr → Prop}
    (hT : ∀ payload, p.content.bind PyStr.utf8Encode = some payload →
      ∀ w, Sound p payload target w₀ w → T w) (hU : ∀ w, Untouched target w₀ w → T w) :
    Triple env (Through (· = w₀) (· = w₀) (fun v => v.installed = false))
      (writeFile p target names) (fun _ => Through T T fun _ => True)
      fun _ => Through T T fun _ => True := by
  have hstart : ∀ w, w = w₀ → Untouched target w₀ w := fun w hw => hw ▸ .refl target w₀
  have hweak : ∀ (e : Failure) (s : State), Through (Untouched target w₀) (Untouched target w₀)
      (fun v => v.installed = false) s → Through T T (fun _ => True) s :=
    fun _ _ h => h.weaken hU hU fun _ _ => trivial
  refine Triple.bind ((prepareFile_triple hquiet).weaken (fun _ h => h) (fun _ _ h => h)
    fun e s h => hweak e s (h.weaken hstart hstart fun _ h => h)) fun r => ?_
  obtain ⟨payload, before⟩ := r
  refine triple_of_prop fun hpayload => ?_
  refine Triple.pre (P := Through (Untouched target w₀) (Untouched target w₀)
    (fun v => v.installed = false)) ?_ fun s h => h.weaken hstart hstart fun _ h => h
  have hI : ∀ w, Untouched target w₀ w → Untouched target w₀ w := fun _ h => h
  change Triple _ _ (replaceFile p target names payload before) _ _
  unfold replaceFile
  split
  · next found hkept =>
    refine Triple.weaken (raising (?_ : Triple env _ _ _
      fun _ => Through (Untouched target w₀) (Untouched target w₀)
        fun v : Flags => v.installed = false))
      (fun _ h => h) (fun _ _ h => h) hweak
    refine Triple.bind (revalidatedEntry_idle (through_idle hquiet hI)) fun current => ?_
    exact Triple.bind (require_idle (through_idle hquiet hI)) fun _ => exitJson_raises (through_idle hquiet hI)
  · split
    · exact (raising (exitJson_raises (through_idle hquiet hI))).weaken (fun _ h => h) (fun _ _ h => h) hweak
    · refine Triple.bind ((privateWorkspace_triple hquiet hw₀ hparent names hnames).weaken
        (fun _ h => h) (fun _ _ h => h) hweak) fun r => ?_
      obtain ⟨workspace, name, identity⟩ := r
      refine triple_of_prop fun hworkspace => ?_
      have hsound : ∀ (s : State), AllSound p payload target w₀ (Taking target w₀ before) s →
          Through T T (fun _ => True) s := fun s h => h.weaken (hT payload hpayload)
        (hT payload hpayload) fun _ _ => trivial
      refine (commitFile_sound hquiet hw₀ hworkspace.1 hworkspace.2).weaken (fun s h => ?_)
        (fun _ s h => hsound s h) fun _ s h => hsound s h
      refine h.weaken (fun _ => Untouched.sound) hI fun v hv hinstalled => ?_
      rw [hv] at hinstalled
      cases hinstalled

end

/-- The directory that the descriptor of the parent directory is open on. -/
def IsParent (p : Params) (w : World PyStr) (parent : Nat) : Prop :=
  Leads (fun k i => w.lookup k = some i) p.root ("/" :: p.components) parent

theorem Leads.unique {w : World PyStr} {names : List PyStr} :
    ∀ {current d d' : Nat}, Leads (fun k i => w.lookup k = some i) current names d →
      Leads (fun k i => w.lookup k = some i) current names d' → d = d' := by
  induction names with
  | nil => exact fun h h' => h.trans h'.symm
  | cons name rest ih =>
    rintro current d d' ⟨following, hentry, hrest⟩ ⟨following', hentry', hrest'⟩
    obtain rfl := Option.some.inj (hentry.symm.trans hentry')
    exact ih hrest hrest'

theorem Leads.lt_next {w : World PyStr} (hw : w.Wf) {names : List PyStr} :
    ∀ {current d : Nat}, current < w.next →
      Leads (fun k i => w.lookup k = some i) current names d → d < w.next := by
  induction names with
  | nil =>
    rintro current d hcurrent rfl
    exact hcurrent
  | cons name rest ih =>
    rintro current d - ⟨following, hentry, hrest⟩
    exact ih (hw.entry _ _ hentry).2 hrest

/-- The new file as the arguments ask for it. -/
def Requested (r : Request) (n : Inode) : Prop :=
  n.kind = .regular ∧ r.params.content.bind PyStr.utf8Encode = some n.bytes ∧
    parseMode r.mode = some n.mode ∧ r.owner = some n.uid ∧ r.group = some n.gid

/-- What the target's name denotes: what it denoted at first, or the complete new file. -/
def Exposes (r : Request) (target : Key PyStr) (w₀ w : World PyStr) : Prop :=
  Intact target w₀ w ∨ Linked target (Requested r) w

/-- The arguments of the transaction are the ones of the request. -/
def OfRequest (r : Request) (p : Params) : Prop :=
  p = { r.params with mode := p.mode, uid := p.uid, gid := p.gid } ∧
    parseMode r.mode = some p.mode ∧ r.owner = some p.uid ∧ r.group = some p.gid

theorem validate_triple {env : Env (World PyStr) Fault} {r : Request} {P : State → Prop} :
    Triple env P (validate r) (fun p s => OfRequest r p ∧ P s) fun _ => P := by
  unfold validate
  split
  · next mode uid gid hmode huid hgid =>
    split
    · exact triple_raise fun _ h => h
    · exact triple_pure fun _ h => ⟨⟨rfl, hmode, huid, hgid⟩, h⟩
  · exact triple_raise fun _ h => h

theorem OfRequest.exposes {r : Request} {p : Params} (h : OfRequest r p) {payload : List UInt8}
    (hpayload : p.content.bind PyStr.utf8Encode = some payload) {target : Key PyStr}
    {w₀ w : World PyStr} (hsound : Sound p payload target w₀ w) : Exposes r target w₀ w := by
  obtain ⟨hp, hmode, huid, hgid⟩ := h
  rcases hsound with hintact | ⟨i, n, hlookup, hinode, hkind, hbytes, hm, hu, hg⟩
  · exact Or.inl hintact
  · refine Or.inr ⟨i, n, hlookup, hinode, hkind, ?_, hm ▸ hmode, hu ▸ huid, hg ▸ hgid⟩
    rw [hp] at hpayload
    rw [hbytes]
    exact hpayload

/-- A run of the module that writes a file. -/
theorem main_triple {env : Env (World PyStr) Fault} (hquiet : Quiet env) {r : Request}
    (hstate : r.state = .file) {names : List PyStr} (hnames : r.name ∉ names) {w₀ : World PyStr}
    (hw₀ : w₀.Wf) {parent : Nat} (hparent : IsParent r.params w₀ parent) :
    Triple env (Through (· = w₀) (· = w₀) fun v => v.installed = false) (main r names)
      (fun _ => Through (Exposes r (parent, r.name) w₀) (Exposes r (parent, r.name) w₀) fun _ => True)
      fun _ => Through (Exposes r (parent, r.name) w₀) (Exposes r (parent, r.name) w₀)
        fun _ => True := by
  have hI : ∀ w, w = w₀ → w = w₀ := fun _ h => h
  have hU : ∀ w, Untouched (parent, r.name) w₀ w → Exposes r (parent, r.name) w₀ w :=
    fun _ h => Or.inl h.toIntact
  have hweak : ∀ (s : State), Through (· = w₀) (· = w₀) (fun v => v.installed = false) s →
      Through (Exposes r (parent, r.name) w₀) (Exposes r (parent, r.name) w₀) (fun _ => True) s :=
    fun s h => h.weaken (fun w hw => Or.inl (hw ▸ .refl _ _)) (fun w hw => Or.inl (hw ▸ .refl _ _))
      fun _ _ => trivial
  have hperform : Triple env (Through (· = w₀) (· = w₀) fun v => v.installed = false)
      (perform r names)
      (fun _ => Through (Exposes r (parent, r.name) w₀) (Exposes r (parent, r.name) w₀) fun _ => True)
      fun _ => Through (Exposes r (parent, r.name) w₀) (Exposes r (parent, r.name) w₀)
        fun _ => True := by
    refine Triple.bind (validate_triple.weaken (fun _ h => h) (fun _ _ h => h)
      fun _ s h => hweak s h) fun p => triple_of_prop fun hp => ?_
    have hpath : p.root = r.params.root ∧ p.components = r.params.components := by
      rw [hp.1]
      exact ⟨rfl, rfl⟩
    refine Triple.bind ((@openBoundDirectory_triple _ _ p (through_idle hquiet hI)
      (fun k i => w₀.lookup k = some i) fun s k i hs hi => hs.now ▸ hi).weaken (fun _ h => h)
      (fun _ _ h => h) fun _ s h => hweak s h) fun d => triple_of_prop fun hd => ?_
    rw [hpath.1, hpath.2] at hd
    obtain rfl := Leads.unique hparent hd
    have hlt : parent < w₀.next := by
      obtain ⟨root, hroot, hrest⟩ := hd
      exact hrest.lt_next hw₀ (hw₀.entry _ _ hroot).2
    have htransact : Triple env (Through (· = w₀) (· = w₀) fun v => v.installed = false)
        (transact r p parent names)
        (fun _ => Through (Exposes r (parent, r.name) w₀) (Exposes r (parent, r.name) w₀)
          fun _ => True)
        fun _ => Through (Exposes r (parent, r.name) w₀) (Exposes r (parent, r.name) w₀)
          fun _ => True := by
      unfold transact
      rw [hstate]
      exact writeFile_sound hquiet hw₀ hlt hnames (fun payload hpayload w h => hp.exposes hpayload h)
        hU
    have hclose : Preserves env (Through (Exposes r (parent, r.name) w₀)
        (Exposes r (parent, r.name) w₀) fun _ => True) (closeParent parent) :=
      (close_idle (through_idle hquiet fun _ h => h)).attempt.bind fun _ => preserves_pure
    exact Triple.ensuring htransact (fun _ => hclose) fun _ => hclose
  refine Triple.bind (attempt_triple hperform) fun result => ?_
  cases result with
  | ok u => exact triple_pure fun _ h => h
  | error e => cases e <;> exact raising (failJson_raises (through_idle hquiet fun _ h => h))

/-- **No partial file is ever exposed**, and none is lost: whatever system calls fail, at every
instant the target denotes the entry that was there, with the same data, or the complete new file;
and so it does at the end.  `names` are the random names that a workspace can get. -/
theorem main_exposes {env : Env (World PyStr) Fault} (hquiet : Quiet env) {r : Request}
    (hstate : r.state = .file) {names : List PyStr} (hnames : r.name ∉ names) {w₀ : World PyStr}
    (hw₀ : w₀.Wf) {parent : Nat} (hparent : IsParent r.params w₀ parent) :
    let s := (main r names env ⟨w₀, [], {}⟩).2
    (∀ e ∈ s.log, Exposes r (parent, r.name) w₀ e.before ∧ Exposes r (parent, r.name) w₀ e.after) ∧
      Exposes r (parent, r.name) w₀ s.world := by
  have hrun := main_triple hquiet hstate hnames hw₀ hparent ⟨w₀, [], {}⟩
    ⟨rfl, rfl, fun e he => by cases he⟩
  split at hrun
  · next a s heq =>
    rw [heq]
    exact ⟨hrun.past, hrun.now⟩
  · next e s heq =>
    rw [heq]
    exact ⟨hrun.past, hrun.now⟩

/-- The directory `/d` is empty, and its identity is known. -/
def sampleWorld : World PyStr where
  inode i := match i with
    | 1 => some ⟨.directory, 0o755, 0, 0, [], 0, 0⟩
    | 2 => some ⟨.directory, 0o755, 0, 0, [], 0, 0⟩
    | _ => none
  entries := [((0, "/"), 1), ((1, "d"), 2)]
  next := 3
  own := []

/-- A new file `/d/a`. -/
def sampleRequest : Request where
  state := .file
  name := "a"
  mode := "0644"
  owner := some 0
  group := some 0
  params :=
    { path := "/d/a", root := 0, components := ["d"]
      identities := fun depth => if depth = 1 then some (some 2) else none
      descriptorPath := "/d", content := some "x", mode := 0, uid := 0, gid := 0
      expectedChecksum := none, allowAbsent := true, checkMode := false
      euid := 0, egid := 0, groups := [] }

theorem wf_sampleWorld : sampleWorld.Wf := by
  refine ⟨fun k i hi => ?_, fun i hi => ?_⟩
  · have hmem := World.lookup_mem hi
    simp only [sampleWorld, List.mem_cons, List.not_mem_nil, or_false, Prod.mk.injEq] at hmem
    rcases hmem with ⟨rfl, rfl⟩ | ⟨rfl, rfl⟩ <;> decide
  · obtain ⟨k, rfl⟩ := Nat.exists_eq_add_of_le' hi
    rfl

theorem isParent_sampleWorld : IsParent sampleRequest.params sampleWorld 2 :=
  ⟨1, by decide, 2, by decide, rfl⟩

/-- The sync of the parent directory fails, after the rename. -/
def sampleFault : Nat → Option Fault
  | 25 => some (.fail (.other 5))
  | _ => none

theorem main_exposes_sample : Exposes sampleRequest (2, "a") sampleWorld
    (main sampleRequest ["w"] ⟨sampleFault, fun _ w => w⟩ ⟨sampleWorld, [], {}⟩).2.world :=
  (@main_exposes ⟨sampleFault, fun _ w => w⟩ (fun _ _ => rfl) sampleRequest rfl ["w"] (by decide)
    sampleWorld wf_sampleWorld 2 isParent_sampleWorld).2

end Supplementary.Atomic.Path
