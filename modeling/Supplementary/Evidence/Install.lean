/-
# Installing an evidence tree

`_replace_root` moves the old tree aside, renames the new one to its name, renames the old one back if
that fails, and removes what is left under the name set aside, whatever happened.  Here is what the
renames and the removals leave when the environment makes any of them fail: `old_or_new_iff` names the
one schedule in which both trees are lost.
-/
import Supplementary.Lib.Machine
import Supplementary.Python.Str
import Mathlib.Data.List.Infix
import Mathlib.Logic.Function.Basic

namespace Supplementary.Evidence

open Machine

/-! ## 1. Trees -/

inductive Node
  | file (octets : Bytes)
  | directory
  deriving DecidableEq

/-- What a tree holds; `path` goes down from the tree's own name. -/
structure Entry where
  path : List PyStr
  node : Node
  deriving DecidableEq

/-- What has a name, in the order in which it is removed: a directory stands after what it holds.
Without entries nothing has that name. -/
@[ext] structure Tree where
  entries : List Entry
  inside_first : entries.Pairwise fun a b => ¬ a.path <+: b.path
  closed : ∀ e ∈ entries, ∀ p, p <+: e.path → p ≠ e.path → ⟨p, .directory⟩ ∈ entries

namespace Tree

instance : DecidableEq Tree := fun t u => decidable_of_iff (t.entries = u.entries)
  (Tree.ext_iff (x := t)).symm

/-- What a name has that is free. -/
def absent : Tree := ⟨[], .nil, by simp⟩

/-- `path.exists()`. -/
def isPresent (t : Tree) : Bool := !t.entries.isEmpty

/-- `path.is_dir()`. -/
def isDirectory (t : Tree) : Bool := t.entries.any fun e => e.path = [] && e.node = .directory

theorem isPresent_iff {t : Tree} : t.isPresent = true ↔ t ≠ absent := by
  rw [isPresent, Bool.not_eq_true', List.isEmpty_eq_false_iff, Ne, Ne, Tree.ext_iff, absent]

@[simp] theorem isPresent_absent : absent.isPresent = false := rfl

theorem isPresent_of_isDirectory {t : Tree} (h : t.isDirectory = true) : t.isPresent = true := by
  rw [isDirectory, List.any_eq_true] at h
  obtain ⟨e, he, -⟩ := h
  rw [isPresent, Bool.not_eq_true', List.isEmpty_eq_false_iff]
  exact List.ne_nil_of_mem he

/-- `unlink` or `rmdir` of an entry; a directory goes only when it is empty. -/
def remove (t : Tree) (e : Entry) : Option Tree :=
  if h : e ∈ t.entries ∧ ∀ d ∈ t.entries, e.path <+: d.path → d = e then
    some
      { entries := t.entries.erase e
        inside_first := t.inside_first.sublist List.erase_sublist
        closed := by
          intro d hd p hp hne
          have hd' := List.mem_of_mem_erase hd
          refine (List.mem_erase_of_ne fun heq => ?_).mpr (t.closed d hd' p hp hne)
          -- a directory that goes holds nothing
          subst heq
          have hsame := h.2 d hd' hp
          subst hsame
          exact hne rfl }
  else none

theorem length_of_remove {t t' : Tree} {e : Entry} (h : t.remove e = some t') :
    t'.entries.length < t.entries.length := by
  unfold remove at h
  split at h
  · next hmem =>
    cases h
    change (t.entries.erase e).length < t.entries.length
    rw [List.length_erase_of_mem hmem.1]
    have := List.length_pos_of_mem hmem.1
    omega
  · cases h

/-- What stands first can go. -/
theorem exists_remove_head {t : Tree} {e : Entry} {rest : List Entry} (h : t.entries = e :: rest) :
    ∃ t', t.remove e = some t' := by
  have hfirst := t.inside_first
  rw [h, List.pairwise_cons] at hfirst
  unfold remove
  rw [dif_pos]
  · exact ⟨_, rfl⟩
  · rw [h]
    constructor
    · exact List.mem_cons_self
    · intro d hd hbelow
      rcases List.mem_cons.mp hd with rfl | hd
      · rfl
      · exact absurd hbelow (hfirst.1 d hd)

end Tree

/-! ## 2. The file system -/

/-- What each name has in the directory of the evidence root. -/
abbrev World := PyStr → Tree

inductive Call
  | rename (source target : PyStr)
  | unlink (name : PyStr) (path : List PyStr)
  | rmdir (name : PyStr) (path : List PyStr)
  deriving DecidableEq

/-- `OSError`, with its `errno`. -/
inductive OSError
  | noent
  | notdir
  | isdir
  | notempty
  | injected (errno : Nat)
  deriving DecidableEq

/-- A program that works on the file system. -/
abbrev Sys := Program World Call Nat Unit OSError

/-- The calls that fail, by their number; nothing else works on the directory. -/
def schedule (fault : Nat → Option Nat) : Env World Nat := ⟨fault, fun _ w => w⟩

/-- What has a name, without a call that could fail. -/
def look (name : PyStr) : Sys Tree := fun _ s => (.ok (s.world name), s)

/-- `rename(2)`: a target is replaced by a source of its kind, a directory only if it is empty. -/
def World.rename (w : World) (source target : PyStr) : Except OSError World :=
  if !(w source).isPresent then .error .noent
  else if (w target).isPresent && (w source).isDirectory && !(w target).isDirectory then
    .error .notdir
  else if (w target).isDirectory && !(w source).isDirectory then .error .isdir
  else if 1 < (w target).entries.length then .error .notempty
  else .ok (Function.update (Function.update w target (w source)) source .absent)

/-- `source.replace(target)`. -/
def rename (source target : PyStr) : Sys Unit :=
  Program.perform (.rename source target) fun fault w => match fault with
    | some errno => (.error (.injected errno), w)
    | none => match w.rename source target with
      | .ok w' => (.ok (), w')
      | .error e => (.error e, w)

/-- The call that removes an entry. -/
def Entry.removal (e : Entry) (name : PyStr) : Call := match e.node with
  | .file _ => .unlink name e.path
  | .directory => .rmdir name e.path

def removeEntry (name : PyStr) (e : Entry) : Sys Unit :=
  Program.perform (e.removal name) fun fault w => match fault with
    | some errno => (.error (.injected errno), w)
    | none => match (w name).remove e with
      | some t => (.ok (), Function.update w name t)
      | none => (.error .notempty, w)

/-- `shutil.rmtree(name)`: the first error ends it. -/
def rmtree (name : PyStr) : Sys Unit := do
  let tree ← look name
  if tree.isDirectory then tree.entries.forM (removeEntry name)
  else Program.raise (if tree.isPresent then .notdir else .noent)

/-- `shutil.rmtree(name, ignore_errors=True)`. -/
def rmtreeIgnoring (name : PyStr) : Sys Unit := do
  let tree ← look name
  if tree.isDirectory then
    tree.entries.forM fun e => do
      let _ ← Program.attempt some (removeEntry name e)
      pure ()
  else pure ()

/-! ## 3. `_replace_root` -/

/-- `if condition: x`. -/
def onlyIf (condition : Bool) (x : Sys Unit) : Sys Unit := if condition then x else pure ()

/-- What the handler does before it raises again. -/
def restore (root backup : PyStr) (moved : Bool) : Sys Unit := do
  let old ← look backup
  let current ← look root
  onlyIf (moved && old.isPresent && !current.isPresent) (rename backup root)

/-- The `try` and its handler. -/
def install (stage root backup : PyStr) (moved : Bool) : Sys Unit := do
  match ← Program.attempt some (rename stage root) with
  | .ok () => pure ()
  | .error e => do
    restore root backup moved
    Program.raise e

/-- The `finally`. -/
def discard (backup : PyStr) (moved : Bool) : Sys Unit := do
  let old ← look backup
  onlyIf (moved && old.isPresent) (rmtree backup)

/-- `_replace_root(stage, root)`, with the backup name that it makes up; `moved` says that `backup`
is not `None`. -/
def replaceRoot (stage root backup : PyStr) : Sys Unit := do
  let current ← look root
  onlyIf current.isPresent (rename root backup)
  Program.ensuring (install stage root backup current.isPresent) (discard backup current.isPresent)

/-- The end of `assemble`: an exception removes the stage and is raised again. -/
def installEvidence (stage root backup : PyStr) : Sys Unit := do
  match ← Program.attempt some (replaceRoot stage root backup) with
  | .ok () => pure ()
  | .error e => do
    rmtreeIgnoring stage
    Program.raise e

/-! ## 4. What is kept -/

/-- The old tree has the root's name, or was left under the backup's. -/
def OldKept (root backup : PyStr) (w w' : World) : Prop :=
  w' root = w root ∨ (w root ≠ .absent ∧ w' backup = w root)

/-- The stage was renamed to the root. -/
def Installed (stage root : PyStr) (log : List (Step World Call)) : Prop :=
  ∃ step ∈ log, step.call = .rename stage root ∧ step.ok = true

/-- One of the trees is complete; and the old one, if the new one was not installed. -/
def OldOrNew (stage root backup : PyStr) (w : World)
    (result : Except OSError Unit × Run World Call Unit) : Prop :=
  (OldKept root backup w result.2.world ∨ result.2.world root = w stage) ∧
    (result.1.isOk = false → ¬ Installed stage root result.2.log →
      OldKept root backup w result.2.world)

/-- A run that starts in a world. -/
def started (w : World) : Run World Call Unit := ⟨w, [], ()⟩

section

variable {fault : Nat → Option Nat} {s : Run World Call Unit} {w : World}
variable {stage root backup name other source target : PyStr}

/-! ### One call -/

theorem rename_faulted (source target : PyStr) {n : Nat}
    (h : fault s.log.length = some n) :
    rename source target (schedule fault) s =
      (.error (.injected n),
        { s with log := ⟨.rename source target, s.world, s.world, false⟩ :: s.log }) := by
  simp [rename, Program.perform, schedule, h, Except.isOk, Except.toBool]

theorem rename_done {w' : World} (h : fault s.log.length = none)
    (hw : s.world.rename source target = .ok w') :
    rename source target (schedule fault) s =
      (.ok (), { s with
        world := w', log := ⟨.rename source target, s.world, w', true⟩ :: s.log }) := by
  simp [rename, Program.perform, schedule, h, hw, Except.isOk, Except.toBool]

theorem rename_refused {e : OSError} (h : fault s.log.length = none)
    (hw : s.world.rename source target = .error e) :
    rename source target (schedule fault) s =
      (.error e, { s with log := ⟨.rename source target, s.world, s.world, false⟩ :: s.log }) := by
  simp [rename, Program.perform, schedule, h, hw, Except.isOk, Except.toBool]

/-- A name that is free takes what is renamed to it. -/
theorem World.rename_free (hsource : (w source).isPresent = true) (htarget : w target = .absent) :
    w.rename source target =
      .ok (Function.update (Function.update w target (w source)) source .absent) := by
  have hnone : Tree.absent.isDirectory = false := rfl
  have hfree : Tree.absent.entries.length = 0 := rfl
  simp [World.rename, hsource, htarget, hnone, hfree]

/-- What `rename` leaves under the two names. -/
theorem World.of_rename {w' : World} (h : w.rename source target = .ok w') :
    w' = Function.update (Function.update w target (w source)) source .absent := by
  unfold World.rename at h
  split_ifs at h
  cases h
  rfl

/-! ### Removals -/

/-- A removal leaves the other names alone, and is no rename. -/
theorem removeEntry_frame {e : Entry} {P : Tree → List (Step World Call) → Prop}
    (hne : other ≠ name)
    (hlog : ∀ t log step, (∀ a b, step.call ≠ Call.rename a b) → P t log → P t (step :: log)) :
    Preserves (schedule fault) (fun s => P (s.world other) s.log) (removeEntry name e) := by
  have hcall : ∀ a b, e.removal name ≠ Call.rename a b := by
    intro a b
    unfold Entry.removal
    cases e.node <;> simp
  refine triple_perform (fun s _ after hs hact => ?_) fun s _ after hs hact => ?_
  · refine hlog _ _ _ hcall ?_
    have hafter : after other = s.world other := by
      split at hact
      · cases hact
      · split at hact
        · cases hact
          exact Function.update_of_ne hne _ _
        · cases hact
    change P (after other) s.log
    rw [hafter]
    exact hs
  · refine hlog _ _ _ hcall ?_
    have hafter : after = s.world := by
      split at hact
      · cases hact
        rfl
      · split at hact
        · cases hact
        · cases hact
          rfl
    change P (after other) s.log
    rw [hafter]
    exact hs

/-- What is left of a tree does not grow. -/
theorem removeEntry_shrinks {e : Entry} {n : Nat} :
    Preserves (schedule fault) (fun s => (s.world name).entries.length < n) (removeEntry name e) := by
  refine triple_perform (fun s _ after hs hact => ?_) fun s _ after hs hact => ?_
  · split at hact
    · cases hact
    · split at hact
      · next t ht =>
        cases hact
        have := Tree.length_of_remove ht
        change (Function.update s.world name t name).entries.length < n
        rw [Function.update_self]
        exact this.trans hs
      · cases hact
  · split at hact
    · cases hact
      exact hs
    · split at hact
      · cases hact
      · cases hact
        exact hs

theorem preserves_look {env : Env World Nat} {P : Run World Call Unit → Prop} {f : Tree → Sys Unit}
    (h : ∀ t, Preserves env P (f t)) : Preserves env P (look name >>= f) := by
  have hlook : Preserves env P (look name) := fun _ hs => hs
  exact hlook.bind h

theorem rmtree_frame {P : Tree → List (Step World Call) → Prop} (hne : other ≠ name)
    (hlog : ∀ t log step, (∀ a b, step.call ≠ Call.rename a b) → P t log → P t (step :: log)) :
    Preserves (schedule fault) (fun s => P (s.world other) s.log) (rmtree name) := by
  refine preserves_look fun t => ?_
  refine Preserves.ite (fun _ => ?_) fun _ => preserves_raise
  exact preserves_forM fun e _ => removeEntry_frame hne hlog

theorem rmtreeIgnoring_frame {P : Tree → List (Step World Call) → Prop} (hne : other ≠ name)
    (hlog : ∀ t log step, (∀ a b, step.call ≠ Call.rename a b) → P t log → P t (step :: log)) :
    Preserves (schedule fault) (fun s => P (s.world other) s.log) (rmtreeIgnoring name) := by
  refine preserves_look fun t => ?_
  refine Preserves.ite (fun _ => ?_) fun _ => preserves_pure
  refine preserves_forM fun e _ => ?_
  exact (removeEntry_frame hne hlog).attempt.bind fun _ => preserves_pure

/-- The removals of a tree begin with its first entry: if that call fails nothing is gone, and else
the tree is incomplete whatever happens next. -/
theorem rmtree_first (fault : Nat → Option Nat) (name : PyStr)
    (hdir : (s.world name).isDirectory = true) :
    (∀ n, fault s.log.length = some n →
      ((rmtree name) (schedule fault) s).2.world = s.world) ∧
    (fault s.log.length = none →
      ((rmtree name) (schedule fault) s).2.world name ≠ s.world name) := by
  have hpresent := Tree.isPresent_of_isDirectory hdir
  obtain ⟨e, rest, hentries⟩ : ∃ e rest, (s.world name).entries = e :: rest := by
    rw [Tree.isPresent, Bool.not_eq_true', List.isEmpty_eq_false_iff] at hpresent
    exact List.exists_cons_of_ne_nil hpresent
  have hrun : (rmtree name) (schedule fault) s =
      (removeEntry name e >>= fun _ => rest.forM (removeEntry name)) (schedule fault) s := by
    change (if (s.world name).isDirectory = true then
        (s.world name).entries.forM (removeEntry name) else _) (schedule fault) s = _
    rw [if_pos hdir, hentries]
    rfl
  rw [hrun]
  constructor
  · intro n hn
    have hfail : removeEntry name e (schedule fault) s =
        (.error (.injected n),
          { s with log := ⟨e.removal name, s.world, s.world, false⟩ :: s.log }) := by
      simp [removeEntry, Program.perform, schedule, hn, Except.isOk, Except.toBool]
    rw [Program.bind_of_error hfail]
  · intro hnone heq
    obtain ⟨t, ht⟩ := Tree.exists_remove_head hentries
    have hdone : removeEntry name e (schedule fault) s =
        (.ok (), { s with
          world := Function.update s.world name t
          log := ⟨e.removal name, s.world, Function.update s.world name t, true⟩ :: s.log }) := by
      simp [removeEntry, Program.perform, schedule, hnone, ht, Except.isOk, Except.toBool]
    have hrest : Preserves (schedule fault)
        (fun s' => (s'.world name).entries.length < (s.world name).entries.length)
        (rest.forM (removeEntry name)) := preserves_forM fun _ _ => removeEntry_shrinks
    have hfirst : (Function.update s.world name t name).entries.length <
        (s.world name).entries.length := by
      rw [Function.update_self]
      exact Tree.length_of_remove ht
    have hlast := hrest.preserved (s := { s with
      world := Function.update s.world name t
      log := ⟨e.removal name, s.world, Function.update s.world name t, true⟩ :: s.log }) hfirst
    rw [Program.bind_of_ok hdone] at heq
    rw [heq] at hlast
    exact absurd hlast (Nat.lt_irrefl _)

/-! ### `_replace_root` -/

theorem oldOrNew_of_kept {result : Except OSError Unit × Run World Call Unit}
    (h : OldKept root backup w result.2.world) : OldOrNew stage root backup w result :=
  ⟨.inl h, fun _ _ => h⟩

theorem oldOrNew_of_installed {result : Except OSError Unit × Run World Call Unit}
    (h : Installed stage root result.2.log) (hroot : result.2.world root = w stage) :
    OldOrNew stage root backup w result := ⟨.inr hroot, fun _ hnot => absurd h hnot⟩

theorem discard_free (h : s.world backup = .absent) (moved : Bool) :
    discard backup moved (schedule fault) s = (.ok (), s) := by
  change onlyIf (moved && (s.world backup).isPresent) (rmtree backup) (schedule fault) s = _
  rw [h, Tree.isPresent_absent, Bool.and_false]
  rfl

theorem discard_not_moved : discard backup false (schedule fault) s = (.ok (), s) := rfl

theorem discard_present (h : (s.world backup).isPresent = true) :
    discard backup true (schedule fault) s = rmtree backup (schedule fault) s := by
  change onlyIf (true && (s.world backup).isPresent) (rmtree backup) (schedule fault) s = _
  rw [h]
  rfl

theorem install_done (backup : PyStr) (moved : Bool) {s' : Run World Call Unit}
    (h : rename stage root (schedule fault) s = (.ok (), s')) :
    install stage root backup moved (schedule fault) s = (.ok (), s') := by
  have hattempt : Program.attempt some (rename stage root) (schedule fault) s =
      (.ok (.ok ()), s') := by
    rw [Program.attempt, h]
  rw [install, Program.bind_of_ok hattempt]
  rfl

theorem install_failed (backup : PyStr) (moved : Bool) {s' s'' : Run World Call Unit} {e : OSError}
    {r : Except OSError Unit} (h : rename stage root (schedule fault) s = (.error e, s'))
    (hrestore : restore root backup moved (schedule fault) s' = (r, s'')) :
    ∃ e', install stage root backup moved (schedule fault) s = (.error e', s'') := by
  have hattempt : Program.attempt some (rename stage root) (schedule fault) s =
      (.ok (.error e), s') := by
    rw [Program.attempt, h]
  rw [install, Program.bind_of_ok hattempt]
  cases r with
  | ok u =>
    change ∃ e', (restore root backup moved >>= fun _ => Program.raise e) _ _ = _
    rw [Program.bind_of_ok hrestore]
    exact ⟨e, rfl⟩
  | error e' =>
    change ∃ e', (restore root backup moved >>= fun _ => Program.raise e) _ _ = _
    rw [Program.bind_of_error hrestore]
    exact ⟨e', rfl⟩

/-- Without an old tree there is nothing to lose. -/
theorem replaceRoot_first (hroot : w root = .absent) (hstage : (w stage).isPresent = true)
    (hne : root ≠ stage) :
    OldOrNew stage root backup w (replaceRoot stage root backup (schedule fault) (started w)) := by
  have hrun : replaceRoot stage root backup (schedule fault) (started w) =
      Program.ensuring (install stage root backup false) (discard backup false) (schedule fault)
        (started w) := by
    change (onlyIf (w root).isPresent (rename root backup) >>= fun _ =>
      Program.ensuring (install stage root backup (w root).isPresent)
        (discard backup (w root).isPresent)) (schedule fault) (started w) = _
    rw [hroot]
    rfl
  rw [hrun]
  cases hfault : fault (started w).log.length with
  | none =>
    have hrename := rename_done hfault (World.rename_free (w := (started w).world) hstage hroot)
    rw [Program.ensuring_of_ok (install_done backup false hrename) discard_not_moved]
    refine oldOrNew_of_installed ⟨_, List.mem_cons_self, rfl, rfl⟩ ?_
    change Function.update (Function.update w root (w stage)) stage .absent root = w stage
    rw [Function.update_of_ne hne, Function.update_self]
  | some n =>
    have hrename := rename_faulted stage root hfault
    obtain ⟨e, hinstall⟩ := install_failed backup false hrename rfl
    rw [Program.ensuring_of_ok hinstall discard_not_moved]
    exact oldOrNew_of_kept (.inl rfl)

/-- The world after the old tree was moved aside. -/
theorem moved_aside {w' : World} (h : w.rename root backup = .ok w') (hne : backup ≠ root) :
    w' root = .absent ∧ w' backup = w root ∧
      ∀ other, other ≠ root → other ≠ backup → w' other = w other := by
  rw [World.of_rename h]
  refine ⟨Function.update_self .., ?_, fun other hroot hbackup => ?_⟩
  · rw [Function.update_of_ne hne, Function.update_self]
  · rw [Function.update_of_ne hroot, Function.update_of_ne hbackup]

/-- With an old tree, its renaming is the first call. -/
theorem replaceRoot_present (hroot : (w root).isPresent = true) :
    replaceRoot stage root backup (schedule fault) (started w) =
      (rename root backup >>= fun _ => Program.ensuring (install stage root backup true)
        (discard backup true)) (schedule fault) (started w) := by
  change (onlyIf (w root).isPresent (rename root backup) >>= fun _ =>
    Program.ensuring (install stage root backup (w root).isPresent)
      (discard backup (w root).isPresent)) (schedule fault) (started w) = _
  rw [hroot]
  rfl

/-- The old tree is not moved: it stays. -/
theorem replaceRoot_not_moved (hroot : (w root).isPresent = true)
    (h : (∃ n, fault 0 = some n) ∨ ∃ e, w.rename root backup = .error e) :
    OldOrNew stage root backup w (replaceRoot stage root backup (schedule fault) (started w)) := by
  obtain ⟨e, log, hrename⟩ : ∃ e log, rename root backup (schedule fault) (started w) =
      (.error e, { started w with log := log }) := by
    cases hfault : fault 0 with
    | some n => exact ⟨_, _, rename_faulted root backup (s := started w) hfault⟩
    | none =>
      obtain ⟨n, hn⟩ | ⟨e, he⟩ := h
      · rw [hfault] at hn
        cases hn
      · exact ⟨_, _, rename_refused (s := started w) hfault he⟩
  rw [replaceRoot_present hroot, Program.bind_of_error hrename]
  exact oldOrNew_of_kept (.inl rfl)

/-- What follows once the old tree has the backup's name. -/
def afterMove (stage root backup : PyStr) (fault : Nat → Option Nat) (w w' : World) :
    Except OSError Unit × Run World Call Unit :=
  Program.ensuring (install stage root backup true) (discard backup true) (schedule fault)
    ⟨w', [⟨.rename root backup, w, w', true⟩], ()⟩

theorem replaceRoot_moved {w' : World} (hroot : (w root).isPresent = true) (hfault : fault 0 = none)
    (hmove : w.rename root backup = .ok w') :
    replaceRoot stage root backup (schedule fault) (started w) =
      afterMove stage root backup fault w w' := by
  have hrename := rename_done (s := started w) hfault hmove
  rw [replaceRoot_present hroot, Program.bind_of_ok hrename]
  rfl

/-- The new tree is installed; the removal of the old one does not touch it. -/
theorem afterMove_installed {w' : World} (hmove : w.rename root backup = .ok w')
    (hstage : (w stage).isPresent = true)
    (hsr : stage ≠ root) (hsb : stage ≠ backup) (hrb : root ≠ backup) (hfault : fault 1 = none) :
    OldOrNew stage root backup w (afterMove stage root backup fault w w') := by
  obtain ⟨hfree, hbackup, hother⟩ := moved_aside hmove hrb.symm
  have hnew : w' stage = w stage := hother stage hsr hsb
  obtain ⟨w'', hinstalled⟩ : ∃ w'', w'.rename stage root = .ok w'' :=
    ⟨_, World.rename_free (hnew ▸ hstage) hfree⟩
  have hroot'' : w'' root = w stage := by
    rw [World.of_rename hinstalled, Function.update_of_ne hsr.symm, Function.update_self, hnew]
  have hrename := rename_done
    (s := (⟨w', [⟨.rename root backup, w, w', true⟩], ()⟩ : Run World Call Unit)) hfault hinstalled
  have hend := Program.ensuring_run (discard backup true) (install_done backup true hrename)
  have hkept : Preserves (schedule fault)
      (fun s => s.world root = w stage ∧ Installed stage root s.log) (discard backup true) := by
    refine preserves_look fun t => Preserves.ite (fun _ => ?_) fun _ => preserves_pure
    refine rmtree_frame (P := fun t log => t = w stage ∧ Installed stage root log) hrb ?_
    rintro t log step hcall ⟨ht, c, hc, hok⟩
    exact ⟨ht, c, List.mem_cons_of_mem _ hc, hok⟩
  have hlast := hkept.preserved (s := ⟨w'', ⟨.rename stage root, w', w'', true⟩ ::
    [⟨.rename root backup, w, w', true⟩], ()⟩) ⟨hroot'', _, List.mem_cons_self, rfl, rfl⟩
  rw [← hend] at hlast
  exact oldOrNew_of_installed hlast.2 hlast.1

/-- The new tree cannot be installed: what the handler does decides. -/
theorem afterMove_failed (stage : PyStr) {w' : World} {n : Nat}
    (hmove : w.rename root backup = .ok w') (hroot : (w root).isPresent = true) (hrb : root ≠ backup) (hfault : fault 1 = some n) :
    ∃ log : List (Step World Call), log.length = 2 ∧ ∀ r s',
      rename backup root (schedule fault) ⟨w', log, ()⟩ = (r, s') →
      ∃ e, install stage root backup true (schedule fault)
        ⟨w', [⟨.rename root backup, w, w', true⟩], ()⟩ = (.error e, s') := by
  obtain ⟨hfree, hbackup, -⟩ := moved_aside hmove hrb.symm
  have hrename := rename_faulted stage root
    (s := (⟨w', [⟨.rename root backup, w, w', true⟩], ()⟩ : Run World Call Unit)) hfault
  refine ⟨⟨.rename stage root, w', w', false⟩ :: [⟨.rename root backup, w, w', true⟩], rfl,
    fun r s' hback => install_failed backup true hrename (r := r) ?_⟩
  change onlyIf (true && (w' backup).isPresent && !(w' root).isPresent) (rename backup root)
    (schedule fault) _ = _
  rw [hbackup, hroot, hfree, Tree.isPresent_absent]
  exact hback

/-- The old tree goes back to its name. -/
theorem afterMove_restored {w' : World} {n : Nat} (hmove : w.rename root backup = .ok w')
    (hroot : (w root).isPresent = true) (hrb : root ≠ backup) (hfault : fault 1 = some n)
    (hback : fault 2 = none) :
    OldOrNew stage root backup w (afterMove stage root backup fault w w') := by
  obtain ⟨hfree, hbackup, -⟩ := moved_aside hmove hrb.symm
  obtain ⟨log, hlog, hinstall⟩ := afterMove_failed stage hmove hroot hrb hfault
  obtain ⟨w'', hrestored⟩ : ∃ w'', w'.rename backup root = .ok w'' :=
    ⟨_, World.rename_free (hbackup ▸ hroot) hfree⟩
  have hworld := World.of_rename hrestored
  have hsecond : fault log.length = none := by
    rw [hlog]
    exact hback
  have hrename := rename_done (s := (⟨w', log, ()⟩ : Run World Call Unit)) hsecond hrestored
  obtain ⟨e, hfailed⟩ := hinstall _ _ hrename
  have hgone : w'' backup = .absent := by
    rw [hworld, Function.update_self]
  rw [afterMove, Program.ensuring_of_ok hfailed (discard_free hgone true)]
  refine oldOrNew_of_kept (.inl ?_)
  change w'' root = w root
  rw [hworld, Function.update_of_ne hrb, Function.update_self, hbackup]

/-- The old tree does not go back either: what is left of it is what `rmtree` leaves. -/
theorem afterMove_not_restored (stage : PyStr) {w' : World} {n m : Nat}
    (hmove : w.rename root backup = .ok w') (hroot : (w root).isPresent = true) (hrb : root ≠ backup) (hfault : fault 1 = some n)
    (hback : fault 2 = some m) :
    ∃ log : List (Step World Call), log.length = 3 ∧
      (afterMove stage root backup fault w w').2 =
        (rmtree backup (schedule fault) ⟨w', log, ()⟩).2 := by
  obtain ⟨-, hbackup, -⟩ := moved_aside hmove hrb.symm
  obtain ⟨log, hlog, hinstall⟩ := afterMove_failed stage hmove hroot hrb hfault
  have hpresent : (w' backup).isPresent = true := by
    rw [hbackup]
    exact hroot
  have hthird : fault log.length = some m := by
    rw [hlog]
    exact hback
  have hrename := rename_faulted backup root (s := (⟨w', log, ()⟩ : Run World Call Unit)) hthird
  obtain ⟨e, hfailed⟩ := hinstall _ _ hrename
  refine ⟨⟨.rename backup root, w', w', false⟩ :: log, by rw [List.length_cons, hlog], ?_⟩
  rw [afterMove, Program.ensuring_run _ hfailed, discard_present hpresent]

end

/-- The one schedule that loses both: an old directory is moved aside, neither rename to the root
succeeds, and the first removal does. -/
def LosesBoth (fault : Nat → Option Nat) (w : World) (root backup : PyStr) : Prop :=
  (w root).isDirectory = true ∧ (w.rename root backup).isOk = true ∧
    fault 0 = none ∧ fault 1 ≠ none ∧ fault 2 ≠ none ∧ fault 3 = none

section

variable {fault : Nat → Option Nat} {w : World} {stage root backup : PyStr}

theorem replaceRoot_loses (h : LosesBoth fault w root backup) (hstage : (w stage).isPresent = true)
    (hrb : root ≠ backup) :
    ¬ OldOrNew stage root backup w (replaceRoot stage root backup (schedule fault) (started w)) := by
  obtain ⟨hdir, hok, hmoved, hinstall, hback, hremoval⟩ := h
  have hroot := Tree.isPresent_of_isDirectory hdir
  obtain ⟨w', hmove⟩ : ∃ w', w.rename root backup = .ok w' := by
    cases hresult : w.rename root backup with
    | ok w' => exact ⟨w', rfl⟩
    | error e =>
      rw [hresult] at hok
      cases hok
  obtain ⟨n, hn⟩ := Option.ne_none_iff_exists'.mp hinstall
  obtain ⟨m, hm⟩ := Option.ne_none_iff_exists'.mp hback
  obtain ⟨hfree, hbackup, -⟩ := moved_aside hmove hrb.symm
  obtain ⟨log, hlog, hrun⟩ := afterMove_not_restored stage hmove hroot hrb hn hm
  have hpartial := (rmtree_first fault backup (s := ⟨w', log, ()⟩) (by
    change (w' backup).isDirectory = true
    rw [hbackup]
    exact hdir)).2 (by rw [hlog]; exact hremoval)
  have hstays : Preserves (schedule fault)
      (fun s : Run World Call Unit => s.world root = .absent) (rmtree backup) :=
    rmtree_frame (P := fun t _ => t = .absent) hrb fun _ _ _ _ ht => ht
  have hgone := hstays.preserved (s := ⟨w', log, ()⟩) hfree
  rw [← hrun] at hpartial hgone
  rw [replaceRoot_moved hroot hmoved hmove]
  rintro ⟨(hsame | ⟨-, hsame⟩) | hnew, -⟩
  · rw [hgone] at hsame
    exact Tree.isPresent_iff.mp hroot hsame.symm
  · exact hpartial (hsame.trans hbackup.symm)
  · rw [hgone] at hnew
    exact Tree.isPresent_iff.mp hstage hnew.symm

theorem replaceRoot_keeps (h : ¬ LosesBoth fault w root backup)
    (hstage : (w stage).isPresent = true) (hsr : stage ≠ root) (hsb : stage ≠ backup)
    (hrb : root ≠ backup) :
    OldOrNew stage root backup w (replaceRoot stage root backup (schedule fault) (started w)) := by
  by_cases hroot : (w root).isPresent = true
  swap
  · refine replaceRoot_first ?_ hstage hsr.symm
    by_contra hne
    exact hroot (Tree.isPresent_iff.mpr hne)
  cases hmoved : fault 0 with
  | some n => exact replaceRoot_not_moved hroot (.inl ⟨n, hmoved⟩)
  | none =>
    cases hmove : w.rename root backup with
    | error e => exact replaceRoot_not_moved hroot (.inr ⟨e, hmove⟩)
    | ok w' =>
      rw [replaceRoot_moved hroot hmoved hmove]
      cases hinstall : fault 1 with
      | none => exact afterMove_installed hmove hstage hsr hsb hrb hinstall
      | some n =>
        cases hback : fault 2 with
        | none => exact afterMove_restored hmove hroot hrb hinstall hback
        | some m =>
          obtain ⟨hfree, hbackup, -⟩ := moved_aside hmove hrb.symm
          obtain ⟨log, hlog, hrun⟩ :=
            afterMove_not_restored stage hmove hroot hrb hinstall hback
          refine oldOrNew_of_kept (.inr ⟨Tree.isPresent_iff.mp hroot, ?_⟩)
          rw [hrun, ← hbackup]
          by_cases hdir : (w root).isDirectory = true
          · have hremoval : ∃ k, fault 3 = some k := by
              refine Option.ne_none_iff_exists'.mp fun hnone => h ?_
              exact ⟨hdir, by rw [hmove]; rfl, hmoved, by simp [hinstall], by simp [hback], hnone⟩
            obtain ⟨k, hk⟩ := hremoval
            have hkept := (rmtree_first fault backup (s := ⟨w', log, ()⟩) (by
              change (w' backup).isDirectory = true
              rw [hbackup]
              exact hdir)).1 k (by rw [hlog]; exact hk)
            rw [hkept]
          · -- a file is not for `rmtree`
            change ((if (w' backup).isDirectory = true then
              (w' backup).entries.forM (removeEntry backup) else _ : Sys Unit)
                (schedule fault) ⟨w', log, ()⟩).2.world backup = _
            rw [hbackup, if_neg hdir]
            exact hbackup

/-- The end of `assemble` adds only removals under the stage's name. -/
theorem oldOrNew_installEvidence (hsr : stage ≠ root) (hsb : stage ≠ backup) :
    OldOrNew stage root backup w (installEvidence stage root backup (schedule fault) (started w)) ↔
      OldOrNew stage root backup w
        (replaceRoot stage root backup (schedule fault) (started w)) := by
  rcases hrun : replaceRoot stage root backup (schedule fault) (started w) with ⟨e | u, s⟩
  · have hattempt : Program.attempt some (replaceRoot stage root backup) (schedule fault)
        (started w) = (.ok (.error e), s) := by
      rw [Program.attempt, hrun]
    have hrun' : ∃ e', installEvidence stage root backup (schedule fault) (started w) =
        (.error e', (rmtreeIgnoring stage (schedule fault) s).2) := by
      rw [installEvidence, Program.bind_of_ok hattempt]
      rcases hremoved : rmtreeIgnoring stage (schedule fault) s with ⟨e' | u, s'⟩
      · exact ⟨e', Program.bind_of_error hremoved⟩
      · exact ⟨e, Program.bind_of_ok hremoved⟩
    obtain ⟨e', hrun'⟩ := hrun'
    have hframe : ∀ other, other ≠ stage →
        (rmtreeIgnoring stage (schedule fault) s).2.world other = s.world other ∧
          (Installed stage root (rmtreeIgnoring stage (schedule fault) s).2.log ↔
            Installed stage root s.log) := by
      intro other hne
      refine Preserves.preserved (rmtreeIgnoring_frame (P := fun t log => t = s.world other ∧
        (Installed stage root log ↔ Installed stage root s.log)) hne ?_) ⟨rfl, Iff.rfl⟩
      rintro t log step hcall ⟨ht, hlog⟩
      refine ⟨ht, ?_⟩
      rw [← hlog, Installed, Installed]
      simp only [List.mem_cons, exists_eq_or_imp, hcall, false_and, false_or]
    rw [hrun', OldOrNew, OldOrNew, OldKept, OldKept]
    rw [(hframe root hsr.symm).1, (hframe backup hsb.symm).1, (hframe root hsr.symm).2]
    rfl
  · have hattempt : Program.attempt some (replaceRoot stage root backup) (schedule fault)
        (started w) = (.ok (.ok u), s) := by
      rw [Program.attempt, hrun]
    rw [installEvidence, Program.bind_of_ok hattempt]
    rfl

/-- **Installing never loses both trees, but for one schedule.**  For distinct names and a stage that
exists, whatever fails: `_replace_root`, and with it the end of `assemble`, leaves the old tree or the
new one complete, and the old one if the new one was not installed, exactly unless the old tree was
moved aside, both renames to the root fail and the removal in the `finally` begins. -/
theorem old_or_new_iff (fault : Nat → Option Nat) (w : World) (stage root backup : PyStr)
    (hnames : [stage, root, backup].Nodup) (hstage : (w stage).isPresent = true) :
    (OldOrNew stage root backup w (replaceRoot stage root backup (schedule fault) (started w)) ∧
      OldOrNew stage root backup w
        (installEvidence stage root backup (schedule fault) (started w))) ↔
      ¬ LosesBoth fault w root backup := by
  simp only [List.nodup_cons, List.mem_cons, List.not_mem_nil, or_false, not_or,
    List.nodup_nil, and_true, not_false_eq_true] at hnames
  obtain ⟨⟨hsr, hsb⟩, hrb⟩ := hnames
  rw [oldOrNew_installEvidence hsr hsb, and_self]
  constructor
  · intro h hloses
    exact replaceRoot_loses hloses hstage hrb h
  · intro h
    exact replaceRoot_keeps h hstage hsr hsb hrb

end

/-- A tree with a manifest of those octets. -/
def manifestTree (octets : Bytes) : Tree where
  entries := [⟨[("manifest.json" : PyStr)], .file octets⟩, ⟨[], .directory⟩]
  inside_first := by simp
  closed := by
    intro e he p hp hne
    have hlength := hp.length_le
    simp only [List.mem_cons, List.not_mem_nil, or_false] at he
    rcases he with rfl | rfl
    · cases p with
      | nil => simp
      | cons a p =>
        have hsame := hp.eq_of_length_le (by simp)
        exact absurd hsame hne
    · exact absurd (List.prefix_nil.mp hp) hne

/-- A root and a stage with a manifest each. -/
def twoTrees : World :=
  Function.update (Function.update (fun _ => Tree.absent) "evidence" (manifestTree [111]))
    ".evidence-q3x" (manifestTree [110])

/-- The install and the restore both fail. -/
def renamesFail (n : Nat) : Option Nat := if n = 1 ∨ n = 2 then some 5 else none

/-- After two failing renames neither tree is complete. -/
theorem both_trees_lost :
    ¬ OldOrNew ".evidence-q3x" "evidence" ".evidence.previous-0f1e2d3c" twoTrees
      (replaceRoot ".evidence-q3x" "evidence" ".evidence.previous-0f1e2d3c" (schedule renamesFail)
        (started twoTrees)) ∧
    ¬ OldOrNew ".evidence-q3x" "evidence" ".evidence.previous-0f1e2d3c" twoTrees
      (installEvidence ".evidence-q3x" "evidence" ".evidence.previous-0f1e2d3c"
        (schedule renamesFail) (started twoTrees)) := by
  have hfaults : renamesFail 1 ≠ none ∧ renamesFail 2 ≠ none := by decide
  have hloses : LosesBoth renamesFail twoTrees "evidence" ".evidence.previous-0f1e2d3c" :=
    ⟨rfl, rfl, rfl, hfaults.1, hfaults.2, rfl⟩
  have hlost := @replaceRoot_loses _ _ ".evidence-q3x" _ _ hloses rfl (by decide)
  refine ⟨hlost, fun h => hlost ?_⟩
  exact (oldOrNew_installEvidence (by decide) (by decide)).mp h

theorem old_or_new_iff_restored :
    ¬ LosesBoth (fun n => if n = 1 then some 5 else none) twoTrees "evidence"
      ".evidence.previous-0f1e2d3c" ∧
    OldOrNew ".evidence-q3x" "evidence" ".evidence.previous-0f1e2d3c" twoTrees
      (replaceRoot ".evidence-q3x" "evidence" ".evidence.previous-0f1e2d3c"
        (schedule fun n => if n = 1 then some 5 else none) (started twoTrees)) := by
  have hkept : ¬ LosesBoth (fun n => if n = 1 then some 5 else none) twoTrees "evidence"
      ".evidence.previous-0f1e2d3c" := fun h => h.2.2.2.2.1 rfl
  exact ⟨hkept, ((old_or_new_iff _ _ _ _ _ (by decide) rfl).mpr hkept).1⟩

end Supplementary.Evidence
