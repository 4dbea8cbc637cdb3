/-
# The happy way of a path transaction

Nothing fails: the workspace is made next to the target, the new file or directory is made in it and
gets the target's name, and the workspace is removed again.  What is left is the old world with the
new entry.
-/
import Supplementary.Atomic.PathCalm
import Supplementary.Atomic.PathAtomic

namespace Supplementary.Atomic.Path

open Machine Posix

/-! ## 1. The workspace -/

/-- The inode of a new workspace. -/
def workspaceInode (p : Params) : Inode := ⟨.directory, 0o700, p.euid, p.egid, [], 0, 0⟩

section

variable {p : Params} {w w₀ : World PyStr} {v : Flags} {k : Key PyStr} {i : Nat} {n : Inode}

theorem inode_create : (w.create k n).inode i = if i = w.next then some n else w.inode i := by
  simp [World.create, Function.update_apply]

theorem inode_touch {j : Nat} :
    (w.touch i).inode j = if j = i then (w.inode j).map Inode.touched else w.inode j := by
  by_cases h : j = i
  · simp [World.touch, h]
  · simp [World.touch, h]

theorem inode_modify {j : Nat} {change : Inode → Inode} :
    (w.modify i change).inode j = if j = i then (w.inode j).map change else w.inode j := by
  by_cases h : j = i
  · simp [World.modify, h]
  · simp [World.modify, h]

/-- The world with a new workspace. -/
structure Made (p : Params) (w₀ : World PyStr) (k : Key PyStr) (w : World PyStr) : Prop where
  free : w₀.lookup k = none
  lookup : ∀ k', w.lookup k' = if k' = k then some w₀.next else w₀.lookup k'
  inode : ∀ i, w.inode i = if i = w₀.next then some (workspaceInode p) else w₀.inode i
  next : w.next = w₀.next + 1

theorem made_mkdir (h : w₀.lookup k = none) :
    Made p w₀ k { w₀.create k (workspaceInode p) with own := w₀.next :: w₀.own } := by
  refine ⟨h, fun k' => ?_, fun i => ?_, rfl⟩
  · exact @World.lookup_create _ _ w₀ k k' (workspaceInode p)
  · exact @inode_create w₀ k i (workspaceInode p)

theorem Made.lookup_ne (h : Made p w₀ k w) {k' : Key PyStr} (hk : k' ≠ k) :
    w.lookup k' = w₀.lookup k' := by
  rw [h.lookup, if_neg hk]

theorem Made.inode_of (h : Made p w₀ k w) (hw₀ : w₀.Wf) (hn : w₀.inode i = some n) :
    w.inode i = some n := by
  have hi : i ≠ w₀.next := by
    rintro rfl
    rw [hw₀.inode _ (Nat.le_refl _)] at hn
    cases hn
  rw [h.inode, if_neg hi, hn]

theorem Made.inode_next (h : Made p w₀ k w) (hw₀ : w₀.Wf) : w.inode w.next = none := by
  rw [h.next, h.inode, if_neg (Nat.succ_ne_self _)]
  exact hw₀.inode _ (Nat.le_succ _)

/-- The workspace is empty. -/
theorem Made.lookup_private (h : Made p w₀ k w) (hw₀ : w₀.Wf) (hk : k.1 < w₀.next)
    {entry : PyStr} : w.lookup (w₀.next, entry) = none := by
  have hne : (w₀.next, entry) ≠ k := by
    rintro rfl
    exact Nat.lt_irrefl _ hk
  rw [h.lookup_ne hne]
  cases hentry : w₀.lookup (w₀.next, entry) with
  | none => rfl
  | some i => exact absurd (hw₀.entry _ i hentry).1 (Nat.lt_irrefl _)

theorem Made.dirs (h : Made p w₀ k w) (hw₀ : w₀.Wf) : Dirs w₀ w := by
  intro k' i n hk' hn _
  have hne : k' ≠ k := by
    rintro rfl
    rw [h.free] at hk'
    cases hk'
  exact ⟨by rw [h.lookup_ne hne, hk'], h.inode_of hw₀ hn⟩

theorem goes_openWorkspace (h : Made p w₀ k w) :
    Goes (openWorkspace p k) w v (.ok (w₀.next, k.2, ⟨w₀.next, workspaceInode p⟩)) w v [] := by
  have hk : w.lookup k = some w₀.next := by rw [h.lookup, if_pos rfl]
  have hn : w.inode w₀.next = some (workspaceInode p) := by rw [h.inode, if_pos rfl]
  refine (goes_sys (goes_stat hk hn)).attempt.bind ?_
  refine (goes_sys (goes_openDirectory hk hn rfl)).attempt.bind ?_
  refine (goes_look hn).attempt.bind ?_
  refine goes_if_neg (by simp [workspaceInode]) (goes_if_neg (by simp [sameInode]) goes_pure)

/-- The first name that is free becomes the workspace. -/
theorem goes_privateWorkspace {parent : Nat} : ∀ names,
    (∃ name ∈ names, w₀.lookup (parent, name) = none) →
    ∃ name ∈ names, ∃ w, Made p w₀ (parent, name) w ∧
      Goes (privateWorkspace p parent names) w₀ v
        (.ok (w₀.next, name, ⟨w₀.next, workspaceInode p⟩)) w v [] := by
  intro names
  induction names with
  | nil => rintro ⟨name, hmem, -⟩; cases hmem
  | cons name rest ih =>
    intro hfree
    by_cases hname : w₀.lookup (parent, name) = none
    · refine ⟨name, List.mem_cons_self, _, made_mkdir hname, ?_⟩
      exact (goes_sys (goes_mkdir hname)).attempt.bind (goes_openWorkspace (made_mkdir hname))
    · obtain ⟨free, hmem, hfree⟩ := hfree
      have hrest : free ∈ rest := by
        rcases List.mem_cons.mp hmem with rfl | hmem
        · exact absurd hfree hname
        · exact hmem
      obtain ⟨name', hname', w, hmade, hgoes⟩ := ih ⟨free, hrest, hfree⟩
      refine ⟨name', List.mem_cons_of_mem _ hname', w, hmade, ?_⟩
      have hsome : (w₀.lookup (parent, name)).isSome = true := Option.isSome_iff_ne_none.mpr hname
      have hmkdir : Goes (sys (mkdir (parent, name) 0o700 p.euid p.egid)) w₀ v
          (.error (.os .exist)) w₀ v [] :=
        goes_sys_error (goes_syscall_error (by simp [hsome]) rfl)
      exact Goes.bind (hmkdir.attempt_error rfl) hgoes

/-! ## 2. The new file -/

/-- Only one inode is another. -/
structure Changed (f : Nat) (n : Inode) (w w' : World PyStr) : Prop where
  lookup : ∀ k, w'.lookup k = w.lookup k
  inode : ∀ i, w'.inode i = if i = f then some n else w.inode i

theorem changed_modify {f : Nat} (change : Inode → Inode) (hn : w.inode f = some n) :
    Changed f (change n) w (w.modify f change) := by
  refine ⟨fun _ => rfl, fun i => ?_⟩
  rw [inode_modify]
  by_cases hi : i = f
  · simp [hi, hn]
  · simp [hi]

theorem Changed.trans {f : Nat} {n n' : Inode} {w' w'' : World PyStr} (h : Changed f n w w')
    (h' : Changed f n' w' w'') : Changed f n' w w'' := by
  refine ⟨fun k => by rw [h'.lookup, h.lookup], fun i => ?_⟩
  rw [h'.inode, h.inode]
  by_cases hi : i = f
  · simp [hi]
  · simp [hi]

theorem goes_writeAll {f : Nat} (hn : w.inode f = some n) (payload : List UInt8) :
    ∃ w' n', Goes (writeAll f payload) w v (.ok ()) w' v [] ∧ Changed f n' w w' ∧
      n'.kind = n.kind ∧ n'.bytes = n.bytes ++ payload := by
  cases payload with
  | nil =>
    refine ⟨w, n, ?_, ⟨fun _ => rfl, fun i => ?_⟩, rfl, by simp⟩
    · unfold writeAll
      exact goes_pure
    · by_cases hi : i = f
      · simp [hi, hn]
      · simp [hi]
  | cons byte rest =>
    let change (inode : Inode) : Inode :=
      { inode with bytes := inode.bytes ++ byte :: rest, mtime := inode.mtime + 1 }
    refine ⟨w.modify f change, change n, ?_, changed_modify change hn, rfl, rfl⟩
    have hwrite : Goes (sys (write f (byte :: rest))) w v (.ok (rest.length + 1))
        (w.modify f change) v [] := goes_sys fun log => ⟨[⟨.write f, w, _, true⟩], rfl, rfl⟩
    unfold writeAll
    refine hwrite.bind ?_
    rw [dif_neg (Nat.succ_ne_zero _)]
    have hdrop : (byte :: rest).drop (rest.length + 1) = [] := List.drop_length
    rw [hdrop]
    unfold writeAll
    exact goes_pure

/-- The owner, the group and the mode are set. -/
theorem goes_permit {f : Nat} (hn : w.inode f = some n) :
    ∃ w₁ w₂ n', Goes (sys (fchown f p.uid p.gid)) w v (.ok ()) w₁ v [] ∧
      Goes (sys (fchmod f p.mode)) w₁ v (.ok ()) w₂ v [] ∧ Changed f n' w w₂ ∧ n'.kind = n.kind ∧
      n'.bytes = n.bytes ∧ n'.mode = p.mode ∧ n'.uid = p.uid ∧ n'.gid = p.gid := by
  let own (inode : Inode) : Inode := { inode with uid := p.uid, gid := p.gid, ctime := inode.ctime + 1 }
  let permit (inode : Inode) : Inode := { inode with mode := p.mode, ctime := inode.ctime + 1 }
  have hown : Changed f (own n) w (w.modify f own) := changed_modify own hn
  have hn₁ : (w.modify f own).inode f = some (own n) := by rw [hown.inode, if_pos rfl]
  have hpermit : Changed f (permit (own n)) (w.modify f own) ((w.modify f own).modify f permit) :=
    changed_modify permit hn₁
  refine ⟨w.modify f own, (w.modify f own).modify f permit, permit (own n),
    goes_sys (goes_syscall rfl rfl), goes_sys (goes_syscall rfl rfl), hown.trans hpermit, rfl, rfl,
    rfl, rfl, rfl⟩

/-- A new inode that was changed is behind its new entry. -/
theorem changed_create {w' : World PyStr} {n' : Inode} (h : Changed w.next n' (w.create k n) w') :
    (∀ k', w'.lookup k' = if k' = k then some w.next else w.lookup k') ∧
      ∀ i, w'.inode i = if i = w.next then some n' else w.inode i := by
  refine ⟨fun k' => by rw [h.lookup, World.lookup_create], fun i => ?_⟩
  rw [h.inode, inode_create]
  by_cases hi : i = w.next
  · rw [if_pos hi, if_pos hi]
  · rw [if_neg hi, if_neg hi, if_neg hi]

theorem goes_stageFile {workspace : Nat} {payload : List UInt8}
    (hfree : w.lookup (workspace, payloadName) = none) :
    ∃ w' n, Goes (stageFile p workspace payload) w v (.ok (w.next, ⟨w.next, n⟩)) w'
        { v with descriptor := some w.next, staged := some ⟨w.next, n⟩ } [] ∧
      Complete p payload n ∧
      (∀ k, w'.lookup k = if k = (workspace, payloadName) then some w.next else w.lookup k) ∧
      ∀ i, w'.inode i = if i = w.next then some n else w.inode i := by
  let fresh : Inode := ⟨.regular, 0o600, p.euid, p.egid, [], 0, 0⟩
  have hfresh : (w.create (workspace, payloadName) fresh).inode w.next = some fresh := by
    rw [inode_create, if_pos rfl]
  obtain ⟨w₁, n₁, hwrite, hwritten, hkind, hbytes⟩ := @goes_writeAll _
    { v with descriptor := some w.next } _ _ hfresh payload
  have hn₁ : w₁.inode w.next = some n₁ := by rw [hwritten.inode, if_pos rfl]
  obtain ⟨w₂, w₃, n₃, hown, hmode, hpermitted, hkind₃, hbytes₃, hmeta⟩ := @goes_permit p w₁
    { v with descriptor := some w.next } _ _ hn₁
  have hn₃ : w₃.inode w.next = some n₃ := by rw [hpermitted.inode, if_pos rfl]
  have hmatch : isMatch p ⟨w.next, n₃⟩ = true := by simp [isMatch, hmeta]
  refine ⟨w₃, n₃, ?_, ⟨hkind₃.trans hkind, hbytes₃.trans hbytes, hmeta⟩,
    changed_create (hwritten.trans hpermitted)⟩
  refine (goes_sys (goes_createFile hfree)).bind (goes_assign.bind (hwrite.bind ?_))
  refine goes_fsync.bind (hown.bind (hmode.bind (goes_fsync.bind ?_)))
  exact (goes_look hn₃).bind (goes_assign.bind ((goes_demand hmatch).bind goes_pure))

/-! ## 3. The new file gets its name -/

/-- Only two entries are changed, and no directory is. -/
structure Touches (target kp : Key PyStr) (w w' : World PyStr) : Prop where
  lookup : ∀ k, k ≠ target → k ≠ kp → w'.lookup k = w.lookup k
  inode : ∀ i n, w.inode i = some n → n.kind = .directory → w'.inode i = some n

theorem Touches.trans {target kp : Key PyStr} {w w' w'' : World PyStr}
    (h : Touches target kp w w') (h' : Touches target kp w' w'') : Touches target kp w w'' := by
  refine ⟨fun k hk hkp => ?_, fun i n hn hkind => ?_⟩
  · rw [h'.lookup k hk hkp, h.lookup k hk hkp]
  · exact h'.inode i n (h.inode i n hn hkind) hkind

/-- A change of metadata of something else than a directory. -/
theorem inode_touch_directory {j : Nat} {m : Inode} (hm : w.inode j = some m)
    (hkind : m.kind ≠ .directory) {i : Nat} {n : Inode} (hn : w.inode i = some n)
    (hdir : n.kind = .directory) : (w.touch j).inode i = some n := by
  rw [inode_touch]
  by_cases hi : i = j
  · rw [hi, hm] at hn
    cases hn
    exact absurd hdir hkind
  · rw [if_neg hi, hn]

variable {target kp : Key PyStr} {f : Nat}

theorem goes_displace {j : Nat} {m : Inode} (hne : kp ≠ target) (hkp : w.lookup kp = some f)
    (hn : w.inode f = some n) (hkind : n.kind ≠ .directory) (htarget : w.lookup target = some j)
    (hm : w.inode j = some m) (hmkind : m.kind ≠ .directory) (hj : j ≠ f) :
    ∃ w', Goes (sys (renameExchange kp target)) w v (.ok ()) w' v [] ∧ Touches target kp w w' ∧
      w'.lookup target = some f ∧ w'.inode f = some n.touched ∧ w'.lookup kp = some j ∧
      w'.inode j = some m.touched := by
  refine ⟨_, goes_sys (goes_renameExchange hkp hn htarget hm), ⟨fun k hk hk' => ?_, ?_⟩, ?_⟩
  · simp only [World.lookup_touch, World.lookup_insert, if_neg hk, if_neg hk']
  · intro i n' hn' hdir
    refine inode_touch_directory (m := m) ?_ hmkind (inode_touch_directory hn hkind hn' hdir) hdir
    rw [inode_touch, if_neg hj]
    exact hm
  · refine ⟨?_, ?_, ?_, ?_⟩
    · simp only [World.lookup_touch, World.lookup_insert, if_true]
    · rw [inode_touch, if_neg (Ne.symm hj), inode_touch, if_pos rfl]
      change (w.inode f).map _ = _
      rw [hn]
      rfl
    · simp only [World.lookup_touch, World.lookup_insert, if_neg hne, if_true]
    · rw [inode_touch, if_pos rfl, inode_touch, if_neg hj]
      change (w.inode j).map _ = _
      rw [hm]
      rfl

theorem goes_name (hne : kp ≠ target) (hkp : w.lookup kp = some f) (hn : w.inode f = some n)
    (htarget : w.lookup target = none) :
    ∃ w', Goes (sys (renameNoreplace kp target)) w v (.ok ()) w' v [] ∧
      w'.lookup target = some f ∧ w'.inode f = some n.touched ∧ w'.lookup kp = none ∧
      (∀ k, k ≠ target → k ≠ kp → w'.lookup k = w.lookup k) ∧
      ∀ i, i ≠ f → w'.inode i = w.inode i := by
  refine ⟨_, goes_sys (goes_renameNoreplace hkp hn htarget), ?_, ?_, ?_, fun k hk hk' => ?_,
    fun i hi => ?_⟩
  · simp only [World.lookup_touch, World.lookup_insert, if_true]
  · rw [inode_touch, if_pos rfl]
    change (w.inode f).map _ = _
    rw [hn]
    rfl
  · simp only [World.lookup_touch, World.lookup_insert, if_neg hne, World.lookup_remove_self]
  · simp only [World.lookup_touch, World.lookup_insert, if_neg hk, World.lookup_remove_ne hk']
  · rw [inode_touch, if_neg hi]
    rfl

/-- What is in the workspace when the new file has its name: the old one, if there was one. -/
structure Published (target kp : Key PyStr) (f : Nat) (n : Inode) (w w' : World PyStr)
    (displaced : Option Stat) : Prop extends Touches target kp w w' where
  target : w'.lookup target = some f
  file : w'.inode f = some n.touched
  stowed : Found w' kp displaced
  kind : ∀ st, displaced = some st → st.info.kind ≠ .directory ∧ st.ino ≠ f

theorem goes_publishFile {workspace : Nat} {before : Option (Stat × PyStr)}
    (hne : (workspace, payloadName) ≠ target) (hkp : w.lookup (workspace, payloadName) = some f)
    (hn : w.inode f = some n) (hkind : n.kind ≠ .directory) (hbefore : Bound p w target before)
    (hf : ∀ st text, before = some (st, text) → st.ino ≠ f)
    (hread : effectiveUserCanRead p p.mode p.uid p.gid = true) (hv : v.displaced = none) :
    ∃ w' displaced b name, Goes (publishFile p target workspace before) w v (.ok ()) w'
        { v with installed := true, displaced, preserveWorkspace := b, recoveryName := name } [] ∧
      Published target (workspace, payloadName) f n w w' displaced := by
  cases before with
  | none =>
    obtain ⟨w', hgoes, htarget, hfile, hprivate, hlookup, hinode⟩ :=
      @goes_name w v n _ _ f hne hkp hn hbefore
    refine ⟨w', v.displaced, v.preserveWorkspace, v.recoveryName, hgoes.bind goes_assign,
      ⟨hlookup, fun i m hm hdir => ?_⟩, htarget, hfile, ?_, ?_⟩
    · rw [hinode i, hm]
      rintro rfl
      rw [hn] at hm
      cases hm
      exact hkind hdir
    · rw [hv]
      exact hprivate
    · intro st hst
      rw [hv] at hst
      cases hst
  | some found =>
    obtain ⟨st, text⟩ := found
    obtain ⟨⟨hk, hm⟩, hregular, hmatch, hexpected, htext⟩ := hbefore
    have hmkind : st.info.kind ≠ .directory := by simp [hregular]
    obtain ⟨w', hgoes, htouches, htarget, hfile, hold, hinode⟩ :=
      @goes_displace w v n _ _ f _ _ hne hkp hn hkind hk hm hmkind (hf st text rfl)
    have hmeta := hmatch
    simp only [isMatch, Bool.and_eq_true, decide_eq_true_eq] at hmeta
    refine ⟨w', some ⟨st.ino, st.info.touched⟩, true, some payloadName, ?_, htouches, htarget, hfile,
      ⟨hold, hinode⟩, ?_⟩
    · have hmay : effectiveUserCanRead p st.info.mode st.info.uid st.info.gid = true := by
        rw [hmeta.1.1, hmeta.1.2, hmeta.2]
        exact hread
      have hsame : (⟨st.ino, st.info.touched⟩ : Stat).sameIdentity st = true := by
        simp [Stat.sameIdentity, Inode.touched]
      refine hgoes.bind (goes_assign.bind (goes_fsyncDirectory.bind ?_))
      refine (goes_sys (goes_stat hold hinode)).bind (goes_assign.bind ?_)
      exact (goes_verifiedFile hold hinode hmay hsame htext).bind (goes_demand rfl)
    · rintro st' ⟨⟩
      exact ⟨hmkind, hf st text rfl⟩

/-- What the target is looked at for: it is found again and again, also through the path. -/
theorem goes_verifyInstalled {parent : Nat} {name : PyStr} {m n' : Inode} {desired : PyStr}
    (hresolve : resolve p w = .ok parent) (hparent : w.inode parent = some m)
    (hk : w.lookup (parent, name) = some f) (hn : w.inode f = some n')
    (hsame : (⟨f, n'⟩ : Stat).sameIdentity ⟨f, n⟩ = true)
    (hdesired : Sha256.hexdigest n'.bytes = desired) :
    Goes (verifyInstalled p (parent, name) f ⟨f, n⟩ desired) w v (.ok ()) w
      { v with final := some ⟨f, n'⟩ } [] := by
  have hinstalled : Goes (isInstalled f ⟨f, n⟩ ⟨f, n'⟩ desired) w v (.ok true) w v [] :=
    goes_if_pos hsame (goes_verifiedDescriptor hn hdesired)
  have hsnapshot : isSnapshot (some ⟨f, n'⟩) (some ⟨f, n'⟩) = true := sameSnapshot_self _
  refine (goes_sys (goes_stat hk hn)).bind (hinstalled.bind ?_)
  refine Goes.bind (goes_if_pos rfl goes_pure) (goes_fsyncDirectory.bind ?_)
  refine (goes_existing hk hn).bind (goes_assign.bind ?_)
  refine Goes.bind (goes_if_pos hsnapshot goes_pure) ?_
  refine (goes_revalidatedEntry hresolve hparent hk hn).bind ?_
  exact goes_if_pos hsnapshot goes_pure

/-- Something private is removed. -/
theorem goes_removePrivateIfSame {st : Stat} {directory : Bool} (hfound : Found w k (some st))
    (hkind : directory = true ↔ st.info.kind = .directory)
    (hempty : directory = true → w.isEmpty st.ino = true) :
    ∃ w', Goes (removePrivateIfSame k st directory) w v (.ok true) w' v [] ∧
      w'.lookup k = none ∧ (∀ k', k' ≠ k → w'.lookup k' = w.lookup k') ∧
      (∀ i n, w.inode i = some n → n.kind = .directory → w'.inode i = some n) ∧
      ∀ i, i ≠ st.ino → w'.inode i = w.inode i := by
  obtain ⟨hk, hn⟩ := hfound
  have hsame : (if directory then sameInode st st else st.sameIdentity st) = true := by
    split
    · simp [sameInode]
    · exact sameIdentity_self st
  by_cases hdir : directory = true
  · refine ⟨w.remove k, ?_, World.lookup_remove_self, fun k' hk' => World.lookup_remove_ne hk',
      fun i n hn _ => hn, fun _ _ => rfl⟩
    refine (goes_sys (goes_stat hk hn)).attempt.bind (goes_if_pos hsame ?_)
    unfold removeEntry
    rw [if_pos hdir]
    exact (goes_sys (goes_rmdir hk hn (hkind.mp hdir) (hempty hdir))).attempt.bind goes_pure
  · have hfile : st.info.kind ≠ .directory := fun h => hdir (hkind.mpr h)
    refine ⟨(w.remove k).touch st.ino, ?_, World.lookup_remove_self,
      fun k' hk' => World.lookup_remove_ne hk', fun i n hi hi' => ?_, fun i hi => ?_⟩
    · refine (goes_sys (goes_stat hk hn)).attempt.bind (goes_if_pos hsame ?_)
      unfold removeEntry
      rw [if_neg hdir]
      exact (goes_sys (goes_unlink hk hn hfile)).attempt.bind goes_pure
    · exact inode_touch_directory (w := w.remove k) hn hfile hi hi'
    · rw [inode_touch, if_neg hi]
      rfl

/-- The displaced file is removed, if there is one. -/
theorem goes_discardDisplaced {workspace : Nat} {n' : Inode}
    (hne : (workspace, payloadName) ≠ target) (htarget : w.lookup target = some f)
    (hfile : w.inode f = some n') (hstowed : Found w (workspace, payloadName) v.displaced)
    (hkind : ∀ st, v.displaced = some st → st.info.kind ≠ .directory ∧ st.ino ≠ f) :
    ∃ w', Goes (discardDisplaced workspace) w v (.ok ()) w' v [] ∧
      Touches target (workspace, payloadName) w w' ∧ w'.lookup target = some f ∧
      w'.inode f = some n' ∧ w'.lookup (workspace, payloadName) = none := by
  cases hdisplaced : v.displaced with
  | none =>
    rw [hdisplaced] at hstowed
    refine ⟨w, goes_locals.bind ?_, ⟨fun _ _ _ => rfl, fun _ _ h _ => h⟩, htarget, hfile, hstowed⟩
    rw [hdisplaced]
    exact goes_pure
  | some st =>
    rw [hdisplaced] at hstowed
    obtain ⟨hregular, hino⟩ := hkind st hdisplaced
    obtain ⟨w', hgoes, hnone, hlookup, hdirs, hinode⟩ :=
      @goes_removePrivateIfSame w v _ _ false hstowed (by simp [hregular]) (by simp)
    refine ⟨w', goes_locals.bind ?_, ⟨fun k _ hk => hlookup k hk, hdirs⟩, ?_, ?_, hnone⟩
    · rw [hdisplaced]
      exact hgoes.bind (goes_if_pos rfl goes_pure)
    · rw [hlookup target (Ne.symm hne), htarget]
    · rw [hinode f (Ne.symm hino), hfile]

/-! ## 4. The whole way of a file -/

/-- The target has no directory. -/
def Plain (w : World PyStr) (target : Key PyStr) : Prop :=
  ∀ i n, w.lookup target = some i → w.inode i = some n → n.kind ≠ .directory

theorem Bound.plain {before : Option (Stat × PyStr)} (h : Bound p w target before) :
    Plain w target := by
  intro i n hi hn
  cases before with
  | none =>
    rw [h] at hi
    cases hi
  | some found =>
    obtain ⟨⟨hk, hst⟩, hkind, -⟩ := h
    obtain rfl := Option.some.inj (hk.symm.trans hi)
    obtain rfl := Option.some.inj (hst.symm.trans hn)
    simp [hkind]

theorem Touches.dirs {w' : World PyStr} (h : Touches target kp w w') (hkp : w.lookup kp = none)
    (htarget : Plain w target) : Dirs w w' := by
  intro k i n hk hn hkind
  refine ⟨?_, h.inode i n hn hkind⟩
  have hne : k ≠ target := by
    rintro rfl
    exact htarget i n hk hn hkind
  have hne' : k ≠ kp := by
    rintro rfl
    rw [hkp] at hk
    cases hk
  rw [h.lookup k hne hne', hk]

/-- A transaction that found its parent directory. -/
theorem inode_of_resolve {parent : Nat} (h : resolve p w = .ok parent) :
    ∃ m, w.inode parent = some m ∧ m.kind = .directory := by
  obtain ⟨-, k, m, -, hm, hkind⟩ := resolve_dirs (Dirs.refl w) h
  exact ⟨m, hm, hkind⟩

theorem lt_of_resolve (hw : w.Wf) {parent : Nat} (h : resolve p w = .ok parent) :
    parent < w.next := by
  obtain ⟨m, hm, -⟩ := inode_of_resolve h
  by_contra hle
  rw [hw.inode parent (Nat.le_of_not_lt hle)] at hm
  cases hm

theorem Dirs.inode_of_resolve {w' : World PyStr} {parent : Nat} {m : Inode} (h : Dirs w w')
    (hresolve : resolve p w = .ok parent) (hm : w.inode parent = some m) :
    w'.inode parent = some m := by
  obtain ⟨-, k, n, hk, hn, hkind⟩ := resolve_dirs h hresolve
  obtain rfl := Option.some.inj (hn.symm.trans hm)
  exact (h k parent n hk hn hkind).2

theorem goes_installFile {parent workspace : Nat} {name : PyStr} {payload : List UInt8}
    {before : Option (Stat × PyStr)} (hne : (workspace, payloadName) ≠ (parent, name))
    (hkp : w.lookup (workspace, payloadName) = none) (hnext : w.inode w.next = none)
    (hresolve : resolve p w = .ok parent) (hbefore : Bound p w (parent, name) before)
    (hread : effectiveUserCanRead p p.mode p.uid p.gid = true) :
    ∃ w' n n' displaced, Goes (installFile p (parent, name) workspace payload before) w {} (.ok ()) w'
        { descriptor := some w.next, staged := some ⟨w.next, n⟩, installed := true, displaced
          final := some ⟨w.next, n'⟩ } [] ∧
      Touches (parent, name) (workspace, payloadName) w w' ∧
      Found w' (parent, name) (some ⟨w.next, n'⟩) ∧ Complete p payload n' ∧
      w'.lookup (workspace, payloadName) = none := by
  obtain ⟨w₁, n, hstage, hcomplete, hlookup, hinode⟩ := @goes_stageFile p w {} _ payload hkp
  have hn : w₁.inode w.next = some n := by rw [hinode, if_pos rfl]
  have hother : ∀ i m, w.inode i = some m → i ≠ w.next := by
    rintro i m hm rfl
    rw [hnext] at hm
    cases hm
  have hstaged : Touches (parent, name) (workspace, payloadName) w w₁ := by
    refine ⟨fun k _ hk => by rw [hlookup, if_neg hk], fun i m hm _ => ?_⟩
    rw [hinode, if_neg (hother i m hm), hm]
  have hbound : Bound p w₁ (parent, name) before := by
    cases before with
    | none =>
      change w₁.lookup _ = none
      rw [hlookup, if_neg (Ne.symm hne)]
      exact hbefore
    | some found =>
      obtain ⟨⟨hk, hst⟩, hrest⟩ := hbefore
      refine ⟨⟨by rw [hlookup, if_neg (Ne.symm hne), hk], ?_⟩, hrest⟩
      rw [hinode, if_neg (hother _ _ hst), hst]
  have hino : ∀ st text, before = some (st, text) → st.ino ≠ w.next := by
    rintro st text rfl
    exact hother _ _ hbefore.1.2
  have hkind : n.kind ≠ .directory := by simp [hcomplete.1]
  obtain ⟨w₂, displaced, b, recovery, hpublish, hpublished⟩ := @goes_publishFile p w₁
    { descriptor := some w.next, staged := some ⟨w.next, n⟩ } n _ _ _ before hne
    (by rw [hlookup, if_pos rfl]) hn hkind hbound hino hread rfl
  have htouches := hstaged.trans hpublished.toTouches
  have hresolve' : resolve p w₂ = .ok parent :=
    (resolve_dirs (htouches.dirs hkp hbefore.plain) hresolve).1
  obtain ⟨m, hm, hmkind⟩ := inode_of_resolve hresolve
  have hsame : (⟨w.next, n.touched⟩ : Stat).sameIdentity ⟨w.next, n⟩ = true := by
    simp [Stat.sameIdentity, Inode.touched]
  have hdesired : Sha256.hexdigest n.touched.bytes = Sha256.hexdigest payload := by
    rw [← hcomplete.2.1]
    rfl
  obtain ⟨w₃, hdiscard, htouches', htarget, hfile, hempty⟩ := @goes_discardDisplaced w₂
    { descriptor := some w.next, staged := some ⟨w.next, n⟩, installed := true, displaced
      preserveWorkspace := b, recoveryName := recovery, final := some ⟨w.next, n.touched⟩ }
    _ _ workspace _ hne hpublished.target hpublished.file hpublished.stowed hpublished.kind
  refine ⟨w₃, n, n.touched, displaced, ?_, htouches.trans htouches', ⟨htarget, hfile⟩, hcomplete,
    hempty⟩
  refine hstage.bind (hpublish.bind ?_)
  refine (goes_verifyInstalled hresolve' (htouches.inode _ _ hm hmkind) hpublished.target
    hpublished.file hsame hdesired).bind ?_
  exact hdiscard.bind goes_assign

/-- The world that is left: the target is new, and no directory of the old world is changed. -/
structure Installed (w₀ w : World PyStr) (target : Key PyStr) (n : Inode) : Prop where
  dirs : Dirs w₀ w
  target : ∃ f, Found w target (some ⟨f, n⟩)

/-- The workspace is removed at the end. -/
theorem goes_closeWorkspace {w₁ : World PyStr} {parent : Nat} {name wname : PyStr} (hw₀ : w₀.Wf)
    (hmade : Made p w₀ (parent, wname) w₁) (hparent : parent < w₀.next) (hname : wname ≠ name)
    (hplain : Plain w₀ (parent, name))
    (htouches : Touches (parent, name) (w₀.next, payloadName) w₁ w)
    (hempty : w.lookup (w₀.next, payloadName) = none)
    (htarget : Found w (parent, name) (some ⟨f, n⟩)) (hf : f ≠ w₀.next)
    (hv : v.failure = none ∧ v.cleanupException = none ∧ v.preserveWorkspace = false) :
    ∃ w', Goes (closeWorkspace parent w₀.next wname ⟨w₀.next, workspaceInode p⟩) w v (.ok ()) w'
        { v with failure := none, cleanupFailed := false } [] ∧
      Dirs w₀ w' ∧ Found w' (parent, name) (some ⟨f, n⟩) := by
  have hwinode : w₁.inode w₀.next = some (workspaceInode p) := by rw [hmade.inode, if_pos rfl]
  have hworkspace : Found w (parent, wname) (some ⟨w₀.next, workspaceInode p⟩) := by
    refine ⟨?_, htouches.inode _ _ hwinode rfl⟩
    rw [htouches.lookup _ (by simp [hname]) (by simp [Nat.ne_of_lt hparent]), hmade.lookup,
      if_pos rfl]
  have hisEmpty : w.isEmpty w₀.next = true := by
    rw [World.isEmpty_iff]
    intro entry
    by_cases hentry : entry = payloadName
    · rw [hentry, hempty]
    · rw [htouches.lookup _ (by simp [Nat.ne_of_gt hparent]) (by simp [hentry])]
      exact hmade.lookup_private hw₀ hparent
  obtain ⟨w', hgoes, hremoved, hlookup, hdirs, hinode⟩ :=
    @goes_removePrivateIfSame w { v with failure := none } _ _ true hworkspace
      (by simp [workspaceInode]) fun _ => hisEmpty
  have hdirs₁ : Dirs w₀ w := by
    intro k i m hk hm hkind
    obtain ⟨hk₁, hm₁⟩ := hmade.dirs hw₀ k i m hk hm hkind
    have hne : k ≠ (w₀.next, payloadName) := by
      rintro rfl
      exact Nat.lt_irrefl _ (hw₀.entry _ i hk).1
    have hne' : k ≠ (parent, name) := by
      rintro rfl
      exact hplain i m hk hm hkind
    exact ⟨by rw [htouches.lookup k hne' hne, hk₁], htouches.inode i m hm₁ hkind⟩
  refine ⟨w', ?_, fun k i m hk hm hkind => ⟨?_, ?_⟩, ?_, ?_⟩
  · have hclose : Goes (closeWorkspaceFd w₀.next) w v (.ok ()) w v [] :=
      goes_close.attempt.bind goes_pure
    have hassign : Goes (Program.assign fun v : Flags =>
        { v with failure := v.failure <|> v.cleanupException } : Sys Unit) w v (.ok ()) w
        { v with failure := none } [] := by
      have hgoes := @goes_assign PyStr Outcome Flags Failure w v fun v : Flags =>
        { v with failure := v.failure <|> v.cleanupException }
      have hfailure : (v.failure <|> v.cleanupException) = none := by
        rw [hv.1, hv.2.1]
        rfl
      rw [hfailure] at hgoes
      exact hgoes
    refine hclose.bind (hassign.bind (goes_locals.bind ?_))
    rw [if_neg (by simp [hv.2.2])]
    exact hgoes.bind goes_assign
  · have hne : k ≠ (parent, wname) := by
      rintro rfl
      rw [hmade.free] at hk
      cases hk
    rw [hlookup k hne, (hdirs₁ k i m hk hm hkind).1]
  · exact hdirs i m (hdirs₁ k i m hk hm hkind).2 hkind
  · rw [hlookup _ (by simp [Ne.symm hname]), htarget.1]
  · rw [hinode f hf]
    exact htarget.2

/-- The whole way from the workspace on. -/
theorem goes_commitFile {w₁ : World PyStr} {parent : Nat} {name wname : PyStr}
    {payload : List UInt8} {before : Option (Stat × PyStr)} (hw₀ : w₀.Wf)
    (hmade : Made p w₀ (parent, wname) w₁) (hname : wname ≠ name)
    (hresolve : resolve p w₀ = .ok parent) (hbefore : Bound p w₀ (parent, name) before)
    (hread : effectiveUserCanRead p p.mode p.uid p.gid = true) :
    ∃ w' v' n, Goes (commitFile p (parent, name) payload before w₀.next wname
        ⟨w₀.next, workspaceInode p⟩) w₁ {} (.error .exit) w' v'
        [{ failed := false, changed := true, path := p.path
           checksum := some (Sha256.hexdigest payload) }] ∧
      Installed w₀ w' (parent, name) n ∧ Complete p payload n := by
  have hparent := lt_of_resolve hw₀ hresolve
  obtain ⟨m, hm, -⟩ := inode_of_resolve hresolve
  have hne : (w₀.next, payloadName) ≠ (parent, name) := by simp [Nat.ne_of_gt hparent]
  have htarget : w₁.lookup (parent, name) = w₀.lookup (parent, name) :=
    hmade.lookup_ne (by simp [Ne.symm hname])
  have hbound : Bound p w₁ (parent, name) before := by
    cases before with
    | none =>
      change w₁.lookup _ = none
      rw [htarget]
      exact hbefore
    | some found =>
      exact ⟨⟨by rw [htarget, hbefore.1.1], hmade.inode_of hw₀ hbefore.1.2⟩, hbefore.2⟩
  obtain ⟨w₂, n, n', displaced, hinstall, htouches, hfound, hcomplete, hempty⟩ :=
    @goes_installFile p w₁ parent w₀.next name payload before hne
      (hmade.lookup_private hw₀ hparent) (hmade.inode_next hw₀)
      (resolve_dirs (hmade.dirs hw₀) hresolve).1 hbound hread
  let flags : Flags :=
    { descriptor := some w₁.next, staged := some ⟨w₁.next, n⟩, installed := true, displaced
      final := some ⟨w₁.next, n'⟩ }
  have hfresh : w₁.next ≠ w₀.next := by
    rw [hmade.next]
    exact Nat.succ_ne_self _
  obtain ⟨w₃, hclose, hdirs, hfound'⟩ := @goes_closeWorkspace p w₂ w₀ flags _ _ w₁ parent name wname
    hw₀ hmade hparent hname hbefore.plain htouches hempty hfound hfresh ⟨rfl, rfl, rfl⟩
  have hlast := @goes_revalidatedEntry p w₃ flags _ _ parent name m (resolve_dirs hdirs hresolve).1
    (hdirs.inode_of_resolve hresolve hm) hfound'.1 hfound'.2
  refine ⟨w₃, flags, n', ?_, ⟨hdirs, w₁.next, hfound'⟩, hcomplete⟩
  have htry : Goes (tryFile p (parent, name) payload before w₀.next) w₁ {} (.ok ()) w₂ flags [] :=
    hinstall.attempt.bind goes_pure
  have hdescriptor : Goes closeDescriptor w₂ flags (.ok ()) w₂ flags [] :=
    goes_locals.bind (Goes.bind (goes_locals.bind goes_pure) (goes_close.attempt.bind goes_pure))
  have hconfirm : Goes (confirmFile p (parent, name)) w₃ flags (.ok ()) w₃ flags [] :=
    goes_locals.bind ((hlast.bind (goes_demand (sameSnapshot_self _))).attempt.bind goes_pure)
  refine htry.bind (hdescriptor.bind (Goes.bind (goes_locals.bind goes_pure) (hclose.bind ?_)))
  exact hconfirm.bind (goes_locals.bind goes_exitJson)

/-! ## 5. The whole way of a directory -/

/-- A directory with the requested mode and owner. -/
def Ready (p : Params) (n : Inode) : Prop :=
  n.kind = .directory ∧ n.mode = p.mode ∧ n.uid = p.uid ∧ n.gid = p.gid

theorem goes_stageDirectory {workspace : Nat}
    (hfree : w.lookup (workspace, payloadName) = none) :
    ∃ w' n, Goes (stageDirectory p workspace) w v (.ok ⟨w.next, n⟩) w'
        { v with
          descriptor := some w.next, staged := some ⟨w.next, n⟩, privateEntry := some payloadName } [] ∧
      Ready p n ∧
      (∀ k, w'.lookup k = if k = (workspace, payloadName) then some w.next else w.lookup k) ∧
      ∀ i, w'.inode i = if i = w.next then some n else w.inode i := by
  let fresh : Inode := ⟨.directory, 0o700, p.euid, p.egid, [], 0, 0⟩
  let w₁ : World PyStr := { w.create (workspace, payloadName) fresh with own := w.next :: w.own }
  have hentry : w₁.lookup (workspace, payloadName) = some w.next :=
    (@World.lookup_create _ _ w _ (workspace, payloadName) fresh).trans (if_pos rfl)
  have hfresh : w₁.inode w.next = some fresh :=
    (@inode_create w (workspace, payloadName) w.next fresh).trans (if_pos rfl)
  obtain ⟨w₂, w₃, n₃, hown, hmode, hpermitted, hkind₃, -, hmeta⟩ := @goes_permit p w₁
    { v with
      descriptor := some w.next, staged := some ⟨w.next, fresh⟩, privateEntry := some payloadName }
    _ _ hfresh
  have hn₃ : w₃.inode w.next = some n₃ := by rw [hpermitted.inode, if_pos rfl]
  have hmatch : isMatch p ⟨w.next, n₃⟩ = true := by simp [isMatch, hmeta]
  have hsame : sameInode ⟨w.next, fresh⟩ ⟨w.next, fresh⟩ = true := by simp [sameInode]
  refine ⟨w₃, n₃, ?_, ⟨hkind₃, hmeta⟩,
    changed_create (n := fresh) ⟨fun k => hpermitted.lookup k, fun i => hpermitted.inode i⟩⟩
  refine (goes_sys (goes_mkdir hfree)).bind (goes_assign.bind ?_)
  refine (goes_sys (goes_stat hentry hfresh)).bind (goes_assign.bind ?_)
  refine (goes_sys (goes_openDirectory hentry hfresh rfl)).bind (goes_assign.bind ?_)
  refine (goes_look hfresh).bind ((goes_demand hsame).bind (hown.bind (hmode.bind ?_)))
  refine goes_fsync.bind ((goes_look hn₃).bind (goes_assign.bind ?_))
  exact (goes_demand hmatch).bind goes_pure

theorem sameDirectoryIdentity_self {st : Stat} (h : st.info.kind = .directory) :
    sameDirectoryIdentity st st = true := by
  simp [sameDirectoryIdentity, sameInode, h]

theorem goes_installDirectory {parent workspace : Nat} {name : PyStr}
    (hne : (workspace, payloadName) ≠ (parent, name))
    (hkp : w.lookup (workspace, payloadName) = none) (hnext : w.inode w.next = none)
    (hresolve : resolve p w = .ok parent) (htarget : w.lookup (parent, name) = none) :
    ∃ w' n n', Goes (installDirectory p (parent, name) workspace) w {} (.ok ()) w'
        { descriptor := some w.next, staged := some ⟨w.next, n⟩, installed := true } [] ∧
      Touches (parent, name) (workspace, payloadName) w w' ∧
      Found w' (parent, name) (some ⟨w.next, n'⟩) ∧ Ready p n' ∧
      sameDirectoryIdentity ⟨w.next, n'⟩ ⟨w.next, n⟩ = true ∧
      w'.lookup (workspace, payloadName) = none := by
  obtain ⟨w₁, n, hstage, hready, hlookup, hinode⟩ := @goes_stageDirectory p w {} _ hkp
  have hn : w₁.inode w.next = some n := by rw [hinode, if_pos rfl]
  obtain ⟨w₂, hrename, hentry, hfile, hempty, hlookup₂, hinode₂⟩ := @goes_name w₁
    { descriptor := some w.next, staged := some ⟨w.next, n⟩, privateEntry := some payloadName }
    n _ _ _ hne (by rw [hlookup, if_pos rfl]) hn (by rw [hlookup, if_neg (Ne.symm hne), htarget])
  have htouches : Touches (parent, name) (workspace, payloadName) w w₂ := by
    refine ⟨fun k hk hk' => by rw [hlookup₂ k hk hk', hlookup, if_neg hk'], fun i m hm _ => ?_⟩
    have hi : i ≠ w.next := by
      rintro rfl
      rw [hnext] at hm
      cases hm
    rw [hinode₂ i hi, hinode, if_neg hi, hm]
  have hplain : Plain w (parent, name) := by
    intro i m hi
    rw [htarget] at hi
    cases hi
  have hresolve' : resolve p w₂ = .ok parent := (resolve_dirs (htouches.dirs hkp hplain) hresolve).1
  obtain ⟨m, hm, hmkind⟩ := inode_of_resolve hresolve
  have hsame : sameDirectoryIdentity ⟨w.next, n.touched⟩ ⟨w.next, n⟩ = true := by
    simp [sameDirectoryIdentity, sameInode, Inode.touched, hready.1]
  have hsame' : sameDirectoryIdentity ⟨w.next, n⟩ ⟨w.next, n.touched⟩ = true := by
    simp [sameDirectoryIdentity, sameInode, Inode.touched, hready.1]
  have hself : isDirectoryEntry (some ⟨w.next, n.touched⟩) (some ⟨w.next, n.touched⟩) = true :=
    sameDirectoryIdentity_self hready.1
  refine ⟨w₂, n, n.touched, hstage.bind (hrename.bind (goes_assign.bind ?_)), htouches,
    ⟨hentry, hfile⟩, hready, hsame, hempty⟩
  refine (goes_sys (goes_stat hentry hfile)).bind ((goes_demand hsame').bind ?_)
  refine goes_fsyncDirectory.bind ((goes_existing hentry hfile).bind ((goes_demand hsame).bind ?_))
  refine (goes_revalidatedEntry hresolve' (htouches.inode _ _ hm hmkind) hentry hfile).bind ?_
  exact goes_demand hself

theorem goes_commitDirectory {w₁ : World PyStr} {parent : Nat} {name wname : PyStr} (hw₀ : w₀.Wf)
    (hmade : Made p w₀ (parent, wname) w₁) (hname : wname ≠ name)
    (hresolve : resolve p w₀ = .ok parent) (htarget : w₀.lookup (parent, name) = none) :
    ∃ w' v' n, Goes (commitDirectory p (parent, name) w₀.next wname ⟨w₀.next, workspaceInode p⟩) w₁
        {} (.error .exit) w' v' [{ failed := false, changed := true, path := p.path }] ∧
      Installed w₀ w' (parent, name) n ∧ Ready p n := by
  have hparent := lt_of_resolve hw₀ hresolve
  obtain ⟨m, hm, -⟩ := inode_of_resolve hresolve
  have hne : (w₀.next, payloadName) ≠ (parent, name) := by simp [Nat.ne_of_gt hparent]
  have hplain : Plain w₀ (parent, name) := by
    intro i m hi
    rw [htarget] at hi
    cases hi
  have htarget₁ : w₁.lookup (parent, name) = none := by
    rw [hmade.lookup_ne (by simp [Ne.symm hname]), htarget]
  obtain ⟨w₂, n, n', hinstall, htouches, hfound, hready, hsame, hempty⟩ :=
    @goes_installDirectory p w₁ parent w₀.next name hne (hmade.lookup_private hw₀ hparent)
      (hmade.inode_next hw₀) (resolve_dirs (hmade.dirs hw₀) hresolve).1 htarget₁
  let flags : Flags :=
    { descriptor := some w₁.next, staged := some ⟨w₁.next, n⟩, installed := true }
  have hfresh : w₁.next ≠ w₀.next := by
    rw [hmade.next]
    exact Nat.succ_ne_self _
  obtain ⟨w₃, hclose, hdirs, hfound'⟩ := @goes_closeWorkspace p w₂ w₀ flags _ _ w₁ parent name wname
    hw₀ hmade hparent hname hplain htouches hempty hfound hfresh ⟨rfl, rfl, rfl⟩
  have hlast := @goes_revalidatedEntry p w₃ flags _ _ parent name m (resolve_dirs hdirs hresolve).1
    (hdirs.inode_of_resolve hresolve hm) hfound'.1 hfound'.2
  refine ⟨w₃, flags, n', ?_, ⟨hdirs, w₁.next, hfound'⟩, hready⟩
  have htry : Goes (tryDirectory p (parent, name) w₀.next) w₁ {} (.ok ()) w₂ flags [] :=
    hinstall.attempt.bind goes_pure
  have hdescriptor : Goes closeDirectory w₂ flags (.ok ()) w₂ flags [] :=
    goes_locals.bind (goes_close.attempt.bind goes_pure)
  have hdiscard : Goes (discardDirectory w₀.next) w₂ flags (.ok ()) w₂ flags [] :=
    goes_locals.bind (goes_if_neg (by simp [flags]) goes_pure)
  have hconfirm : Goes (confirmDirectory p (parent, name)) w₃ flags (.ok ()) w₃ flags [] :=
    goes_locals.bind ((hlast.bind (goes_demand hsame)).attempt.bind goes_pure)
  refine htry.bind (hdescriptor.bind (hdiscard.bind (hclose.bind ?_)))
  exact hconfirm.bind (goes_locals.bind goes_exitJson)

end

end Supplementary.Atomic.Path
