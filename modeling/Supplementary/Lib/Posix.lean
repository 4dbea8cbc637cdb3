/-
# A file system below descriptors

The world is a set of inodes and the entries that link them: an entry is a name in a directory.  An
inode without entries stays, for whoever has it open.  A descriptor is the inode it is open on.
The system calls are steps of `Lib/Machine.lean`: each may be made to fail, and then it does
nothing; a write may also be made short.

Other processes act between two calls; `Obeys` states what they may do.
-/
import Supplementary.Lib.Machine
import Mathlib.Logic.Function.Basic

namespace Posix

open Machine

/-! ## 1. Worlds -/

inductive Kind
  | regular
  | directory
  | other
  deriving DecidableEq

/-- An inode.  `mode` has the permission bits only. -/
structure Inode where
  kind : Kind
  mode : Nat
  uid : Nat
  gid : Nat
  bytes : List UInt8
  mtime : Nat
  ctime : Nat
  deriving DecidableEq

/-- The inode after its metadata changed. -/
def Inode.touched (n : Inode) : Inode := { n with ctime := n.ctime + 1 }

/-- The same inode data; only the change time may differ. -/
def Inode.Same (n n' : Inode) : Prop := n' = { n with ctime := n'.ctime }

theorem Inode.Same.refl (n : Inode) : n.Same n := rfl

theorem Inode.Same.trans {n n' n'' : Inode} (h : n.Same n') (h' : n'.Same n'') : n.Same n'' := by
  rw [Inode.Same] at *
  rw [h', h]

theorem Inode.same_touched (n : Inode) : n.Same n.touched := rfl

/-- A name in a directory. -/
abbrev Key (Name : Type) := Nat × Name

structure World (Name : Type) where
  inode : Nat → Option Inode
  entries : List (Key Name × Nat)
  /-- The next inode number. -/
  next : Nat
  /-- The directories that this process has made. -/
  own : List Nat

inductive Errno
  | noent
  | exist
  | notempty
  | notdir
  | isdir
  | perm
  | again
  | inval
  | notsup
  | other (n : Nat)
  deriving DecidableEq

/-- What `stat` reports. -/
structure Stat where
  ino : Nat
  info : Inode

/-- Equal in device, inode, type, mode, owner, group, size and modification time. -/
def Stat.sameIdentity (s t : Stat) : Bool :=
  s.ino = t.ino && s.info.kind = t.info.kind && s.info.mode = t.info.mode &&
    s.info.uid = t.info.uid && s.info.gid = t.info.gid &&
    s.info.bytes.length = t.info.bytes.length && s.info.mtime = t.info.mtime

/-- Equal in the change time too. -/
def Stat.sameSnapshot (s t : Stat) : Bool := s.sameIdentity t && s.info.ctime = t.info.ctime

theorem Stat.sameIdentity_of_same {s t : Stat} (hino : s.ino = t.ino) (h : s.info.Same t.info) :
    s.sameIdentity t = true := by
  rw [Inode.Same] at h
  rw [Stat.sameIdentity, h, hino]
  simp

theorem Stat.ino_of_sameIdentity {s t : Stat} (h : s.sameIdentity t = true) : s.ino = t.ino := by
  simp only [Stat.sameIdentity, Bool.and_eq_true, decide_eq_true_eq] at h
  exact h.1.1.1.1.1.1

section

variable {Name : Type} [DecidableEq Name]

namespace World

variable {w : World Name} {k k' : Key Name} {i : Nat}

/-- The inode behind a name. -/
def lookup (w : World Name) (k : Key Name) : Option Nat :=
  (w.entries.find? fun e => e.1 = k).map Prod.snd

def remove (w : World Name) (k : Key Name) : World Name :=
  { w with entries := w.entries.filter fun e => e.1 ≠ k }

def insert (w : World Name) (k : Key Name) (i : Nat) : World Name :=
  { w with entries := (k, i) :: (w.remove k).entries }

def touch (w : World Name) (i : Nat) : World Name :=
  { w with inode := Function.update w.inode i ((w.inode i).map Inode.touched) }

/-- A new inode behind a new name. -/
def create (w : World Name) (k : Key Name) (n : Inode) : World Name :=
  { w.insert k w.next with inode := Function.update w.inode w.next (some n), next := w.next + 1 }

/-- Whether a directory has no entries. -/
def isEmpty (w : World Name) (d : Nat) : Bool := w.entries.all fun e => e.1.1 ≠ d

/-- Whether an inode has an entry. -/
def isLinked (w : World Name) (i : Nat) : Bool := w.entries.any fun e => e.2 = i

theorem lookup_remove : (w.remove k).lookup k' = if k' = k then none else w.lookup k' := by
  unfold lookup remove
  simp only [List.find?_filter]
  split
  · next h =>
    rw [List.find?_eq_none.mpr]
    · rfl
    · simp [h]
  · next h =>
    congr 2
    funext e
    by_cases he : e.1 = k'
    · simp [he, h]
    · simp [he]

@[simp] theorem lookup_remove_self : (w.remove k).lookup k = none := by simp [lookup_remove]

theorem lookup_remove_ne (h : k' ≠ k) : (w.remove k).lookup k' = w.lookup k' := by
  simp [lookup_remove, h]

theorem lookup_insert : (w.insert k i).lookup k' = if k' = k then some i else w.lookup k' := by
  have htail : (w.remove k).lookup k' = if k' = k then none else w.lookup k' := lookup_remove
  unfold lookup at htail ⊢
  unfold insert
  simp only [List.find?_cons]
  by_cases h : k' = k
  · simp [h]
  · have hne : ¬ k = k' := fun heq => h heq.symm
    simp only [hne, decide_false, if_neg h] at htail ⊢
    exact htail

@[simp] theorem lookup_insert_self : (w.insert k i).lookup k = some i := by simp [lookup_insert]

theorem lookup_insert_ne (h : k' ≠ k) : (w.insert k i).lookup k' = w.lookup k' := by
  simp [lookup_insert, h]

@[simp] theorem lookup_touch : (w.touch i).lookup k = w.lookup k := rfl

theorem lookup_create {n : Inode} :
    (w.create k n).lookup k' = if k' = k then some w.next else w.lookup k' := lookup_insert

theorem lookup_mem (h : w.lookup k = some i) : (k, i) ∈ w.entries := by
  simp only [lookup, Option.map_eq_some_iff] at h
  obtain ⟨e, he, rfl⟩ := h
  have hkey := List.find?_some he
  simp only [decide_eq_true_eq] at hkey
  rw [← hkey]
  exact List.mem_of_find?_eq_some he

theorem not_lookup_of_not_linked (h : w.isLinked i = false) : w.lookup k ≠ some i := by
  intro hlookup
  rw [isLinked, List.any_eq_false] at h
  exact h _ (lookup_mem hlookup) (by simp)

theorem isEmpty_iff {d : Nat} : w.isEmpty d = true ↔ ∀ n, w.lookup (d, n) = none := by
  simp only [isEmpty, List.all_eq_true, decide_eq_true_eq]
  constructor
  · intro h n
    cases hlookup : w.lookup (d, n) with
    | none => rfl
    | some i => exact absurd rfl (h _ (lookup_mem hlookup))
  · intro h e he hd
    have hnone := h e.1.2
    rw [lookup, Option.map_eq_none_iff, List.find?_eq_none] at hnone
    exact hnone e he (by simp [← hd])

omit [DecidableEq Name] in
/-- The data of an inode survives a change of its metadata. -/
theorem same_touch {j : Nat} {n : Inode} (h : w.inode j = some n) :
    ∃ n', (w.touch i).inode j = some n' ∧ n.Same n' := by
  by_cases hij : j = i
  · refine ⟨n.touched, ?_, n.same_touched⟩
    simp [touch, hij, hij ▸ h]
  · exact ⟨n, by simp [touch, hij, h], .refl n⟩

/-- Entries lead from directories to inodes that are there. -/
structure Wf (w : World Name) : Prop where
  entry : ∀ k i, w.lookup k = some i → k.1 < w.next ∧ i < w.next
  inode : ∀ i, w.next ≤ i → w.inode i = none

theorem Wf.remove (h : w.Wf) : (w.remove k).Wf := by
  refine ⟨fun k' i hi => h.entry k' i ?_, h.inode⟩
  rw [lookup_remove] at hi
  split at hi
  · cases hi
  · exact hi

theorem Wf.insert (h : w.Wf) (hk : k.1 < w.next) (hi : i < w.next) : (w.insert k i).Wf := by
  refine ⟨fun k' j hj => ?_, h.inode⟩
  rw [lookup_insert] at hj
  split at hj
  · next heq =>
    cases hj
    exact ⟨heq ▸ hk, hi⟩
  · exact h.entry k' j hj

theorem Wf.touch (h : w.Wf) : (w.touch i).Wf := by
  refine ⟨h.entry, fun j hj => ?_⟩
  have hnone := h.inode j hj
  by_cases hij : j = i
  · simp [World.touch, hij, hij ▸ hnone]
  · simp [World.touch, hij, hnone]

theorem Wf.create (h : w.Wf) {n : Inode} (hk : k.1 < w.next) : (w.create k n).Wf := by
  refine ⟨fun k' j hj => ?_, fun j hj => ?_⟩
  · rw [lookup_create] at hj
    change k'.1 < w.next + 1 ∧ j < w.next + 1
    split at hj
    · next heq =>
      cases hj
      rw [heq]
      omega
    · have := h.entry k' j hj
      omega
  · change w.next + 1 ≤ j at hj
    have hne : j ≠ w.next := by omega
    simp only [World.create, Function.update_of_ne hne]
    exact h.inode j (by omega)

end World

/-! ## 2. System calls -/

/-- What a step of a program is; `print` hands a result to the caller. -/
inductive Call (Name Result : Type)
  | stat (k : Key Name)
  | fstat (i : Nat)
  | open (k : Key Name)
  | seek (i : Nat)
  | read (i : Nat)
  | mkdir (k : Key Name)
  | rmdir (k : Key Name)
  | linkTo (i : Nat) (k : Key Name)
  | link (k k' : Key Name)
  | unlink (k : Key Name)
  | rename (k k' : Key Name)
  | close (i : Nat)
  | create (k : Key Name)
  | write (i : Nat)
  | fsync (i : Nat)
  | chown (i : Nat)
  | chmod (i : Nat)
  | lock (i : Nat)
  | publish (k k' : Key Name)
  | exchange (k k' : Key Name)
  | print (r : Result)

inductive Fault
  | fail (e : Errno)
  | short (n : Nat)

/-- `OSError`, or the `SystemExit` after a result was printed. -/
inductive Raised
  | os (e : Errno)
  | exit

variable {Result Vars α : Type}

abbrev Sys (Name Result Vars α : Type) :=
  Program (World Name) (Call Name Result) Fault Vars Raised α

/-- A call that can be made to fail. -/
def syscall (call : Call Name Result) (act : World Name → Except Errno (α × World Name)) :
    Sys Name Result Vars α :=
  Program.perform call fun fault w => match fault with
    | some (.fail e) => (.error (.os e), w)
    | _ => match act w with
      | .ok (a, w') => (.ok a, w')
      | .error e => (.error (.os e), w)

/-- The inode behind a name, with its data. -/
def World.find (w : World Name) (k : Key Name) : Except Errno Stat :=
  match w.lookup k with
  | none => .error .noent
  | some i => match w.inode i with
    | none => .error .noent
    | some n => .ok ⟨i, n⟩

/-- `os.stat(name, dir_fd=…, follow_symlinks=False)`. -/
def stat (k : Key Name) : Sys Name Result Vars Stat :=
  syscall (.stat k) fun w => (w.find k).map fun st => (st, w)

/-- `os.fstat(fd)`. -/
def fstat (i : Nat) : Sys Name Result Vars Stat :=
  syscall (.fstat i) fun w => match w.inode i with
    | some n => .ok (⟨i, n⟩, w)
    | none => .error (.other 9)

/-- `os.open(name, O_RDONLY | O_NOFOLLOW | …, dir_fd=…)`; other kinds of inodes have their own
outcome, of which only a failure to open a link is certain, so they are left to the faults. -/
def openAt (k : Key Name) : Sys Name Result Vars Nat :=
  syscall (.open k) fun w => (w.find k).map fun st => (st.ino, w)

/-- The same where the permission to read is asked for. -/
def openReadable (mayRead : Inode → Bool) (k : Key Name) : Sys Name Result Vars Nat :=
  syscall (.open k) fun w => (w.find k).bind fun st =>
    if mayRead st.info then .ok (st.ino, w) else .error (.other 13)

/-- `os.open(name, O_RDONLY | O_DIRECTORY | O_NOFOLLOW, dir_fd=…)`. -/
def openDirectory (k : Key Name) : Sys Name Result Vars Nat :=
  syscall (.open k) fun w => (w.find k).bind fun st =>
    if st.info.kind = .directory then .ok (st.ino, w) else .error .notdir

/-- `os.lseek(fd, 0, SEEK_SET)`. -/
def seek (i : Nat) : Sys Name Result Vars Unit := syscall (.seek i) fun w => .ok ((), w)

/-- Further reads of a file that is read to its end. -/
def readMore (i : Nat) : (n : Nat) → Sys Name Result Vars Unit
  | 0 => pure ()
  | n + 1 => do
    syscall (.read i) fun w => .ok ((), w)
    readMore i n

/-- `os.read(fd, size)` until nothing comes: one call for each chunk and one for the end.  Nobody
changes the data of the file meanwhile, so the first call settles what they bring. -/
def readAll (i size : Nat) : Sys Name Result Vars (List UInt8) := do
  let bytes ← syscall (.read i) fun w => .ok (((w.inode i).map Inode.bytes).getD [], w)
  readMore i ((bytes.length + size - 1) / size)
  pure bytes

/-- `os.mkdir(name, mode, dir_fd=…)`. -/
def mkdir (k : Key Name) (mode uid gid : Nat) : Sys Name Result Vars Unit :=
  syscall (.mkdir k) fun w =>
    if (w.lookup k).isSome then .error .exist
    else .ok ((), { w.create k ⟨.directory, mode, uid, gid, [], 0, 0⟩ with
      own := w.next :: w.own })

/-- `os.rmdir(name, dir_fd=…)`. -/
def rmdir (k : Key Name) : Sys Name Result Vars Unit :=
  syscall (.rmdir k) fun w => (w.find k).bind fun st =>
    if st.info.kind ≠ .directory then .error .notdir
    else if w.isEmpty st.ino then .ok ((), w.remove k) else .error .notempty

/-- A further entry for an inode. -/
def World.addLink (w : World Name) (i : Nat) (k : Key Name) : Except Errno (Unit × World Name) :=
  match w.inode i with
  | none => .error .noent
  | some n =>
    if n.kind = .directory then .error .perm
    else if w.isLinked i = false then .error .noent
    else if (w.lookup k).isSome then .error .exist
    else .ok ((), (w.insert k i).touch i)

/-- `os.link("/proc/self/fd/…", name, dst_dir_fd=…, follow_symlinks=True)`. -/
def linkTo (i : Nat) (k : Key Name) : Sys Name Result Vars Unit :=
  syscall (.linkTo i k) fun w => w.addLink i k

/-- `os.link(name, name', src_dir_fd=…, dst_dir_fd=…, follow_symlinks=False)`. -/
def link (k k' : Key Name) : Sys Name Result Vars Unit :=
  syscall (.link k k') fun w => (w.find k).bind fun st => w.addLink st.ino k'

/-- `os.unlink(name, dir_fd=…)`. -/
def unlink (k : Key Name) : Sys Name Result Vars Unit :=
  syscall (.unlink k) fun w => (w.find k).bind fun st =>
    if st.info.kind = .directory then .error .isdir else .ok ((), (w.remove k).touch st.ino)

/-- Whether an entry can take the place of another one. -/
def World.replaceable (w : World Name) (st : Stat) (k : Key Name) : Except Errno Unit :=
  match w.find k with
  | .error _ => .ok ()
  | .ok st' =>
    if st'.info.kind = .directory then
      if st.info.kind ≠ .directory then .error .isdir
      else if w.isEmpty st'.ino then .ok () else .error .notempty
    else if st.info.kind = .directory then .error .notdir
    else .ok ()

/-- `os.rename(name, name', src_dir_fd=…, dst_dir_fd=…)`. -/
def rename (k k' : Key Name) : Sys Name Result Vars Unit :=
  syscall (.rename k k') fun w => (w.find k).bind fun st => (w.replaceable st k').bind fun _ =>
    if w.lookup k' = some st.ino then .ok ((), w)
    else .ok ((), ((w.remove k).insert k' st.ino).touch st.ino)

/-- `os.open(name, O_RDWR | O_CREAT | O_EXCL | O_NOFOLLOW, mode, dir_fd=…)`. -/
def createFile (k : Key Name) (mode uid gid : Nat) : Sys Name Result Vars Nat :=
  syscall (.create k) fun w =>
    if (w.lookup k).isSome then .error .exist
    else .ok (w.next, w.create k ⟨.regular, mode, uid, gid, [], 0, 0⟩)

/-- A change of an inode. -/
def World.modify (w : World Name) (i : Nat) (change : Inode → Inode) : World Name :=
  { w with inode := Function.update w.inode i ((w.inode i).map change) }

/-- `os.write(fd, data)` at the end of the file, maybe of a part only; how much was written. -/
def write (i : Nat) (data : List UInt8) : Sys Name Result Vars Nat :=
  Program.perform (.write i) fun fault w => match fault with
    | some (.fail e) => (.error (.os e), w)
    | some (.short n) => (.ok (min n data.length), w.modify i fun inode =>
        { inode with bytes := inode.bytes ++ data.take n, mtime := inode.mtime + 1 })
    | none => (.ok data.length, w.modify i fun inode =>
        { inode with bytes := inode.bytes ++ data, mtime := inode.mtime + 1 })

/-- `os.fsync(fd)`. -/
def fsync (i : Nat) : Sys Name Result Vars Unit := syscall (.fsync i) fun w => .ok ((), w)

/-- `os.fchown(fd, uid, gid)`. -/
def fchown (i uid gid : Nat) : Sys Name Result Vars Unit := syscall (.chown i) fun w =>
  .ok ((), w.modify i fun inode => { inode with uid, gid, ctime := inode.ctime + 1 })

/-- `os.fchmod(fd, mode)`. -/
def fchmod (i mode : Nat) : Sys Name Result Vars Unit := syscall (.chmod i) fun w =>
  .ok ((), w.modify i fun inode => { inode with mode, ctime := inode.ctime + 1 })

/-- `fcntl.flock(fd, LOCK_EX | LOCK_NB)`; that somebody else holds the lock is left to the faults. -/
def flock (i : Nat) : Sys Name Result Vars Unit := syscall (.lock i) fun w => .ok ((), w)

/-- `renameat2(…, RENAME_NOREPLACE)`. -/
def renameNoreplace (k k' : Key Name) : Sys Name Result Vars Unit :=
  syscall (.publish k k') fun w => (w.find k).bind fun st =>
    if (w.lookup k').isSome then .error .exist
    else .ok ((), ((w.remove k).insert k' st.ino).touch st.ino)

/-- `renameat2(…, RENAME_EXCHANGE)`. -/
def renameExchange (k k' : Key Name) : Sys Name Result Vars Unit :=
  syscall (.exchange k k') fun w => (w.find k).bind fun st => (w.find k').bind fun st' =>
    .ok ((), (((w.insert k st'.ino).insert k' st.ino).touch st.ino).touch st'.ino)

/-- `os.close(fd)`. -/
def close (i : Nat) : Sys Name Result Vars Unit := syscall (.close i) fun w => .ok ((), w)

/-- Prints a result; the caller has it from then on. -/
def print (r : Result) : Sys Name Result Vars Unit := Program.perform (.print r) fun _ w => (.ok (), w)

/-- `except OSError`. -/
def Raised.errno? : Raised → Option Errno
  | .os e => some e
  | .exit => none

/-- Hands over an `OSError`. -/
def attempt (x : Sys Name Result Vars α) : Sys Name Result Vars (Except Errno α) :=
  Program.attempt Raised.errno? x

/-! ## 3. Triples of system calls -/

section

variable {env : Env (World Name) Fault} {R : World Name → World Name → Prop}
  {P : Run (World Name) (Call Name Result) Vars → Prop}
  {Q : α → Run (World Name) (Call Name Result) Vars → Prop}
  {E : Raised → Run (World Name) (Call Name Result) Vars → Prop}

/-- Other processes change the world only in this way. -/
def Obeys (env : Env (World Name) Fault) (R : World Name → World Name → Prop) : Prop :=
  ∀ n w, R w (env.other n w)

/-- The run after a step. -/
def after (s : Run (World Name) (Call Name Result) Vars) (call : Call Name Result)
    (before after : World Name) (ok : Bool) : Run (World Name) (Call Name Result) Vars :=
  { s with world := after, log := ⟨call, before, after, ok⟩ :: s.log }

omit [DecidableEq Name] in
/-- A call does what it does to the world as it finds it, or fails and does nothing. -/
theorem triple_syscall (henv : Obeys env R) {call : Call Name Result}
    {act : World Name → Except Errno (α × World Name)}
    (hok : ∀ s before a w, P s → R s.world before → act before = .ok (a, w) →
      Q a (after s call before w true))
    (herror : ∀ s before e, P s → R s.world before →
      E (.os e) (after s call before before false)) : Triple env P (syscall call act) Q E := by
  refine triple_perform (fun s a w hs hact => ?_) fun s e w hs hact => ?_
  · have hobeys := henv s.log.length s.world
    refine hok s _ a w hs hobeys ?_
    split at hact
    · cases hact
    · split at hact <;> simp_all
  · have hobeys := henv s.log.length s.world
    split at hact
    · cases hact
      exact herror s _ _ hs hobeys
    · split at hact
      · cases hact
      · cases hact
        exact herror s _ _ hs hobeys

omit [DecidableEq Name] in
/-- A call that only reads. -/
theorem triple_reading (henv : Obeys env R) {call : Call Name Result}
    {look : World Name → Except Errno α}
    (hstable : ∀ s before ok, P s → R s.world before → P (after s call before before ok)) :
    Triple env P (syscall call fun w => (look w).map fun a => (a, w))
      (fun a s => P s ∧ look s.world = .ok a) fun e s => P s ∧ ∃ e', e = .os e' := by
  refine triple_syscall henv (fun s before a w hs hR hact => ?_) fun s before e hs hR =>
    ⟨hstable s before false hs hR, e, rfl⟩
  cases hlook : look before with
  | error e => simp [hlook, Except.map] at hact
  | ok b =>
    simp only [hlook, Except.map, Except.ok.injEq, Prod.mk.injEq] at hact
    obtain ⟨rfl, rfl⟩ := hact
    exact ⟨hstable s before true hs hR, hlook⟩

omit [DecidableEq Name] in
/-- A call that reads and cannot fail by itself. -/
theorem triple_looking (henv : Obeys env R) {call : Call Name Result} {look : World Name → α}
    (hstable : ∀ s before ok, P s → R s.world before → P (after s call before before ok)) :
    Triple env P (syscall call fun w => .ok (look w, w)) (fun a s => P s ∧ a = look s.world)
      fun e s => P s ∧ ∃ e', e = .os e' :=
  Triple.post (@triple_reading _ _ _ _ env R P henv call (fun w => .ok (look w)) hstable) fun _ _ h =>
    ⟨h.1, (Except.ok.inj h.2).symm⟩

omit [DecidableEq Name] in
theorem triple_print (henv : Obeys env R) {r : Result} {Q : Unit → Run _ _ Vars → Prop}
    (h : ∀ s before, P s → R s.world before → Q () (after s (.print r) before before true)) :
    Triple env P (print r) Q E :=
  triple_perform (fun s _ _ hs hact => by
    cases hact
    exact h s _ hs (henv _ _)) fun _ _ _ _ hact => by cases hact

omit [DecidableEq Name] in
/-- `try: x except OSError`. -/
theorem triple_attempt {x : Sys Name Result Vars α}
    {Q : Except Errno α → Run (World Name) (Call Name Result) Vars → Prop}
    (h : Triple env P x (fun a => Q (.ok a)) fun e s => match e with
      | .os e' => Q (.error e') s
      | .exit => E .exit s) : Triple env P (attempt x) Q E := by
  refine Triple.attempt (h.weaken (fun _ hs => hs) (fun _ _ ha => ha) fun e s he => ?_)
  cases e with
  | os e' => exact he
  | exit => exact he

end

end

end Posix
