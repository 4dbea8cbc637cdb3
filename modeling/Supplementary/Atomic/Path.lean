/-
# Steps of a path transaction

`atomic_path` installs a file or a directory by way of a private workspace next to it.  This module
has its helpers: the trusted walk to the parent directory, the workspace, and the ways to look at an
entry twice before it is trusted or removed.

An inode number stands for the pair of device and inode number that `stat` reports.
-/
import Supplementary.Atomic.Unlink

namespace Supplementary.Atomic.Path

open Machine Posix

/-! ## 1. Arguments, variables and exceptions -/

/-- The validated arguments.  `components` are the names on the way from the root directory to the
parent directory, `identities` the identities that are known of the directories on it, by their
number on the way (the root is zero): a known one may be malformed. -/
structure Params where
  path : PyStr
  root : Nat
  components : List PyStr
  identities : Nat → Option (Option Nat)
  /-- The path that the descriptor of the parent directory reports. -/
  descriptorPath : PyStr
  content : Option PyStr
  mode : Nat
  uid : Nat
  gid : Nat
  expectedChecksum : Option PyStr
  allowAbsent : Bool
  checkMode : Bool
  /-- The effective user and group, and the further groups. -/
  euid : Nat
  egid : Nat
  groups : List Nat

/-- What `exit_json` and `fail_json` print. -/
structure Outcome where
  failed : Bool
  changed : Bool := false
  msg : String := ""
  path : PyStr
  checksum : Option PyStr := none
  recoveryPath : Option PyStr := none

/-- The exceptions: an `OSError`, its two subclasses here, a `ValueError`, and the `SystemExit` after
a result was printed. -/
inductive Failure
  | os (e : Errno)
  | preservedRecovery (entry : PyStr)
  | preservedWorkspace (path : PyStr)
  | value
  | exit

/-- The variables of a transaction. -/
structure Flags where
  descriptor : Option Nat := none
  staged : Option Stat := none
  displaced : Option Stat := none
  final : Option Stat := none
  installed : Bool := false
  /-- The entry of the workspace that has the new directory. -/
  privateEntry : Option PyStr := none
  preserveWorkspace : Bool := false
  recoveryName : Option PyStr := none
  cleanupFailed : Bool := false
  failure : Option Failure := none
  /-- The result of the `fstat` in the cleanup, and its first exception. -/
  cleanupIdentity : Option Stat := none
  cleanupException : Option Failure := none
  committedRecoveryPath : Option PyStr := none

abbrev Sys (α : Type) := Program (World PyStr) (Call PyStr Outcome) Fault Flags Failure α

/-- The exception of a system call. -/
def Failure.ofRaised : Raised → Failure
  | .os e => .os e
  | .exit => .exit

/-- `except OSError`; every exception of the modelled code but `SystemExit` and `ValueError`. -/
def Failure.isOs? : Failure → Option Failure
  | .exit => none
  | .value => none
  | e => some e

/-- `except Exception`. -/
def Failure.isException? : Failure → Option Failure
  | .exit => none
  | e => some e

section

variable {α : Type}

/-- A system call. -/
def sys (x : Posix.Sys PyStr Outcome Flags α) : Sys α := Program.mapError Failure.ofRaised x

def raise (e : Failure) : Sys α := Program.raise e

/-- `raise OSError(...)`. -/
def raiseOs : Sys α := raise (.os (.other 0))

/-- `try: x except OSError`. -/
def attempt (x : Sys α) : Sys (Except Failure α) := Program.attempt Failure.isOs? x

/-- `module.fail_json(...)`. -/
def failJson (p : Params) (msg : String) (recoveryPath : Option PyStr := none) : Sys α := do
  sys (print { failed := true, msg, path := p.path, recoveryPath })
  raise .exit

/-- `module.exit_json(...)`. -/
def exitJson (p : Params) (changed : Bool) (checksum : Option PyStr := none) : Sys α := do
  sys (print { failed := false, changed, path := p.path, checksum })
  raise .exit

/-- Fails unless a check holds. -/
def require (p : Params) (holds : Bool) (msg : String) : Sys Unit :=
  if holds then pure () else failJson p msg

/-- Raises an `OSError` unless a check holds. -/
def demand (holds : Bool) : Sys Unit := if holds then pure () else raiseOs

/-! ## 2. The trusted walk -/

/-- The directory that was opened is the known one. -/
def checkIdentity (expected : Option Nat) (i : Nat) : Sys Unit := do
  match expected with
  | none => raiseOs
  | some identity => do
    let opened ← sys (fstat i)
    demand (opened.ino = identity)

/-- A directory on the way is checked if its identity is known. -/
def checkKnown (p : Params) (depth i : Nat) : Sys Unit :=
  match p.identities depth with
  | none => pure ()
  | some expected => checkIdentity expected i

/-- `os.close(current)` before an exception goes on. -/
def closing (i : Nat) (x : Sys α) : Sys α := do
  match ← Program.attempt Failure.isException? x with
  | .ok a => pure a
  | .error e => do
    let _ ← attempt (sys (close i))
    raise e

/-- The directory before the current one is closed; if that fails, the current one is closed too. -/
def closePrevious (previous following : Nat) : Sys Unit := do
  match ← attempt (sys (close previous)) with
  | .ok () => pure ()
  | .error e => do
    let _ ← attempt (sys (close following))
    raise e

/-- The walk from an open directory. -/
def walk (p : Params) : (depth current : Nat) → List PyStr → Sys Nat
  | depth, current, [] =>
    closing current (if (p.identities depth).isSome then pure current else raiseOs)
  | depth, current, component :: rest => do
    let following ← closing current (sys (openDirectory (current, component)))
    closePrevious current following
    closing following (checkKnown p (depth + 1) following)
    walk p (depth + 1) following rest

/-- `_open_bound_directory(path, identities)` for the parent directory. -/
def openBoundDirectory (p : Params) : Sys Nat := do
  let current ← sys (openDirectory (p.root, "/"))
  closing current (if p.components = [] ∧ (p.identities 0).isNone then raiseOs
    else checkKnown p 0 current)
  walk p 0 current p.components

/-! ## 3. Looking at entries -/

/-- `_effective_user_can_read(mode, uid, gid)`. -/
def effectiveUserCanRead (p : Params) (mode uid gid : Nat) : Bool :=
  if p.euid = 0 then true
  else if p.euid = uid then mode.testBit 8
  else if gid = p.egid ∨ gid ∈ p.groups then mode.testBit 5
  else mode.testBit 2

/-- `os.open(name, O_RDONLY | O_NOFOLLOW | O_NONBLOCK, dir_fd=…)`, which asks for the permission to
read. -/
def openForReading (p : Params) (k : Key PyStr) : Sys Nat :=
  sys (openReadable (fun n => effectiveUserCanRead p n.mode n.uid n.gid) k)

/-- `_checksum(fd)`. -/
def checksum (i : Nat) : Sys PyStr := sys do
  seek i
  let bytes ← readAll i 1048576
  pure (Sha256.hexdigest bytes)

/-- `_matches(details, mode, uid, gid)`. -/
def isMatch (p : Params) (st : Stat) : Bool :=
  st.info.mode = p.mode && st.info.uid = p.uid && st.info.gid = p.gid

/-- `_same_inode(left, right)`. -/
def sameInode (s t : Stat) : Bool := s.ino = t.ino

/-- `_same_directory_identity(left, right)`. -/
def sameDirectoryIdentity (s t : Stat) : Bool :=
  sameInode s t && s.info.kind = .directory && t.info.kind = .directory &&
    s.info.mode = t.info.mode && s.info.uid = t.info.uid && s.info.gid = t.info.gid

/-- `_same_entry_snapshot(left, right)`. -/
def sameEntrySnapshot : Option Stat → Option Stat → Bool
  | none, none => true
  | some s, some t =>
    if s.info.kind = .directory ∨ t.info.kind = .directory then sameDirectoryIdentity s t
    else s.sameSnapshot t
  | _, _ => false

/-- `_existing(parent, name)`. -/
def existing (k : Key PyStr) : Sys (Option Stat) := do
  match ← attempt (sys (stat k)) with
  | .ok st => pure (some st)
  | .error (.os .noent) => pure none
  | .error e => raise e

/-- `_verified_file(parent, name, expected, checksum)`. -/
def verifiedFile (p : Params) (k : Key PyStr) (expected : Stat) (expectedChecksum : PyStr) :
    Sys Bool := do
  match ← attempt (openForReading p k) with
  | .error _ => pure false
  | .ok descriptor => Program.ensuring (do
      let opened ← sys (fstat descriptor)
      if opened.sameIdentity expected then do
        if (← checksum descriptor) = expectedChecksum then do
          pure (opened.sameSnapshot (← sys (fstat descriptor)))
        else pure false
      else pure false) (sys (close descriptor))

/-- `_verified_descriptor(descriptor, expected, checksum)`. -/
def verifiedDescriptor (descriptor : Nat) (expected : Stat) (expectedChecksum : PyStr) :
    Sys Bool := do
  let opened ← sys (fstat descriptor)
  if opened.sameSnapshot expected then do
    if (← checksum descriptor) = expectedChecksum then do
      pure (opened.sameSnapshot (← sys (fstat descriptor)))
    else pure false
  else pure false

/-- An entry that was seen twice through two walks to the same directory. -/
def seenThrough (p : Params) (original : Stat) (name : PyStr) : Sys (Option Stat) := do
  let directory ← openBoundDirectory p
  Program.ensuring (do
    demand (sameInode original (← sys (fstat directory)))
    existing (directory, name)) (sys (close directory))

/-- `_revalidated_entry(module, parent, name)`. -/
def revalidatedEntry (p : Params) (target : Key PyStr) : Sys (Option Stat) := do
  let original ← sys (fstat target.1)
  let observed ← seenThrough p original target.2
  let directory ← openBoundDirectory p
  Program.ensuring (do
    demand (sameInode original (← sys (fstat directory)))
    let confirmed ← existing (directory, target.2)
    demand (sameEntrySnapshot observed confirmed)
    pure confirmed) (sys (close directory))

/-! ## 4. The private workspace -/

/-- `os.rmdir` of a directory or `os.unlink` of another entry. -/
def removeEntry (k : Key PyStr) (directory : Bool) : Sys Bool := do
  match ← attempt (sys (if directory then rmdir k else unlink k)) with
  | .ok () => pure true
  | .error _ => pure false

/-- `_remove_private_if_same(parent, name, expected, directory=...)`. -/
def removePrivateIfSame (k : Key PyStr) (expected : Stat) (directory : Bool) : Sys Bool := do
  match ← attempt (sys (stat k)) with
  | .error (.os .noent) => pure true
  | .error _ => pure false
  | .ok current =>
    if (if directory then sameInode current expected else current.sameIdentity expected) then
      removeEntry k directory
    else pure false

/-- `_PreservedWorkspace` of a workspace. -/
def workspacePath (p : Params) (name : PyStr) : PyStr := joinPath p.descriptorPath name

/-- A workspace that cannot be used is removed before `e` is raised. -/
def abandon (p : Params) (k : Key PyStr) (expected : Stat) (e : Failure) : Sys α := do
  if ← removePrivateIfSame k expected true then raise e
  else raise (.preservedWorkspace (workspacePath p k.2))

/-- It is closed first if it is open already. -/
def closeAndAbandon (p : Params) (k : Key PyStr) (descriptor : Nat) (expected : Stat)
    (e : Failure) : Sys α := do
  match ← attempt (sys (close descriptor)) with
  | .error _ => raise (.preservedWorkspace (workspacePath p k.2))
  | .ok () => abandon p k expected e

/-- The workspace that was just made and opened. -/
def checkWorkspace (p : Params) (k : Key PyStr) (descriptor : Nat) (expected : Stat) :
    Sys (Nat × PyStr × Stat) := do
  match ← attempt (sys (fstat descriptor)) with
  | .error e => closeAndAbandon p k descriptor expected e
  | .ok opened =>
    if opened.info.uid ≠ p.euid ∨ opened.info.mode % 0o1000 ≠ 0o700 then
      closeAndAbandon p k descriptor expected (.os (.other 0))
    else if sameInode expected opened = false then
      closeAndAbandon p k descriptor expected (.os (.other 0))
    else pure (descriptor, k.2, opened)

/-- The workspace that was just made. -/
def openWorkspace (p : Params) (k : Key PyStr) : Sys (Nat × PyStr × Stat) := do
  match ← attempt (sys (stat k)) with
  | .error _ => raise (.preservedWorkspace (workspacePath p k.2))
  | .ok expected => do
    match ← attempt (sys (openDirectory k)) with
    | .error e => abandon p k expected e
    | .ok descriptor => checkWorkspace p k descriptor expected

/-- `_private_workspace(parent)`, with the names that are left to try. -/
def privateWorkspace (p : Params) (parent : Nat) : List PyStr → Sys (Nat × PyStr × Stat)
  | [] => raiseOs
  | name :: rest => do
    match ← attempt (sys (mkdir (parent, name) 0o700 p.euid p.egid)) with
    | .ok () => openWorkspace p (parent, name)
    | .error (.os .exist) => privateWorkspace p parent rest
    | .error e => raise e

/-- Whether the captured entry is the one that was installed. -/
def isCaptured (p : Params) (k : Key PyStr) (captured expected : Stat) (directory : Bool)
    (expectedChecksum : Option PyStr) : Sys Bool :=
  if directory then pure (sameDirectoryIdentity captured expected)
  else match expectedChecksum with
    | none => pure false
    | some text =>
      if captured.sameIdentity expected then verifiedFile p k captured text else pure false

/-- `_capture_and_remove(parent, name, expected, workspace, capture, ...)`. -/
def captureAndRemove (p : Params) (target : Key PyStr) (expected : Stat) (capture : Key PyStr)
    (directory : Bool) (expectedChecksum : Option PyStr) : Sys Bool := do
  match ← attempt (sys (renameNoreplace target capture)) with
  | .error (.os .noent) => raiseOs
  | .error e => raise e
  | .ok () => do
    match ← attempt (sys (stat capture)) with
    | .error _ => raise (.preservedRecovery capture.2)
    | .ok captured => do
      match ← attempt (isCaptured p capture captured expected directory expectedChecksum) with
      | .error _ => raise (.preservedRecovery capture.2)
      | .ok false => raise (.preservedRecovery capture.2)
      | .ok true => removePrivateIfSame capture captured directory

/-- `_require_exclusive_parent(parent)`. -/
def requireExclusiveParent (p : Params) (parent : Nat) : Sys Unit := do
  let details ← sys (fstat parent)
  demand (details.info.uid = p.euid && details.info.mode &&& 0o022 = 0)
  sys (flock parent)

/-- `_fsync_directory(parent)`. -/
def fsyncDirectory (i : Nat) : Sys Unit := do
  match ← attempt (sys (fsync i)) with
  | .ok () => pure ()
  | .error (.os .inval) => pure ()
  | .error (.os .notsup) => pure ()
  | .error e => raise e

end

end Supplementary.Atomic.Path
