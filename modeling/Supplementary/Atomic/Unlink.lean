/-
# Removing one verified file

`atomic_unlink` verifies the type, mode, owner and checksum of a file, keeps a second hard link to
it in a private quarantine directory, moves the name there, checks that it moved what it verified,
and only then removes both links.  Where a step fails it tries to link the file back.

The parent directory is open already: the module starts where its arguments have been validated and
the trusted parent chain has been walked.
-/
import Supplementary.Lib.Posix
import Supplementary.Python.Sha256

namespace Supplementary.Atomic

open Machine Posix

/-! ## 1. Arguments, variables and results -/

/-- `[0-9a-f]{64}`. -/
def isDigest (s : PyStr) : Bool :=
  s.length = 64 && s.codePoints.all fun c => (48 ≤ c && c ≤ 57) || (97 ≤ c && c ≤ 102)

/-- `os.path.join(directory, name)`. -/
def joinPath (directory name : PyStr) : PyStr :=
  if directory.endsWith "/" then directory ++ name else directory ++ "/" ++ name

namespace Unlink

/-- The validated arguments; `directory` is `os.path.dirname(path)`. -/
structure Params where
  path : PyStr
  directory : PyStr
  checksum : PyStr
  mode : Nat
  uid : Nat
  gid : Nat
  allowAbsent : Bool
  checkMode : Bool

/-- What `exit_json` and `fail_json` print. -/
structure Outcome where
  failed : Bool
  changed : Bool := false
  msg : String := ""
  path : PyStr
  recoveryPath : Option PyStr := none
  cleanupWarning : Option Errno := none

/-- `file_fd`, `quarantine_fd` and `quarantine_name`. -/
structure Locals where
  fileFd : Option Nat := none
  quarantineFd : Option Nat := none
  quarantineName : Option PyStr := none

abbrev Sys (α : Type) := Posix.Sys PyStr Outcome Locals α

section

variable {α : Type} (p : Params)

/-- `module.fail_json(...)`. -/
def failJson (msg : String) (recoveryPath : Option PyStr := none) : Sys α := do
  print { failed := true, msg, path := p.path, recoveryPath }
  Program.raise .exit

/-- `module.exit_json(...)`. -/
def exitJson (changed : Bool) (cleanupWarning : Option Errno := none)
    (recoveryPath : Option PyStr := none) : Sys α := do
  print { failed := false, changed, path := p.path, recoveryPath, cleanupWarning }
  Program.raise .exit

/-! ## 2. Verifying -/

/-- Fails with a message unless a check holds. -/
def require (holds : Bool) (msg : String) : Sys Unit :=
  if holds then pure () else failJson p msg

/-- `_checksum_fd(file_fd)`. -/
def checksumFd (i : Nat) : Sys PyStr := do
  seek i
  let bytes ← readAll i 1048576
  pure (Sha256.hexdigest bytes)

/-- The checksum may only be left out where the file may be absent. -/
def checkChecksum : Sys Unit :=
  if p.checksum.codePoints ≠ [] then
    require p (isDigest p.checksum) "checksum must be one lowercase SHA-256 digest"
  else require p p.allowAbsent "checksum must be one lowercase SHA-256 digest"

/-- The target as it is found. -/
def statTarget (target : Key PyStr) : Sys Stat := do
  match ← attempt (stat target) with
  | .ok before => pure before
  | .error .noent =>
    if p.allowAbsent then exitJson p false else failJson p "owned file is absent"
  | .error e => Program.raise (.os e)

/-- The type, mode and owner that are asked for. -/
def isExpected (n : Inode) : Bool :=
  n.kind = .regular && n.mode = p.mode && (n.uid = p.uid && n.gid = p.gid)

/-- Everything up to the last check before the first change: the open file, and its status. -/
def verifyTarget (target : Key PyStr) : Sys (Nat × Stat) := do
  checkChecksum p
  let before ← statTarget p target
  require p (before.info.kind = .regular) "removal target is not a regular file"
  require p (before.info.mode = p.mode) "removal target mode changed"
  require p (before.info.uid = p.uid && before.info.gid = p.gid) "removal target ownership changed"
  let fd ← openAt target
  Program.assign fun v => { v with fileFd := some fd }
  let opened ← fstat fd
  require p (opened.sameSnapshot before) "removal target changed while opening"
  let checksum ← checksumFd fd
  require p (checksum = p.checksum) "removal target checksum changed"
  let final ← fstat fd
  let finalName ← stat target
  require p (final.sameSnapshot finalName) "removal target changed at the unlink boundary"
  require p (isExpected p final.info) "removal target metadata changed at the unlink boundary"
  pure (fd, final)

/-! ## 3. The quarantine -/

/-- Opens the directory that was just made, or removes it again. -/
def openQuarantine (parent : Nat) (quarantineName : PyStr) : Sys (Nat × PyStr) := do
  match ← attempt (openDirectory (parent, quarantineName)) with
  | .ok quarantine => pure (quarantine, quarantineName)
  | .error e => do
    let _ ← attempt (rmdir (parent, quarantineName))
    Program.raise (.os e)

/-- `_make_private_quarantine(parent_fd)`, with the names that are left to try and the identity the
directory is made with. -/
def makePrivateQuarantine (uid gid parent : Nat) : List PyStr → Sys (Nat × PyStr)
  | [] => Program.raise (.os (.other 0))
  | quarantineName :: rest => do
    match ← attempt (mkdir (parent, quarantineName) 0o700 uid gid) with
    | .ok () => openQuarantine parent quarantineName
    | .error .exist => makePrivateQuarantine uid gid parent rest
    | .error e => Program.raise (.os e)

/-- `_preserve_open_file(file_fd, quarantine_fd, expected)`. -/
def preserveOpenFile (fd quarantine : Nat) (expected : Stat) : Sys Unit := do
  linkTo fd (quarantine, "verified")
  let preserved ← stat (quarantine, "verified")
  if expected.sameIdentity preserved then pure ()
  else do
    unlink (quarantine, "verified")
    Program.raise (.os (.other 0))

/-- `_restore_quarantined_file(parent_fd, name, quarantine_fd)`. -/
def restoreQuarantinedFile (target : Key PyStr) (quarantine : Nat) : Sys Bool := do
  match ← attempt (link (quarantine, "target") target) with
  | .error _ => pure false
  | .ok () => do
    let _ ← attempt (unlink (quarantine, "target"))
    pure true

/-- The quarantine is removed if the file was restored. -/
def removeRestored (quarantine : Key PyStr) (restored : Bool) : Sys Bool :=
  if restored then do
    match ← attempt (rmdir quarantine) with
    | .ok () => pure true
    | .error _ => pure false
  else pure false

/-- `_recover_quarantine(...)`. -/
def recoverQuarantine (target : Key PyStr) (quarantine : Nat) (quarantineName : PyStr) :
    Sys (Bool × Bool) := do
  let restored ← restoreQuarantinedFile target quarantine
  let cleaned ← removeRestored (target.1, quarantineName) restored
  pure (restored, cleaned)

/-- The path of the second hard link. -/
def verifiedPath (quarantineName : PyStr) : PyStr :=
  joinPath (joinPath p.directory quarantineName) "verified"

/-- `_quarantine_recovery_path(path, quarantine_name, cleaned)`. -/
def quarantineRecoveryPath (quarantineName : PyStr) (cleaned : Bool) : PyStr :=
  if cleaned then "" else verifiedPath p quarantineName

/-- `_quarantine_recovery_summary(restored, cleaned)`. -/
def quarantineRecoverySummary (restored cleaned : Bool) : String :=
  if restored && cleaned then "entry restored"
  else if restored then "entry restored; recovery copy preserved in quarantine"
  else "entry preserved in quarantine"

/-- A cleaned quarantine is forgotten. -/
def forgetCleaned (cleaned : Bool) : Sys Unit :=
  if cleaned then Program.assign fun v => { v with quarantineName := none } else pure ()

/-- Recovers what can be recovered and fails. -/
def recoverAndFail (target : Key PyStr) (quarantine : Nat) (quarantineName : PyStr)
    (msg : String) : Sys Unit := do
  let (restored, cleaned) ← recoverQuarantine target quarantine quarantineName
  forgetCleaned cleaned
  failJson p (msg ++ "; " ++ quarantineRecoverySummary restored cleaned)
    (some (quarantineRecoveryPath p quarantineName cleaned))

/-! ## 4. Removing -/

/-- The end of a removal: the quarantine goes too. -/
def removeQuarantine (quarantine : Key PyStr) : Sys Unit := do
  match ← attempt (rmdir quarantine) with
  | .error e => exitJson p true (some e)
  | .ok () => do
    Program.assign fun v => { v with quarantineName := none }
    exitJson p true

/-- Removes the second hard link. -/
def deleteVerified (parent quarantine : Nat) (quarantineName : PyStr) : Sys Unit := do
  match ← attempt (unlink (quarantine, "verified")) with
  | .error e => exitJson p true (some e) (some (verifiedPath p quarantineName))
  | .ok () => do
    close quarantine
    Program.assign fun v => { v with quarantineFd := none }
    removeQuarantine p (parent, quarantineName)

/-- Removes the quarantined target. -/
def deleteTarget (target : Key PyStr) (quarantine : Nat) (quarantineName : PyStr) : Sys Unit := do
  match ← attempt (unlink (quarantine, "target")) with
  | .error _ =>
    recoverAndFail p target quarantine quarantineName "atomic unlink failed after quarantine"
  | .ok () => deleteVerified p target.1 quarantine quarantineName

/-- The last look at the quarantined target. -/
def revalidate (target : Key PyStr) (fd : Nat) (final : Stat) (quarantine : Nat)
    (quarantineName : PyStr) : Sys Unit := do
  let look : Sys (Stat × PyStr) := do
    let finalQuarantine ← stat (quarantine, "target")
    let finalChecksum ← checksumFd fd
    pure (finalQuarantine, finalChecksum)
  match ← attempt look with
  | .error _ =>
    recoverAndFail p target quarantine quarantineName "cannot revalidate the quarantined target"
  | .ok (finalQuarantine, finalChecksum) =>
    if final.sameIdentity finalQuarantine && isExpected p finalQuarantine.info &&
        finalChecksum = p.checksum then
      deleteTarget p target quarantine quarantineName
    else
      recoverAndFail p target quarantine quarantineName
        "quarantined removal target changed before deletion"

/-- What was moved must be what was verified. -/
def inspect (target : Key PyStr) (fd : Nat) (final : Stat) (quarantine : Nat)
    (quarantineName : PyStr) : Sys Unit := do
  match ← attempt (stat (quarantine, "target")) with
  | .error _ =>
    recoverAndFail p target quarantine quarantineName "cannot inspect the atomic quarantine"
  | .ok quarantined =>
    if final.sameIdentity quarantined then
      revalidate p target fd final quarantine quarantineName
    else
      recoverAndFail p target quarantine quarantineName
        "removal target changed at the atomic quarantine boundary"

/-- The removal of a verified file; the new directories have the identity `uid`, `gid`. -/
def removeVerified (uid gid : Nat) (names : List PyStr) (target : Key PyStr) (fd : Nat)
    (final : Stat) : Sys Unit := do
  let (quarantine, quarantineName) ← makePrivateQuarantine uid gid target.1 names
  Program.assign fun v =>
    { v with quarantineFd := some quarantine, quarantineName := some quarantineName }
  preserveOpenFile fd quarantine final
  match ← attempt (rename target (quarantine, "target")) with
  | .error _ =>
    failJson p "cannot quarantine the removal target; verified inode preserved in quarantine"
      (some (verifiedPath p quarantineName))
  | .ok () => inspect p target fd final quarantine quarantineName

/-- The body of `main`. -/
def body (uid gid : Nat) (names : List PyStr) (target : Key PyStr) : Sys Unit := do
  let (fd, final) ← verifyTarget p target
  if p.checkMode then exitJson p true
  else removeVerified p uid gid names target fd final

/-- `os.close(fd)` of a descriptor that is open. -/
def closeOpen : Option Nat → Sys Unit
  | some fd => close fd
  | none => pure ()

/-- The `finally` of `main`. -/
def cleanup (parent : Nat) : Sys Unit := do
  closeOpen (← Program.locals).fileFd
  closeOpen (← Program.locals).quarantineFd
  match (← Program.locals).quarantineName with
  | some quarantineName => do
    let _ ← attempt (rmdir (parent, quarantineName))
    close parent
  | none => close parent

/-- `main`, once the parent directory is open: the target is `target.2` in the directory `target.1`,
and `names` are the ten names that the quarantine may get. -/
def main (uid gid : Nat) (names : List PyStr) (target : Key PyStr) : Sys Unit :=
  Program.ensuring (do
    match ← attempt (body p uid gid names target) with
    | .ok () => pure ()
    | .error _ => failJson p "atomic unlink failed") (cleanup target.1)

end

end Unlink

end Supplementary.Atomic
