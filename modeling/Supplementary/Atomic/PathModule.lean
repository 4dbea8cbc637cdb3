/-
# The module `atomic_path`

`state=directory` makes the new directory in the private workspace and publishes it with one
conditional rename; an existing one is only verified.  `main` validates the arguments, walks to the
parent directory and hands over to one of the two transactions.
-/
import Supplementary.Atomic.PathFile

namespace Supplementary.Atomic.Path

open Machine Posix

section

variable (p : Params)

/-! ## 1. Creating one directory -/

/-- Both are there and the same directory. -/
def isDirectoryEntry : Option Stat → Option Stat → Bool
  | some s, some t => sameDirectoryIdentity s t
  | _, _ => false

/-- An existing directory is verified and left alone. -/
def keepDirectory (target : Key PyStr) (before : Stat) : Sys Unit := do
  require p (before.info.kind = .directory && isMatch p before)
    "directory boundary has an unexpected identity or metadata"
  let current ← revalidatedEntry p target
  require p (isDirectoryEntry current (some before))
    "directory boundary changed before no-op completion"
  exitJson p false

/-- The new directory in the workspace. -/
def stageDirectory (workspace : Nat) : Sys Stat := do
  sys (mkdir (workspace, payloadName) 0o700 p.euid p.egid)
  Program.assign fun v => { v with privateEntry := some payloadName }
  let created ← sys (stat (workspace, payloadName))
  Program.assign fun v => { v with staged := some created }
  let directory ← sys (openDirectory (workspace, payloadName))
  Program.assign fun v => { v with descriptor := some directory }
  let opened ← sys (fstat directory)
  demand (sameInode created opened)
  sys (fchown directory p.uid p.gid)
  sys (fchmod directory p.mode)
  sys (fsync directory)
  let staged ← sys (fstat directory)
  Program.assign fun v => { v with staged := some staged }
  demand (isMatch p staged)
  pure staged

/-- Looks at the target until it is certain. -/
def verifyDirectory (target : Key PyStr) (created : Stat) : Sys Unit := do
  let details ← sys (stat target)
  demand (sameDirectoryIdentity created details)
  fsyncDirectory target.1
  let final ← existing target
  demand (isDirectoryEntry final (some created))
  let canonical ← revalidatedEntry p target
  demand (isDirectoryEntry canonical final)

/-- The `try` block. -/
def installDirectory (target : Key PyStr) (workspace : Nat) : Sys Unit := do
  let created ← stageDirectory p workspace
  sys (renameNoreplace (workspace, payloadName) target)
  Program.assign fun v => { v with installed := true, privateEntry := none }
  verifyDirectory p target created

/-- The new directory is taken back. -/
def takeBackDirectory (target : Key PyStr) (workspace : Nat) (created : Stat) : Sys Unit := do
  match ← attempt (captureAndRemove p target created (workspace, failedName) true none) with
  | .ok true => Program.assign fun v => { v with installed := false }
  | .ok false => Program.assign fun v => { v with
      installed := false, preserveWorkspace := true
      privateEntry := some failedName, recoveryName := some failedName }
  | .error (.preservedRecovery entry) => Program.assign fun v => { v with
      installed := false, preserveWorkspace := true
      privateEntry := some entry, recoveryName := some entry }
  | .error e => Program.assign fun v => { v with preserveWorkspace := true, failure := some e }

/-- The `except` block. -/
def rollbackDirectory (target : Key PyStr) (workspace : Nat) (e : Failure) : Sys Unit := do
  Program.assign fun v => { v with failure := some e }
  let v ← Program.locals
  match v.installed, v.staged with
  | true, some created => takeBackDirectory p target workspace created
  | _, _ => pure ()

/-- The first part of the `finally` block. -/
def closeDirectory : Sys Unit := do
  let v ← Program.locals
  match v.descriptor with
  | none => pure ()
  | some directory => do
    match ← attempt (sys (close directory)) with
    | .ok () => pure ()
    | .error e => Program.assign fun v => { v with
        cleanupException := some e
        preserveWorkspace := true
        recoveryName :=
          if v.installed = false ∧ v.privateEntry.isSome then v.privateEntry else v.recoveryName }

/-- A new directory that is not installed is removed. -/
def discardDirectory (workspace : Nat) : Sys Unit := do
  let v ← Program.locals
  match v.staged with
  | none => pure ()
  | some created =>
    if v.cleanupException.isNone ∧ v.installed = false ∧ v.privateEntry = some payloadName then do
      if ← removePrivateIfSame (workspace, payloadName) created true then
        Program.assign fun v => { v with privateEntry := none }
      else Program.assign fun v => { v with
        preserveWorkspace := true, recoveryName := some payloadName }
    else pure ()

/-- The last look at a directory that is installed. -/
def confirmDirectory (target : Key PyStr) : Sys Unit := do
  let v ← Program.locals
  if v.failure.isSome || v.cleanupFailed then pure ()
  else match ← attemptAny (do
      let canonical ← revalidatedEntry p target
      demand (isDirectoryEntry canonical v.staged)) with
    | .ok () => pure ()
    | .error e => Program.assign fun v => { v with
        failure := some e, committedRecoveryPath := some (joinPath p.descriptorPath target.2) }

def directoryMessages : Messages where
  afterCommit := "atomic directory mutation failed after commit"
  preserved := "atomic directory mutation failed; recovery workspace preserved"
  cleanup := "created directory but private workspace cleanup failed"

/-- The `try` block with its handler. -/
def tryDirectory (target : Key PyStr) (workspace : Nat) : Sys Unit := do
  match ← attemptAny (installDirectory p target workspace) with
  | .ok () => pure ()
  | .error e => rollbackDirectory p target workspace e

/-- From the new workspace on. -/
def commitDirectory (target : Key PyStr) (workspace : Nat) (name : PyStr) (identity : Stat) :
    Sys Unit := do
  tryDirectory p target workspace
  closeDirectory
  discardDirectory workspace
  closeWorkspace target.1 workspace name identity
  confirmDirectory p target
  report p directoryMessages name none

/-- `_create_directory(module, parent, name, mode, uid, gid)`. -/
def createDirectory (target : Key PyStr) (names : List PyStr) : Sys Unit := do
  requireExclusiveParent p target.1
  let found ← existing target
  match found with
  | some before => keepDirectory p target before
  | none =>
    if p.checkMode then exitJson p true
    else do
      let (workspace, name, identity) ← privateWorkspace p target.1 names
      commitDirectory p target workspace name identity

end

/-! ## 2. The module -/

inductive Target
  | directory
  | file
  deriving DecidableEq

/-- `[0-7]{3,4}` as a number. -/
def parseMode (text : PyStr) : Option Nat :=
  if (text.length = 3 ∨ text.length = 4) ∧ text.codePoints.all fun c => 48 ≤ c && c ≤ 55 then
    some (text.codePoints.foldl (fun n c => 8 * n + (c - 48)) 0)
  else none

/-- The arguments.  `owner` and `group` are what `_identity` makes of the two names. -/
structure Request where
  state : Target
  name : PyStr
  mode : PyStr
  owner : Option Nat
  group : Option Nat
  params : Params

/-- The arguments of the transaction. -/
def validate (r : Request) : Sys Params :=
  match parseMode r.mode, r.owner, r.group with
  | some mode, some uid, some gid =>
    if r.state = .file ∧ effectiveUserCanRead r.params mode uid gid = false then raise .value
    else pure { r.params with mode, uid, gid }
  | _, _, _ => raise .value

/-- The transaction; `_write_file` is never reached for a directory, because `_create_directory`
does not return. -/
def transact (r : Request) (p : Params) (parent : Nat) (names : List PyStr) : Sys Unit :=
  match r.state with
  | .directory => createDirectory p (parent, r.name) names
  | .file => writeFile p (parent, r.name) names

/-- `os.close(parent)`; what it raises is dropped. -/
def closeParent (parent : Nat) : Sys Unit := do
  let _ ← attempt (sys (close parent))
  pure ()

/-- The `try` block of `main`. -/
def perform (r : Request) (names : List PyStr) : Sys Unit := do
  let p ← validate r
  let parent ← openBoundDirectory p
  Program.ensuring (transact r p parent names) (closeParent parent)

/-- `main()`, after the path was found canonical and the capabilities were found. -/
def main (r : Request) (names : List PyStr) : Sys Unit := do
  match ← attemptAny (perform r names) with
  | .ok () => pure ()
  | .error (.preservedWorkspace path) =>
    failJson r.params "atomic path mutation failed" (some path)
  | .error _ => failJson r.params "atomic path mutation failed"

end Supplementary.Atomic.Path
