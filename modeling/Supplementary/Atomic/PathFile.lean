/-
# Replacing one file

`state=file` writes the new content into the private workspace, publishes it there under the target's
name with one conditional rename, and verifies what it published.  A file that was there before is
exchanged with the new one and is removed from the workspace at the end.

The texts of exceptions inside a message are left out.
-/
import Supplementary.Atomic.Path

namespace Supplementary.Atomic.Path

open Machine Posix

section

variable (p : Params)

/-! ## 1. What is there before -/

/-- An existing file is read through a descriptor before it may be replaced. -/
def bindExisting (target : Key PyStr) (before : Stat) (expected : PyStr) : Sys Stat := do
  let bound ← openForReading p target
  Program.ensuring (do
    let opened ← sys (fstat bound)
    require p (opened.sameSnapshot before) "file boundary changed while opening"
    let found ← checksum bound
    require p (found = expected) "file boundary checksum changed"
    let finalBound ← sys (fstat bound)
    require p (opened.sameSnapshot finalBound) "file boundary changed while checksumming"
    pure finalBound) (sys (close bound))

/-- The file that is replaced with its checksum, if there is one. -/
def bindBefore (target : Key PyStr) : Option Stat → Sys (Option (Stat × PyStr))
  | none => do
    require p p.allowAbsent "file boundary is absent"
    pure none
  | some before => do
    require p (before.info.kind = .regular && isMatch p before)
      "file boundary has unexpected type or metadata"
    match p.expectedChecksum with
    | none => failJson p "expected_checksum is required for an existing file"
    | some expected => do
      let bound ← bindExisting p target before expected
      pure (some (bound, expected))

/-- `content.encode("utf-8")`. -/
def encodeContent : Sys (List UInt8) :=
  match p.content with
  | none => failJson p "content is required for file state"
  | some content => match content.utf8Encode with
    | none => raise .value
    | some payload => pure payload

/-- A checksum has to be a digest if it is given. -/
def checkExpected : Sys Unit :=
  match p.expectedChecksum with
  | none => pure ()
  | some text => require p (isDigest text) "expected_checksum must be one lowercase SHA-256 digest"

/-- Everything before the decision: the new content, and what it replaces. -/
def prepareFile (target : Key PyStr) : Sys (List UInt8 × Option (Stat × PyStr)) := do
  requireExclusiveParent p target.1
  let payload ← encodeContent p
  let found ← existing target
  checkExpected p
  let before ← bindBefore p target found
  pure (payload, before)

/-- Both are there and equal. -/
def isSnapshot : Option Stat → Option Stat → Bool
  | some s, some t => s.sameSnapshot t
  | _, _ => false

/-- Nothing has to be done. -/
def keepFile (target : Key PyStr) (before : Stat) (desired : PyStr) : Sys Unit := do
  let current ← revalidatedEntry p target
  require p (isSnapshot current (some before)) "file boundary changed before no-op completion"
  exitJson p false (some desired)

/-! ## 2. The transaction -/

/-- The private name of the new file, and of the old one after the exchange. -/
def payloadName : PyStr := "payload"

def failedName : PyStr := "failed"

/-- Writes until everything is written. -/
def writeAll (descriptor : Nat) : List UInt8 → Sys Unit
  | [] => pure ()
  | byte :: rest => do
    let written ← sys (write descriptor (byte :: rest))
    if _h : written = 0 then raiseOs else writeAll descriptor ((byte :: rest).drop written)
termination_by view => view.length
decreasing_by
  simp only [List.length_drop, List.length_cons]
  omega

/-- The new file in the workspace; its descriptor and status. -/
def stageFile (workspace : Nat) (payload : List UInt8) : Sys (Nat × Stat) := do
  let descriptor ← sys (createFile (workspace, payloadName) 0o600 p.euid p.egid)
  Program.assign fun v => { v with descriptor := some descriptor }
  writeAll descriptor payload
  sys (fsync descriptor)
  sys (fchown descriptor p.uid p.gid)
  sys (fchmod descriptor p.mode)
  sys (fsync descriptor)
  let staged ← sys (fstat descriptor)
  Program.assign fun v => { v with staged := some staged }
  demand (isMatch p staged)
  pure (descriptor, staged)

/-- The new file gets the target's name. -/
def publishFile (target : Key PyStr) (workspace : Nat) : Option (Stat × PyStr) → Sys Unit
  | none => do
    sys (renameNoreplace (workspace, payloadName) target)
    Program.assign fun v => { v with installed := true }
  | some (before, expected) => do
    sys (renameExchange (workspace, payloadName) target)
    Program.assign fun v => { v with
      installed := true, preserveWorkspace := true, recoveryName := some payloadName }
    fsyncDirectory workspace
    let displaced ← sys (stat (workspace, payloadName))
    Program.assign fun v => { v with displaced := some displaced }
    demand (← verifiedFile p (workspace, payloadName) before expected)

/-- Raises an `OSError` unless a check holds; the workspace is preserved for a displaced file. -/
def demandInstalled (holds : Bool) : Sys Unit :=
  if holds then pure ()
  else do
    Program.assign fun v => { v with
      preserveWorkspace := v.displaced.isSome
      recoveryName := if v.displaced.isSome then some payloadName else none }
    raiseOs

/-- The same check through the canonical path. -/
def demandCanonical (holds : Bool) : Sys Unit :=
  if holds then pure ()
  else do
    Program.assign fun v => { v with preserveWorkspace := v.displaced.isSome }
    raiseOs

/-- The target has the new file. -/
def isInstalled (descriptor : Nat) (staged details : Stat) (desired : PyStr) : Sys Bool :=
  if details.sameIdentity staged then verifiedDescriptor descriptor details desired
  else pure false

/-- Looks at the target until it is certain. -/
def verifyInstalled (target : Key PyStr) (descriptor : Nat) (staged : Stat) (desired : PyStr) :
    Sys Unit := do
  let details ← sys (stat target)
  demandInstalled (← isInstalled descriptor staged details desired)
  fsyncDirectory target.1
  let final ← existing target
  Program.assign fun v => { v with final }
  demandInstalled (isSnapshot final (some details))
  let canonical ← revalidatedEntry p target
  demandCanonical (isSnapshot canonical final)

/-- The displaced file is removed. -/
def discardDisplaced (workspace : Nat) : Sys Unit := do
  let v ← Program.locals
  match v.displaced with
  | none => pure ()
  | some displaced => do
    if ← removePrivateIfSame (workspace, payloadName) displaced false then pure ()
    else do
      Program.assign fun v => { v with
        preserveWorkspace := true, recoveryName := some payloadName }
      raiseOs

/-- The `try` block. -/
def installFile (target : Key PyStr) (workspace : Nat) (payload : List UInt8)
    (before : Option (Stat × PyStr)) : Sys Unit := do
  let (descriptor, staged) ← stageFile p workspace payload
  publishFile p target workspace before
  verifyInstalled p target descriptor staged (Sha256.hexdigest payload)
  discardDisplaced workspace
  Program.assign fun v => { v with preserveWorkspace := false, recoveryName := none }

/-- A new file where none was is taken back. -/
def takeBack (target : Key PyStr) (workspace : Nat) (staged : Stat) (desired : PyStr) :
    Sys Unit := do
  match ← attempt (captureAndRemove p target staged (workspace, failedName) false (some desired)) with
  | .ok true => Program.assign fun v => { v with installed := false }
  | .ok false => Program.assign fun v => { v with
      installed := false, preserveWorkspace := true, recoveryName := some failedName }
  | .error (.preservedRecovery entry) => Program.assign fun v => { v with
      preserveWorkspace := true, recoveryName := some entry }
  | .error e => Program.assign fun v => { v with preserveWorkspace := true, failure := some e }

/-- The `except` block. -/
def rollbackFile (target : Key PyStr) (workspace : Nat) (before : Option (Stat × PyStr))
    (desired : PyStr) (e : Failure) : Sys Unit := do
  Program.assign fun v => { v with failure := some e }
  let v ← Program.locals
  match v.installed, v.staged, before with
  | true, some staged, none => takeBack p target workspace staged desired
  | true, some _, some _ => Program.assign fun v => { v with
      preserveWorkspace := true, recoveryName := some payloadName }
  | _, _, _ => pure ()

/-- The status of a new file that is not installed. -/
def inspectDescriptor (descriptor : Nat) : Sys Unit := do
  let v ← Program.locals
  if v.installed then pure ()
  else match ← attempt (sys (fstat descriptor)) with
    | .ok st => Program.assign fun v => { v with cleanupIdentity := some st }
    | .error e => Program.assign fun v => { v with
        cleanupException := some e, preserveWorkspace := true, recoveryName := some payloadName }

/-- The first part of the `finally` block. -/
def closeDescriptor : Sys Unit := do
  let v ← Program.locals
  match v.descriptor with
  | none => pure ()
  | some descriptor => do
    inspectDescriptor descriptor
    match ← attempt (sys (close descriptor)) with
    | .ok () => pure ()
    | .error e => Program.assign fun v => { v with
        cleanupException := v.cleanupException <|> some e
        preserveWorkspace := true
        recoveryName := if v.installed then v.recoveryName else some payloadName }

/-- A new file that is not installed is removed. -/
def discardStaged (workspace : Nat) : Sys Unit := do
  let v ← Program.locals
  match v.cleanupIdentity with
  | none => pure ()
  | some st =>
    if v.installed = false ∧ v.recoveryName ≠ some failedName then do
      if ← removePrivateIfSame (workspace, payloadName) st false then
        Program.assign fun v => { v with recoveryName := none }
      else Program.assign fun v => { v with
        preserveWorkspace := true, recoveryName := some payloadName }
    else pure ()

/-- `os.close(workspace)`. -/
def closeWorkspaceFd (workspace : Nat) : Sys Unit := do
  match ← attempt (sys (close workspace)) with
  | .ok () => pure ()
  | .error e => Program.assign fun v => { v with
      cleanupException := v.cleanupException <|> some e, preserveWorkspace := true }

/-- The workspace is removed if there is nothing to preserve. -/
def discardWorkspace (parent : Nat) (name : PyStr) (identity : Stat) : Sys Unit := do
  let v ← Program.locals
  if v.preserveWorkspace then pure ()
  else do
    let removed ← removePrivateIfSame (parent, name) identity true
    Program.assign fun v => { v with cleanupFailed := !removed }

/-- The last part of the `finally` block, which both transactions have. -/
def closeWorkspace (parent workspace : Nat) (name : PyStr) (identity : Stat) : Sys Unit := do
  closeWorkspaceFd workspace
  Program.assign fun v => { v with failure := v.failure <|> v.cleanupException }
  discardWorkspace parent name identity

/-- `except Exception` around the last look at the target. -/
def attemptAny {α : Type} (x : Sys α) : Sys (Except Failure α) :=
  Program.attempt Failure.isException? x

/-- The last look at a file that is installed. -/
def confirmFile (target : Key PyStr) : Sys Unit := do
  let v ← Program.locals
  if v.failure.isSome || v.cleanupFailed then pure ()
  else match ← attemptAny (do
      let canonical ← revalidatedEntry p target
      demand (isSnapshot canonical v.final)) with
    | .ok () => pure ()
    | .error e => Program.assign fun v => { v with
        failure := some e, committedRecoveryPath := some (joinPath p.descriptorPath target.2) }

/-- What a preserved workspace is reported as. -/
def recoveryPath (name : PyStr) : Option PyStr → PyStr
  | none => workspacePath p name
  | some entry => joinPath (workspacePath p name) entry

/-- The messages that differ between a file and a directory. -/
structure Messages where
  afterCommit : String
  preserved : String
  cleanup : String

def fileMessages : Messages where
  afterCommit := "atomic path mutation failed after commit"
  preserved := "atomic path mutation failed; recovery workspace preserved"
  cleanup := "file mutation completed but private workspace cleanup failed"

/-- The result, which both transactions choose in the same way. -/
def report (m : Messages) (name : PyStr) (checksum : Option PyStr) : Sys Unit := do
  let v ← Program.locals
  match v.failure with
  | none =>
    if v.cleanupFailed then failJson p m.cleanup (some (workspacePath p name))
    else exitJson p true checksum
  | some e => match v.committedRecoveryPath with
    | some path => failJson p m.afterCommit (some path)
    | none =>
      if v.preserveWorkspace || v.cleanupFailed then
        failJson p m.preserved (some (recoveryPath p name v.recoveryName))
      else raise e

/-- The `try` block with its handler. -/
def tryFile (target : Key PyStr) (payload : List UInt8) (before : Option (Stat × PyStr))
    (workspace : Nat) : Sys Unit := do
  match ← attemptAny (installFile p target workspace payload before) with
  | .ok () => pure ()
  | .error e => rollbackFile p target workspace before (Sha256.hexdigest payload) e

/-- From the new workspace on. -/
def commitFile (target : Key PyStr) (payload : List UInt8) (before : Option (Stat × PyStr))
    (workspace : Nat) (name : PyStr) (identity : Stat) : Sys Unit := do
  tryFile p target payload before workspace
  closeDescriptor
  discardStaged workspace
  closeWorkspace target.1 workspace name identity
  confirmFile p target
  report p fileMessages name (some (Sha256.hexdigest payload))

/-- The file that is there is the one that is asked for. -/
def isKept (before : Option (Stat × PyStr)) (desired : PyStr) : Option Stat :=
  match before with
  | none => none
  | some (found, expected) => if expected = desired then some found else none

/-- The decision. -/
def replaceFile (target : Key PyStr) (names : List PyStr) (payload : List UInt8)
    (before : Option (Stat × PyStr)) : Sys Unit :=
  match isKept before (Sha256.hexdigest payload) with
  | some found => keepFile p target found (Sha256.hexdigest payload)
  | none =>
    if p.checkMode then exitJson p true (some (Sha256.hexdigest payload))
    else do
      let (workspace, name, identity) ← privateWorkspace p target.1 names
      commitFile p target payload before workspace name identity

/-- `_write_file(module, parent, name, mode, uid, gid)`, with the names that a workspace can get. -/
def writeFile (target : Key PyStr) (names : List PyStr) : Sys Unit := do
  let (payload, before) ← prepareFile p target
  replaceFile p target names payload before

end

end Supplementary.Atomic.Path
