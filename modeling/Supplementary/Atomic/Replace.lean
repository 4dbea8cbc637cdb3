/-
# Writers that replace a file

`write_owned_regular_file` and `write_evidence_text` write a new file under a random name next to
the target and give it the target's name by one rename.  `write_materialized_workspace` writes two
files in this way into a directory that it makes, and removes the directory if one of them fails.

Every system call may fail.  The notes that a failed cleanup adds to an exception and the texts of
exceptions inside a message are left out.
-/
import Supplementary.Atomic.PathSteps
import Supplementary.Python.Value

namespace Supplementary.Atomic.Replace

open Machine Posix

/-! ## 1. Arguments, variables and exceptions -/

/-- The exceptions: an `OSError`, a `MaterializationError`, another `RuntimeError`, and the
`ValueError` of text that cannot be encoded. -/
inductive Failure
  | os (e : Errno)
  | materialization (message : String)
  | runtime (message : String)
  | value
  deriving DecidableEq

/-- The variables of a call that its cleanup reads. -/
structure Flags where
  descriptor : Option Nat := none
  replaced : Bool := false
  identity : Option Nat := none

abbrev Sys (α : Type) := Program (World PyStr) (Call PyStr Unit) Fault Flags Failure α

/-- What this process may do, and the random part of the next temporary name. -/
structure Process where
  euid : Nat
  egid : Nat
  /-- Whether the platform has `O_NOFOLLOW`. -/
  noFollow : Bool
  token : PyStr

/-- The arguments of `write_owned_regular_file`.  The path is given by the entry of the directory
where it starts, the parts of its parent and its name. -/
structure Params extends Process where
  start : Key PyStr
  components : List PyStr
  file : PyStr
  payload : List UInt8
  name : String
  maximum : Int
  singleRuntime : Bool

def maxBoundedReviewBytes : Int := 64 * (200000 - 1)

def maxProtectedAssetBytes : Int := 1000000

/-- An exception of a system call. -/
def Failure.ofRaised : Raised → Failure
  | .os e => .os e
  | .exit => .value

/-- `except OSError`. -/
def Failure.errno? : Failure → Option Errno
  | .os e => some e
  | _ => none

section

variable {α : Type}

/-- A system call. -/
def sys (x : Posix.Sys PyStr Unit Flags α) : Sys α := Program.mapError Failure.ofRaised x

def raise (e : Failure) : Sys α := Program.raise e

/-- `fail(message)`. -/
def fail (message : String) : Sys α := raise (.materialization message)

/-- Fails unless a check holds. -/
def require (holds : Bool) (message : String) : Sys Unit :=
  if holds then pure () else fail message

/-- `try: x except OSError`. -/
def attempt (x : Sys α) : Sys (Except Errno α) := Program.attempt Failure.errno? x

/-- `try: x except BaseException`. -/
def attemptAny (x : Sys α) : Sys (Except Failure α) := Program.attempt some x

/-- `close_descriptor_after_error(descriptor, label)`: whether there was no error. -/
def closeDescriptorAfterError (i : Nat) : Sys Bool := do
  match ← attempt (sys (close i)) with
  | .ok () => pure true
  | .error _ => pure false

/-- `try: x finally: last`, where a failure of the cleanup is only reported if nothing else was
raised. -/
def closing (x : Sys Unit) (last : Sys Bool) (message : String) : Sys Unit := do
  let r ← attemptAny x
  let clean ← last
  match r with
  | .error e => raise e
  | .ok () => require clean message

/-- The number of entries of an inode. -/
def World.links (w : World PyStr) (i : Nat) : Nat := (w.entries.filter fun e => e.2 = i).length

/-- `os.fstat(fd)` with the number of links. -/
def fstatLinks (i : Nat) : Sys (Stat × Nat) := sys <|
  syscall (.fstat i) fun w => match w.inode i with
    | some n => .ok ((⟨i, n⟩, World.links w i), w)
    | none => .error (.other 9)

/-- Writable by the group or by others. -/
def isSharedWritable (mode : Nat) : Bool := mode.testBit 4 || mode.testBit 1

/-- Writes until everything is written; a write of nothing raises `e`. -/
def writeAll (e : Failure) (descriptor : Nat) : List UInt8 → Sys Unit
  | [] => pure ()
  | byte :: rest => do
    let written ← sys (write descriptor (byte :: rest))
    if _h : written = 0 then raise e else writeAll e descriptor ((byte :: rest).drop written)
termination_by view => view.length
decreasing_by
  simp only [List.length_drop, List.length_cons]
  omega

/-! ## 2. The parent directory -/

/-- `fail_after_descriptor_cleanup(message, descriptor, label)`. -/
def failAfterDescriptorCleanup (message : String) (i : Nat) : Sys α := do
  let _ ← closeDescriptorAfterError i
  fail message

/-- One component of the way to the parent directory. -/
def openNext (name : String) (directory : Nat) (component : PyStr) : Sys Nat := do
  if component = "" ∨ component = "." then pure directory
  else if component = ".." then
    failAfterDescriptorCleanup s!"Protected {name} parent traversal is forbidden." directory
  else match ← attempt (sys (openDirectory (directory, component))) with
    | .error _ =>
      failAfterDescriptorCleanup s!"Protected {name} parent cannot be opened safely" directory
    | .ok following => do
      if ← closeDescriptorAfterError directory then pure following
      else
        failAfterDescriptorCleanup s!"Protected {name} parent cannot be opened safely" following

/-- The way from an open directory. -/
def walk (name : String) (directory : Nat) : List PyStr → Sys Nat
  | [] => pure directory
  | component :: rest => do
    let following ← openNext name directory component
    walk name following rest

/-- The parent directory has to be the user's own. -/
def checkParent (p : Params) (directory : Nat) : Sys Unit := do
  match ← attempt (sys (fstat directory)) with
  | .error _ =>
    failAfterDescriptorCleanup s!"Protected {p.name} parent cannot be inspected safely" directory
  | .ok details =>
    if details.info.kind ≠ .directory then
      failAfterDescriptorCleanup s!"Protected {p.name} parent must be a directory." directory
    else if details.info.uid ≠ p.euid then
      failAfterDescriptorCleanup
        s!"Protected {p.name} parent must be owned by the current user." directory
    else if isSharedWritable details.info.mode then
      failAfterDescriptorCleanup
        s!"Protected {p.name} parent must not be group- or world-writable." directory
    else pure ()

/-- `open_owned_parent_directory(path, name, requirement)`. -/
def openOwnedParentDirectory (p : Params) (requirement : String) : Sys Nat := do
  require p.noFollow s!"{requirement} requires O_NOFOLLOW support."
  require (p.file ≠ "" && p.file ≠ "." && p.file ≠ "..") s!"Protected {p.name} path is invalid."
  match ← attempt (sys (openDirectory p.start)) with
  | .error _ => fail s!"Protected {p.name} parent cannot be opened safely"
  | .ok first => do
    let directory ← walk p.name first p.components
    checkParent p directory
    pure directory

/-! ## 3. `write_owned_regular_file` -/

section

variable (p : Params) (directory : Nat)

/-- `.mlx90-protected-….tmp`. -/
def temporaryName (token : PyStr) : PyStr := ".mlx90-protected-" ++ token ++ ".tmp"

/-- The target and the temporary file. -/
def Params.target : Key PyStr := (directory, p.file)

def Params.temporary : Key PyStr := (directory, temporaryName p.token)

/-- What is there may only be the user's own file. -/
def inspectExisting (existing : Nat) : Sys Unit := do
  let (details, links) ← fstatLinks existing
  require (details.info.kind = .regular && links = 1)
    s!"Protected {p.name} must be one regular file with link count 1 (no hardlinks)."
  require (details.info.uid = p.euid) s!"Protected {p.name} must be owned by the current user."
  require (!isSharedWritable details.info.mode)
    s!"Protected {p.name} must not be group- or world-writable."

/-- The look at what is there. -/
def checkExisting : Sys Unit := do
  match ← attempt (sys (openAt (p.target directory))) with
  | .error .noent => pure ()
  | .error _ => fail s!"Protected {p.name} cannot be opened safely"
  | .ok existing =>
    closing (inspectExisting p existing) (closeDescriptorAfterError existing)
      s!"Protected {p.name} existing descriptor could not be closed safely."

/-- The payload is written under the temporary name and read back. -/
def stageOwned : Sys Unit := do
  let descriptor ← sys (createFile (p.temporary directory) 0o600 p.euid p.egid)
  Program.assign fun v => { v with descriptor := some descriptor }
  let (created, links) ← fstatLinks descriptor
  require (created.info.kind = .regular && links = 1)
    s!"Protected {p.name} temporary file is not a single regular file."
  require (created.info.uid = p.euid)
    s!"Protected {p.name} temporary file has an unexpected owner."
  sys (fchmod descriptor 0o600)
  writeAll (.materialization s!"Protected {p.name} was not written completely.") descriptor p.payload
  sys (fsync descriptor)
  let (written, links) ← fstatLinks descriptor
  require (written.info.kind = .regular && links = 1 && written.info.uid = p.euid &&
      written.info.bytes.length = p.payload.length)
    s!"Protected {p.name} temporary file changed while writing."
  sys (seek descriptor)
  let bytes ← sys (readAll descriptor (p.payload.length + 1))
  require (bytes.take (p.payload.length + 1) = p.payload)
    s!"Protected {p.name} temporary content changed while writing."
  Program.assign fun v => { v with descriptor := none }
  require (← closeDescriptorAfterError descriptor)
    s!"Protected {p.name} temporary descriptor could not be closed safely."

/-- The `try` block. -/
def replaceOwned : Sys Unit := do
  checkExisting p directory
  stageOwned p directory
  sys (rename (p.temporary directory) (p.target directory))
  Program.assign fun v => { v with replaced := true }
  -- No failure of the probe after the commit point is reported.
  let _ ← attempt (sys (fsync directory))
  pure ()

/-- What `except OSError` makes of the `try` block. -/
def atomically (x : Sys Unit) : Sys Unit := Program.mapError (fun e => match e with
  | .os _ => .materialization s!"Protected {p.name} cannot be written atomically"
  | e => e) x

/-- The descriptor that is still open is closed. -/
def closeTemporary : Sys Bool := do
  match (← Program.locals).descriptor with
  | none => pure true
  | some descriptor => do
    Program.assign fun v => { v with descriptor := none }
    closeDescriptorAfterError descriptor

/-- `os.unlink(temporary_name, dir_fd=directory)`, whatever has that name. -/
def unlinkTemporary : Sys Bool := do
  if (← Program.locals).replaced then pure true
  else match ← attempt (sys (unlink (p.temporary directory))) with
    | .ok () => pure true
    | .error .noent => pure true
    | .error _ => pure false

/-- The `finally` block: whether there was no error. -/
def cleanUp : Sys Bool := do
  let closed ← closeTemporary
  let unlinked ← unlinkTemporary p directory
  let closedDirectory ← closeDescriptorAfterError directory
  pure (closed && unlinked && closedDirectory)

/-- `write_owned_regular_file(path, payload, name, maximum=…, single_runtime=…)`; a call has its own
variables. -/
def writeOwnedRegularFile : Sys Unit := do
  Program.assign fun _ => {}
  require (1 ≤ p.maximum && p.maximum ≤ if p.singleRuntime then 2 ^ 63 - 1 else maxBoundedReviewBytes)
    "Invalid protected file write boundary."
  require (0 < p.payload.length && p.payload.length ≤ p.maximum)
    s!"Protected {p.name} must contain 1..{p.maximum} bytes."
  let directory ← openOwnedParentDirectory p "Protected file writing"
  closing (atomically p (replaceOwned p directory)) (cleanUp p directory)
    s!"Protected {p.name} cleanup failed closed."

end

/-! ## 4. `write_evidence_text` -/

/-- The arguments of `write_evidence_text`, with the path that `evidence_path()` gives: the entry of
its parent directory and its name. -/
structure Evidence extends Process where
  parent : Key PyStr
  file : PyStr
  text : PyStr

section

variable (p : Evidence) (directory : Nat)

def Evidence.target : Key PyStr := (directory, p.file)

/-- `.NAME.….tmp`. -/
def Evidence.temporary : Key PyStr := (directory, "." ++ p.file ++ "." ++ p.token ++ ".tmp")

/-- What is there may only be the user's own file. -/
def checkEvidence : Sys Unit := do
  match ← attempt (sys (stat (p.target directory))) with
  | .error .noent => pure ()
  | .error e => raise (.os e)
  | .ok existing =>
    if existing.info.kind ≠ .regular ∨ existing.info.uid ≠ p.euid then
      raise (.runtime "evidence target is unsafe")
    else pure ()

/-- `value.encode("utf-8")`. -/
def encodeEvidence : Sys (List UInt8) :=
  match p.text.utf8Encode with
  | none => raise .value
  | some payload => pure payload

/-- The `try` block. -/
def replaceEvidence : Sys Unit := do
  checkEvidence p directory
  let descriptor ← sys (createFile (p.temporary directory) 0o600 p.euid p.egid)
  Program.assign fun v => { v with descriptor := some descriptor }
  let created ← sys (fstat descriptor)
  Program.assign fun v => { v with identity := some created.ino }
  let payload ← encodeEvidence p
  writeAll (.runtime "evidence write stalled") descriptor payload
  sys (fsync descriptor)
  sys (rename (p.temporary directory) (p.target directory))
  Program.assign fun v => { v with replaced := true }
  sys (fsync directory)

/-- What `except OSError` makes of the `try` block. -/
def evidently (x : Sys Unit) : Sys Unit := Program.mapError (fun e => match e with
  | .os _ => .runtime "evidence write failed"
  | e => e) x

/-- The temporary file is removed if it is the one that was made. -/
def unlinkEvidence (identity : Nat) : Sys Unit := do
  match ← attempt (do
      let current ← sys (stat (p.temporary directory))
      if current.info.kind = .regular ∧ current.ino = identity then
        sys (unlink (p.temporary directory))
      else pure ()) with
  | .ok () => pure ()
  | .error .noent => pure ()
  | .error e => raise (.os e)

/-- The descriptor is closed if it was opened. -/
def closeEvidence (v : Flags) : Sys Unit :=
  match v.descriptor with
  | none => pure ()
  | some descriptor => sys (close descriptor)

/-- The temporary file is removed if it is still there. -/
def removeEvidence (v : Flags) : Sys Unit :=
  match v.identity with
  | none => pure ()
  | some identity => if v.replaced then pure () else unlinkEvidence p directory identity

/-- The `finally` block, which an exception of its own ends. -/
def cleanUpEvidence : Sys Unit := do
  let v ← Program.locals
  closeEvidence v
  removeEvidence p directory v
  sys (close directory)

/-- `write_evidence_text(value)`. -/
def writeEvidenceText : Sys Unit := do
  Program.assign fun _ => {}
  let directory ← sys (openDirectory p.parent)
  Program.ensuring (evidently (replaceEvidence p directory)) (cleanUpEvidence p directory)

end

/-! ## 5. `write_materialized_workspace` -/

/-- The arguments of `write_materialized_workspace`.  The parts of the output directory's parent are
`components`; the directory itself is the entry `output`, with all links on the way followed. -/
structure Workspace extends Process where
  start : Key PyStr
  components : List PyStr
  output : Key PyStr
  diff : List UInt8
  /-- What `json.dumps(metadata, indent=2, sort_keys=True)` makes of the metadata, with a newline
  and encoded, unless it raises. -/
  metadata : Option (List UInt8)
  maximum : Int
  singleRuntime : Bool
  /-- The random part of the second temporary name. -/
  nextToken : PyStr

section

variable (p : Workspace)

/-- The two files. -/
def Workspace.patch : Params :=
  { p.toProcess with
    start := p.start, components := p.components ++ [p.output.2], file := "change.patch"
    payload := p.diff, name := "review diff", maximum := p.maximum
    singleRuntime := p.singleRuntime }

def Workspace.review (payload : List UInt8) : Params :=
  { p.toProcess with
    token := p.nextToken
    start := p.start, components := p.components ++ [p.output.2], file := "review-metadata.json"
    payload, name := "review metadata", maximum := maxProtectedAssetBytes, singleRuntime := false }

/-- The errors that `exists()` takes for an absence. -/
def isAbsence (e : Errno) : Bool := e = .noent || e = .notdir || e = .other 9 || e = .other 40

/-- `output_directory.exists()`; the root and the working directory have no name and are there. -/
def outputExists : Sys Bool := do
  if p.output.2 = "" ∨ p.output.2 = "." then pure true
  else match ← attempt (sys (stat p.output)) with
    | .ok _ => pure true
    | .error e => if isAbsence e then pure false else raise (.os e)

/-- A file of the output directory is removed by its path. -/
def unlinkBelow (file : PyStr) : Posix.Sys PyStr Unit Flags Unit :=
  syscall (.unlink (p.output.1, joinPath p.output.2 file)) fun w => (w.find p.output).bind fun st =>
    (w.find (st.ino, file)).bind fun found =>
      if found.info.kind = .directory then .error .isdir
      else .ok ((), (w.remove (st.ino, file)).touch found.ino)

/-- `path.unlink(missing_ok=True)`, and its exception is noted only. -/
def unlinkPartial (file : PyStr) : Sys Unit := do
  let _ ← attempt (sys (unlinkBelow p file))
  pure ()

/-- The `try` block. -/
def writeBoth : Sys Unit := do
  writeOwnedRegularFile p.patch
  match p.metadata with
  | none => raise .value
  | some payload => writeOwnedRegularFile (p.review payload)

/-- The `except` block. -/
def removePartial : Sys Unit := do
  unlinkPartial p "review-metadata.json"
  unlinkPartial p "change.patch"
  let _ ← attempt (sys (rmdir p.output))
  pure ()

/-- `write_materialized_workspace(output_directory, diff, metadata, …)`. -/
def writeMaterializedWorkspace : Sys Unit := do
  require (!(← outputExists p)) "Review workspace already exists"
  match ← attempt (sys (mkdir p.output 0o700 p.euid p.egid)) with
  | .error _ => fail "Unable to create the exact-revision review workspace"
  | .ok () => do
    match ← attemptAny (writeBoth p) with
    | .ok () => pure ()
    | .error e => do
      removePartial p
      raise e

end

end

end Supplementary.Atomic.Replace
