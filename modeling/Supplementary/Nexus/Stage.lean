/-
# Staging a candidate

`stage` of the Nexus publication: the candidate and the URL of the repository are checked, the artifact is
read back, sent if it was not there, and read back again; what was read back has to be the candidate.
Every request and every operation on a file may raise.  The candidate does not change meanwhile, so its
size, its digest and its bytes are those of one content.
-/
import Supplementary.Caller.Inputs
import Supplementary.Caller.Endpoint
import Supplementary.Evidence.Verdict
import Supplementary.Python.Sha256
import Supplementary.Lib.Tracks

namespace Supplementary.Nexus

open Supplementary PyStr Effects

/-! ## 1. What is raised -/

inductive Raised
  /-- `StageError`. -/
  | stage (message : PyStr)
  /-- `urllib.error.HTTPError`, with its code. -/
  | http (code : Int)
  /-- `OSError`, also as `URLError`. -/
  | os
  | other
  deriving DecidableEq

abbrev Checked (α : Type) : Type := Except Raised α

/-- `raise StageError(message)` unless a condition holds. -/
def demand (condition : Prop) [Decidable condition] (message : PyStr) : Checked Unit :=
  if condition then .ok () else .error (.stage message)

/-! ## 2. Names and URLs -/

def maxCandidateBytes : Nat := 256 * 1024 * 1024

/-- `[a-z0-9]`. -/
def isLowerAlnum (c : Nat) : Bool := isLower c || PyStr.isDigit c

/-- `REPOSITORY_RE.fullmatch(repository)`. -/
def isRepository (s : PyStr) : Bool :=
  match s.codePoints with
  | [] => false
  | c :: rest => isLowerAlnum c && rest.length ≤ 126 &&
      rest.all fun c => isLowerAlnum c || c = 46 || c = 95 || c = 45

/-- `(?:0|[1-9][0-9]*)`. -/
def isNumber (s : List Nat) : Bool :=
  match s with
  | [] => false
  | [48] => true
  | c :: rest => 49 ≤ c && c ≤ 57 && rest.all PyStr.isDigit

/-- `[0-9A-Za-z-]+`. -/
def isIdentifier (s : List Nat) : Bool :=
  s ≠ [] && s.all fun c => PyStr.isDigit c || isUpper c || isLower c || c = 45

/-- `[a-z0-9_]+`. -/
def isField (s : List Nat) : Bool := s ≠ [] && s.all fun c => isLowerAlnum c || c = 95

/-- Three numbers, and a prerelease after a dash. -/
def isVersion (s : List Nat) : Bool :=
  let (core, prerelease) := Caller.partitionAt 45 s
  let numbers := core.splitOn 46
  numbers.length = 3 && numbers.all isNumber &&
    match prerelease with
    | none => true
    | some identifiers => (identifiers.splitOn 46).all isIdentifier

def archiveSuffix : List Nat := (".tar.gz" : PyStr).codePoints

/-- `ARTIFACT_RE.fullmatch(name)`: the first two fields have no dash, so they end at the first two. -/
def isArtifact (name : PyStr) : Bool :=
  let s := name.codePoints
  archiveSuffix.isSuffixOf s &&
    match Caller.partitionAt 45 (s.take (s.length - archiveSuffix.length)) with
    | (namespaceField, some rest) =>
      match Caller.partitionAt 45 rest with
      | (nameField, some version) => isField namespaceField && isField nameField && isVersion version
      | (_, none) => false
    | (_, none) => false

/-- What the caller uses of its interpreter: whether `_checknetloc` takes a host. -/
structure Platform extends Caller.Platform where
  isNormalNetloc : List Nat → Bool

/-- `urllib.parse.urlsplit(value)`: what is stripped of a URL, its parts, and the check of the host. -/
def urlsplit (platform : Platform) (value : PyStr) : Checked Caller.SplitResult :=
  let cleaned := (value.codePoints.dropWhile (· ≤ 32)).filter fun c => c ≠ 9 ∧ c ≠ 10 ∧ c ≠ 13
  match Caller.urlsplit platform.toPlatform cleaned with
  | .ok parts => if platform.isNormalNetloc parts.netloc then .ok parts else .error .other
  | .error _ => .error .other

/-- `urllib.parse.unquote(path) != path`: there is an escape, and what is decoded is shorter than it. -/
def isQuoted : List Nat → Bool
  | [] => false
  | c :: rest => Caller.startsEscape (c :: rest) || isQuoted rest

/-- The conditions of a credential-free HTTPS URL. -/
def isPlainHttps (parts : Caller.SplitResult) : Bool :=
  parts.scheme = ("https" : PyStr).codePoints && parts.hostname ≠ [] && !parts.hasUserinfo &&
    parts.query = [] && parts.fragment = [] && !isQuoted parts.path &&
    !(⟨parts.path⟩ : PyStr).contains "//" && !(92 ∈ parts.path) &&
    (parts.path.splitOn 47).all fun part => part ≠ [46] && part ≠ [46, 46]

/-- `path.rstrip("/")`. -/
def trimmed (path : List Nat) : List Nat := (path.reverse.dropWhile (· = 47)).reverse

/-- `repository_url(value, repository)`. -/
def repositoryUrl (platform : Platform) (value repository : PyStr) : Checked PyStr := do
  demand (isRepository repository = true) "Nexus repository name is invalid"
  demand (value.codePoints = Evidence.stripBy isSpace value.codePoints)
    "Nexus repository URL must be canonical"
  let parts ← urlsplit platform value
  demand (isPlainHttps parts = true) "Nexus repository URL must be credential-free HTTPS"
  let path : PyStr := ⟨trimmed parts.path⟩
  demand (path.endsWith ("/repository/" ++ repository) = true)
    "Nexus repository URL does not match the configured repository"
  return "https://" ++ ⟨parts.netloc⟩ ++ path

def artifactSuffix : PyStr := "/api/v3/plugin/ansible/content/published/collections/artifacts/"

/-- `artifact_url(base_url, artifact_name)`: `quote` leaves the characters of such a name. -/
def artifactUrl (baseUrl artifactName : PyStr) : Checked PyStr := do
  demand (isArtifact artifactName = true) "artifact name is invalid"
  return baseUrl ++ artifactSuffix ++ artifactName

/-- The file of the candidate: whether it is a regular one under no symbolic link, its name, its bytes. -/
structure Candidate where
  isRegular : Bool
  name : PyStr
  content : Bytes

/-- `require_candidate(path)`. -/
def requireCandidate (candidate : Candidate) : Checked (Nat × PyStr) := do
  demand (candidate.isRegular = true) "candidate must be a regular non-symlink file"
  demand (isArtifact candidate.name = true) "candidate name is not a canonical collection artifact"
  let size := candidate.content.length
  demand (0 < size ∧ size ≤ maxCandidateBytes) "candidate size is outside the bounded publication contract"
  return (size, Sha256.hexdigest candidate.content)

/-! ## 3. The environment -/

inductive Method
  | get
  | put (data : Bytes)
  deriving DecidableEq

structure Request where
  method : Method
  url : PyStr
  authorization : PyStr
  deriving DecidableEq

/-- What `stage` asks its environment; the file is the one that is read back. -/
inductive StageOp
  /-- `output.exists() or output.is_symlink() or has_symlink_component(output.parent)`. -/
  | outputTaken
  /-- `output.parent.mkdir(parents=True, exist_ok=True)`. -/
  | mkdir
  /-- `readback.exists() or readback.is_symlink()`. -/
  | fileTaken
  /-- `self._opener.open(request, timeout=...)`. -/
  | request (request : Request)
  /-- `response.getcode()`. -/
  | getcode
  /-- `response.read(1024 * 1024)`. -/
  | read
  /-- `exc.read(MAX_ERROR_BYTES)`. -/
  | readError
  /-- `destination.open("wb")`. -/
  | create
  /-- `output.write(chunk)`. -/
  | write (chunk : Bytes)
  /-- `sha256(readback)`. -/
  | digest
  /-- `readback.exists() and not readback.is_symlink()`. -/
  | isFile
  | unlink
  /-- `output.write_text(json.dumps(payload, ...) + "\n", ...)`. -/
  | writeOutput (payload : Value)

abbrev StageOp.Result : StageOp → Type
  | .outputTaken | .fileTaken | .isFile => Bool
  | .getcode => Int
  | .read => Bytes
  | .digest => PyStr
  | _ => Unit

abbrev StageAns : StageOp → Type := Fallible Raised StageOp.Result

abbrev StageAct (α : Type) : Type := Act StageAns Unit Raised α

def ask (op : StageOp) : StageAct op.Result := Act.call op

/-! ## 4. `NexusClient` -/

/-- `NexusClient(username, password)`: the value of its header. -/
def authorization (username password : PyStr) : Checked PyStr := do
  demand (username.codePoints ≠ [] ∧ username.codePoints = Evidence.stripBy isSpace username.codePoints ∧
    58 ∉ username.codePoints) "Nexus username is missing or invalid"
  demand (password.codePoints ≠ []) "Nexus password is missing"
  match (username ++ ":" ++ password).utf8Encode with
  | some octets => return "Basic " ++ ⟨Caller.b64encode octets⟩
  | none => .error .other

/-- `_open(request)`. -/
def openRequest (request : Request) : StageAct Unit :=
  (ask (.request request)).catching fun e =>
    if e = .os then Act.raise (.stage "Nexus request failed") else Act.raise e

/-- The reads of a response; `size` octets were written already. -/
def receive (size : Nat) : StageAct Nat := do
  let chunk ← ask .read
  if _h : chunk = [] then return size
  else if maxCandidateBytes < size + chunk.length then
    Act.raise (.stage "Nexus readback exceeds the bounded candidate size")
  else do
    ask (.write chunk)
    receive (size + chunk.length)
termination_by maxCandidateBytes - size
decreasing_by
  have hlength := List.length_pos_iff.mpr _h
  omega

/-- `readback(url, destination)`. -/
def readback (url header : PyStr) : StageAct (Option Nat) := do
  match ← Act.attempt (openRequest ⟨.get, url, header⟩) with
  | .error (.http code) =>
    if code = 404 then return none
    else do
      ask .readError
      Act.raise (.stage ("unexpected Nexus readback status: " ++ ofInt code))
  | .error e => Act.raise e
  | .ok () => do
    ask .create
    let status ← ask .getcode
    if status = 200 then do
      let size ← receive 0
      return some size
    else Act.raise (.stage ("unexpected Nexus readback status: " ++ ofInt status))

/-- `upload(url, candidate)`. -/
def upload (url header : PyStr) (content : Bytes) : StageAct Unit := do
  match ← Act.attempt (openRequest ⟨.put content, url, header⟩) with
  | .error (.http code) => do
    ask .readError
    Act.raise (.stage ("unexpected Nexus upload status: " ++ ofInt code))
  | .error e => Act.raise e
  | .ok () => do
    let status ← ask .getcode
    if status = 200 ∨ status = 201 ∨ status = 202 ∨ status = 204 then return ()
    else Act.raise (.stage ("unexpected Nexus upload status: " ++ ofInt status))

/-! ## 5. `stage` -/

/-- What `stage` has found of its arguments. -/
structure Staging where
  candidate : Candidate
  size : Nat
  digest : PyStr
  repository : PyStr
  url : PyStr
  remote : PyStr
  header : PyStr

/-- The checks before anything is asked. -/
def prepare (platform : Platform) (candidate : Candidate) (baseUrl repository username password : PyStr) :
    Checked Staging := do
  let (size, digest) ← requireCandidate candidate
  let url ← repositoryUrl platform baseUrl repository
  let remote ← artifactUrl url candidate.name
  let header ← authorization username password
  return ⟨candidate, size, digest, repository, url, remote, header⟩

/-- The checks of what was found. -/
def confirm (s : Staging) : Option Nat → StageAct Unit
  | none => Act.raise (.stage "Nexus artifact is absent after upload")
  | some size =>
    if size ≠ s.size then Act.raise (.stage "Nexus readback bytes differ from the exact local candidate")
    else do
      let digest ← ask .digest
      if digest = s.digest then return ()
      else Act.raise (.stage "Nexus readback bytes differ from the exact local candidate")

/-- The artifact is read back, and sent first if it was not there; whether it was sent. -/
def transfer (s : Staging) : StageAct Bool := do
  let found ← readback s.remote s.header
  if found = none then do
    upload s.remote s.header s.candidate.content
    let found ← readback s.remote s.header
    confirm s found
    return true
  else do
    confirm s found
    return false

/-- The end of `try: ... finally: ...`. -/
def cleanup : StageAct Unit := do
  if ← ask .isFile then ask .unlink

/-- The payload. -/
def payload (s : Staging) (uploaded : Bool) : Value :=
  .dict [("apiVersion", .str "lit.mlx90.nexus-stage/v1"), ("kind", .str "NexusGalaxyV3Stage"),
    ("repository", .dict [("format", .str "ansiblegalaxy"), ("name", .str s.repository),
      ("type", .str "hosted"), ("url", .str s.url)]),
    ("artifact", .dict [("name", .str s.candidate.name), ("sha256", .str ("sha256:" ++ s.digest)),
      ("size", .int s.size), ("url", .str s.remote)]),
    ("readback", .dict [("sha256", .str ("sha256:" ++ s.digest)), ("size", .int s.size),
      ("verified", .bool true)]),
    ("uploaded", .bool uploaded)]

/-- `stage(candidate, base_url, repository, username, password, output)`. -/
def stage (platform : Platform) (candidate : Candidate) (baseUrl repository username password : PyStr) :
    StageAct Value := do
  let s ← prepare platform candidate baseUrl repository username password
  if ← ask .outputTaken then
    Act.raise (.stage "Nexus staging output must start absent below a non-symlink parent")
  else do
    ask .mkdir
    if ← ask .fileTaken then Act.raise (.stage "Nexus readback destination already exists")
    else do
      let uploaded ← (transfer s).ensuring cleanup
      ask (.writeOutput (payload s uploaded))
      return payload s uploaded

end Supplementary.Nexus
