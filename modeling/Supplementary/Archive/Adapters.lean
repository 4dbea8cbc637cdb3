/-
# Recording and replaying what a release was verified by

The verifier of a release reads through an adapter.  `Record` hands each read on to the API and keeps
what it returned; `Replay` answers from what was kept, and has no API.  The downloader of an artifact is
not of this module: what it returns, and the inventory that it read on the way, is an answer of the API.
-/
import Supplementary.Continuation.Stored

namespace Supplementary.Archive

open PyStr Effects
open Continuation (requireAll)
open Caller (b64encode b64decode)

/-! ## 1. Bounds and texts -/

def maxBytes : Nat := 50 * 1024 * 1024

def maxReads : Nat := 4096

/-- `require(value, message)`. -/
def require (condition : Prop) [Decidable condition] (message : String) : Py Unit :=
  raiseUnless (.valueError message) condition

/-- `canonical(value)`. -/
def canonical (rt : Runtime) (value : Value) : Py Bytes := do
  let text ← dumps jsonFloat rt.maxDepth value
  return text ++ [10]

/-! ## 2. The binding -/

/-- What `binding` returns. -/
structure Binding where
  repository : PyStr
  repositoryId : PyStr
  release : PyStr
  base : PyStr
  head : PyStr
  controlSource : PyStr

def Binding.toValue (b : Binding) : Value :=
  .dict [("repository", .str b.repository), ("repository_id", .str b.repositoryId),
    ("release", .str b.release), ("base", .str b.base), ("head", .str b.head),
    ("control_source", .str b.controlSource)]

/-- `[A-Za-z0-9_.-]`. -/
def isNameChar (c : Nat) : Bool :=
  isUpper c || isLower c || PyStr.isDigit c || c = 95 || c = 46 || c = 45

/-- `[1-9][0-9]*`. -/
def isPositiveNumeral : List Nat → Bool
  | c :: rest => 49 ≤ c && c ≤ 57 && rest.all PyStr.isDigit
  | [] => false

/-- `binding(repository, repository_id, release, base, head, source)`. -/
def binding (repository repositoryId release base head source : PyStr) : Py Binding := do
  let name := repository.codePoints.drop ("lightning-it/" : PyStr).length
  require (repository.startsWith "lightning-it/" ∧ name ≠ [] ∧ name.all isNameChar = true)
    "archive-repository"
  require (isPositiveNumeral repositoryId.codePoints = true) "archive-repository-id"
  require ([release, base, head, source].all (PyStr.isHex 40) = true) "archive-revision"
  return ⟨repository, repositoryId, release, base, head, source⟩

/-! ## 3. Reads -/

/-- What the verifier reads through the adapter. -/
inductive ReadOp
  | call (path method : PyStr) (data : Option Value)
  | pages (path : PyStr) (key : Option PyStr)
  | file (repository path revision : PyStr)
  | nativeJobLog (repository : PyStr) (job : Int)
  | artifact (repository : PyStr) (run : Value) (name filename : PyStr)

abbrev ReadOp.Result : ReadOp → Type
  | .file .. => Bytes
  | _ => Value

/-- The verifier's signature: every read may raise. -/
abbrev ReadAns : ReadOp → Type := Fallible PyError ReadOp.Result

/-- The downloader of an artifact: what it returns or raises, and the inventory it read. -/
structure Download where
  inventory : Value
  record : Py Value

/-- What the API has for a read. -/
abbrev ApiAns : ReadOp → Type
  | .file .. => Py Bytes
  | .artifact .. => Download
  | _ => Py Value

def isPositive : Value → Bool
  | .int n => 0 < n
  | _ => false

def isWithin (bound : Nat) : Value → Bool
  | .int n => n ≤ bound
  | _ => false

/-- `re.fullmatch` of lower-case hexadecimal digits; a value that is no text raises. -/
def matchesHex (count : Nat) : Value → Py Bool
  | .str s => .ok (PyStr.isHex count s)
  | _ => .error .typeError

/-- `control-(?:proof|operation)-[1-9][0-9]*`. -/
def isControlName (name : PyStr) : Bool :=
  let rest (start : PyStr) := name.codePoints.drop start.length
  (name.startsWith "control-proof-" && isPositiveNumeral (rest "control-proof-")) ||
    (name.startsWith "control-operation-" && isPositiveNumeral (rest "control-operation-"))

/-- The name of an artifact is of its file, and of the attempt. -/
def checkName (attempt : Value) (name filename : PyStr) : Py Unit :=
  if filename = "preparation-inputs.json" then
    match attempt with
    | .int number => require (name = "normal-release-preparation-" ++ ofInt number)
        "archive-preparation-artifact-attempt"
    | _ => .error .typeError
  else do
    require ((filename = "control-proof.json" ∨ filename = "control-operation.json") ∧
      isControlName name = true) "archive-artifact-name"
    require (name.startsWith "control-operation-" = true ↔ filename = "control-operation.json")
      "archive-artifact-kind"

/-- `artifact_identity(repository, run, name, filename)`. -/
def artifactIdentity (repository : PyStr) (run : Value) (name filename : PyStr) : Py Value := do
  let id ← run.attr "id"
  let attempt ← run.attr "run_attempt"
  let sha ← run.attrD "head_sha" (.str "")
  requireAll "archive-artifact-origin" [.ok (isPositive id), .ok (isPositive attempt), matchesHex 40 sha]
  checkName attempt name filename
  return .list [.str repository, id, attempt, sha, .str name, .str filename]

/-- `sha256:[0-9a-f]{64}`. -/
def isDigestText : Value → Bool
  | .str s => s.startsWith "sha256:" && PyStr.isHex 64 ⟨s.codePoints.drop ("sha256:" : PyStr).length⟩
  | _ => false

/-- `artifact_metadata(value, name)`. -/
def artifactMetadata (value : Value) (name : PyStr) : Py Unit := do
  require (value.isDict = true ∧ isPositive (value.get "id") = true ∧
    (value.get "name").isText name = true ∧ (value.get "expired").isFalse = true ∧
    isPositive (value.get "size_in_bytes") = true ∧ isWithin maxBytes (value.get "size_in_bytes") = true)
    "archive-artifact-metadata"
  require ((value.get "digest").isNone = true ∨ isDigestText (value.get "digest") = true)
    "archive-artifact-digest"

/-! ## 4. Recording -/

/-- An entry of the archive. -/
def entry (kind : PyStr) (args value : Value) : Value :=
  .dict [("kind", .str kind), ("args", args), ("value", value)]

/-- `Record`. -/
structure Record where
  expected : Binding
  reads : List Value
  size : Nat

/-- `self.add(kind, args, value)`: what is too much has been counted, and is not kept. -/
def Record.add (rt : Runtime) (r : Record) (kind : PyStr) (args value : Value) : Record × Py Unit :=
  match canonical rt (entry kind args value) with
  | .error e => (r, .error e)
  | .ok text =>
    let size := r.size + text.length
    if r.reads.length < maxReads ∧ size ≤ maxBytes then
      ({ r with size := size, reads := r.reads ++ [entry kind args value] }, .ok ())
    else ({ r with size := size }, .error (.valueError "archive-observation-bound"))

/-- A read that passes its checks is kept once the API has returned. -/
def Record.keep {α : Type} (rt : Runtime) (r : Record) (kind : PyStr) (args : Py Value) (api : Py α)
    (value : α → Py Value) : Record × Py α :=
  match args with
  | .error e => (r, .error e)
  | .ok args => match api with
    | .error e => (r, .error e)
    | .ok a => match value a with
      | .error e => (r, .error e)
      | .ok value => ((r.add rt kind args value).1, (r.add rt kind args value).2 >>= fun _ => .ok a)

/-- `self.path(path)`. -/
def inScope (b : Binding) (path : PyStr) : Py Unit :=
  require (path.startsWith ("repos/" ++ b.repository ++ "/") = true) "archive-read-scope"

def ofRepository (b : Binding) (repository : PyStr) : Py Unit :=
  require (repository = b.repository) "archive-read-scope"

def readOnly (method : PyStr) (data : Option Value) : Py Unit :=
  require (method = "GET" ∧ data.isNone = true) "archive-read-only"

/-- The arguments of a read of pages. -/
def pagesArgs (path : PyStr) (key : Option PyStr) : Value :=
  .list [.str path, (key.map .str).getD .none]

/-- The one entry of the inventory that is the artifact's, with what was downloaded. -/
def artifactEntry (name : PyStr) (inventory record : Value) : Py Value :=
  match inventory with
  | .list items => do
    let selected ← items.filterM fun item => do
      allOf [do return (← item.attr "name").isText name, do return (← item.attr "expired").isFalse]
    match selected with
    | [metadata] => do
      artifactMetadata metadata name
      return .dict [("metadata", metadata), ("record", record)]
    | _ => .error (.valueError "archive-artifact-selection")
  | _ => .error (.valueError "archive-artifact-inventory-missing")

/-- The methods of `Record`. -/
def Record.answer (rt : Runtime) (r : Record) : (op : ReadOp) → ApiAns op → Record × ReadAns op
  | .call path method data, api =>
    r.keep rt "call" (do
      inScope r.expected path
      readOnly method data
      return .list [.str path]) api .ok
  | .pages path key, api =>
    r.keep rt "pages" (do
      inScope r.expected path
      return pagesArgs path key) api .ok
  | .file repository path revision, api =>
    r.keep rt "file" (do
      ofRepository r.expected repository
      return .list [.str repository, .str path, .str revision]) api fun raw =>
        .ok (.str ⟨b64encode raw⟩)
  | .nativeJobLog repository job, api =>
    r.keep rt "native_job_log" (do
      ofRepository r.expected repository
      return .list [.str repository, .int job]) api .ok
  | .artifact repository run name filename, api =>
    r.keep rt "artifact" (do
      ofRepository r.expected repository
      artifactIdentity repository run name filename) api.record fun record =>
        artifactEntry name api.inventory record

def kindName : PyStr := "normal-release-native-observations"

/-- What `finish` archives. -/
def document (b : Binding) (reads : List Value) (result : Value) : Value :=
  .dict [("version", .int 1), ("kind", .str kindName), ("binding", b.toValue), ("reads", .list reads),
    ("result", result)]

/-- `Record.finish(result)`. -/
def Record.finish (rt : Runtime) (r : Record) (result : Value) : Py Bytes := do
  let raw ← canonical rt (document r.expected r.reads result)
  require (raw.length ≤ maxBytes) "archive-size-bound"
  return raw

/-! ## 5. Replaying -/

/-- `Replay`: the reads that are archived, the result, and how far it is. -/
structure Replay where
  reads : List Value
  result : Value
  expected : Binding
  currentMain : PyStr
  index : Nat

/-- `type(value) is int and value == 1`. -/
def isOne : Value → Bool
  | .int n => n = 1
  | _ => false

/-- `Replay(value, expected, current_main)`. -/
def Replay.init (value : Value) (expected : Binding) (currentMain : PyStr) : Py Replay := do
  require (value.isDict = true ∧ value.hasKeys ["version", "kind", "binding", "reads", "result"] = true ∧
    isOne (value.get "version") = true ∧ (value.get "kind").isText kindName = true ∧
    (value.get "binding").pyEq expected.toValue = true) "archive-binding"
  match value.get "reads" with
  | .list reads => do
    require (0 < reads.length ∧ reads.length ≤ maxReads) "archive-observation-bound"
    return ⟨reads, value.get "result", expected, currentMain, 0⟩
  | _ => .error (.valueError "archive-observation-bound")

/-- The entry is of the read. -/
def isEntryOf (kind : PyStr) (args entry : Value) : Bool :=
  entry.isDict && entry.hasKeys ["kind", "args", "value"] && (entry.get "kind").isText kind &&
    (entry.get "args").pyEq args

/-- `self.take(kind, args)`. -/
def Replay.take (p : Replay) (kind : PyStr) (args : Value) : Replay × Py Value :=
  match p.reads[p.index]? with
  | none => (p, .error (.valueError "archive-missing-observation"))
  | some entry =>
    if isEntryOf kind args entry then ({ p with index := p.index + 1 }, .ok (entry.get "value"))
    else (p, .error (.valueError "archive-observation-order-or-binding"))

/-- A read that passes its checks is answered from what was taken. -/
def Replay.serve {α : Type} (p : Replay) (kind : PyStr) (args : Py Value) (read : Value → Py α) :
    Replay × Py α :=
  match args with
  | .error e => (p, .error e)
  | .ok args => ((p.take kind args).1, (p.take kind args).2 >>= read)

/-- The route of the tip of `main`. -/
def tipPath (b : Binding) : PyStr := "repos/" ++ b.repository ++ "/git/ref/heads/main"

/-- The tip that a reference shows. -/
def tipOf (value : Value) : Py Value := do
  let object ← value.attrD "object" (.dict [])
  object.attr "sha"

/-- The tip of `main` was the release, and is read as what it is now. -/
def retip (b : Binding) (currentMain path : PyStr) (value : Value) : Py Value :=
  if path = tipPath b then do
    let tip ← tipOf value
    require (tip.isText b.release = true) "archive-original-main-drift"
    return value.set "object" ((value.get "object").set "sha" (.str currentMain))
  else return value

/-- `base64.b64decode(text, validate=True)`. -/
def decodeFile : Value → Py Bytes
  | .str s => match b64decode s.codePoints with
    | some raw => .ok raw
    | none => .error (.valueError "Incorrect padding")
  | _ => .error .typeError

/-- The record of an archived artifact. -/
def archivedRecord (name : PyStr) (value : Value) : Py Value := do
  require (value.isDict = true ∧ value.hasKeys ["metadata", "record"] = true) "archive-artifact-record"
  artifactMetadata (value.get "metadata") name
  return value.get "record"

/-- The methods of `Replay`. -/
def Replay.answer (p : Replay) : (op : ReadOp) → Replay × ReadAns op
  | .call path method data =>
    p.serve "call" (do
      readOnly method data
      return .list [.str path]) (retip p.expected p.currentMain path)
  | .pages path key => p.serve "pages" (.ok (pagesArgs path key)) .ok
  | .file repository path revision =>
    p.serve "file" (.ok (.list [.str repository, .str path, .str revision])) decodeFile
  | .nativeJobLog repository job =>
    p.serve "native_job_log" (.ok (.list [.str repository, .int job])) .ok
  | .artifact repository run name filename =>
    p.serve "artifact" (artifactIdentity repository run name filename) (archivedRecord name)

/-- `Replay.finish(result)`. -/
def Replay.finish (p : Replay) (result : Value) : Py Unit :=
  require (p.index = p.reads.length ∧ result.pyEq p.result = true) "archive-incomplete-replay"

/-- A verifier with the replay as its adapter. -/
def Replay.run {α : Type} (p : Replay) : Prog ReadAns α → Replay × α
  | .ret a => (p, a)
  | .ask op k => (p.answer op).1.run (k (p.answer op).2)

/-- A verifier with a record as its adapter: what it read and was answered, whatever the API has. -/
inductive Recorded (rt : Runtime) : Record → Trace ReadAns → Record → Prop
  | done (r : Record) : Recorded rt r [] r
  | read {r r' : Record} {op : ReadOp} {tr : Trace ReadAns} (api : ApiAns op)
      (hrest : Recorded rt (r.answer rt op api).1 tr r') :
      Recorded rt r (⟨op, (r.answer rt op api).2⟩ :: tr) r'

end Supplementary.Archive
