/-
# The journal of review operations

`Journal` of the review-request continuation: a branch that holds one JSON record in each file.  A
journal object is pinned to the commit it was opened at, reads its records there, and adds a record
with `createCommitOnBranch`, which names that commit as the head it expects.

The server may refuse the commit because the head has moved, and says so in one exact way; whatever
else comes back, the commit may have been made.  `commitResponse` tells the two apart.
-/
import Supplementary.Caller.Inputs
import Supplementary.Native.Paging
import Supplementary.Python.JsonErrors
import Supplementary.Python.Sha256
import Supplementary.Lib.Tracks
import Mathlib.Algebra.Order.Ring.Unbundled.Rat

namespace Supplementary.Continuation

open Effects PyStr Native

/-! ## 1. The environment -/

/-- What an execution asks its environment. -/
inductive ContinuationOp
  /-- `gh api` without a payload, which only reads. -/
  | read (request : Paging.Request) (timeout : ℚ)
  /-- `gh api graphql` with a `createCommitOnBranch`. -/
  | commit (payload : Value)
  /-- `gh api` with another payload. -/
  | send (route : PyStr) (payload : Value)
  /-- The time of day, as `strftime` writes it. -/
  | utcnow
  /-- The same as a number of seconds. -/
  | timestamp
  | monotonic
  | sleep (seconds : Nat)

abbrev ContinuationOp.Result : ContinuationOp → Type
  | .read _ _ | .commit _ | .send _ _ => Value
  | .utcnow => PyStr
  | .timestamp | .monotonic => ℚ
  | .sleep _ => Unit

abbrev ContinuationAns : ContinuationOp → Type := Fallible PyError ContinuationOp.Result

/-- `_visibility_budget`: the reads that are left and the deadline. -/
structure Visibility where
  reads : Int
  deadline : ℚ

abbrev ContinuationAct (α : Type) : Type := Act ContinuationAns (Option Visibility) PyError α

/-- `api(route, fields=fields)`. -/
def api (request : Paging.Request) : ContinuationAct Value := do
  match ← Act.read with
  | none => Act.call (ContinuationOp.read request 30)
  | some visibility => do
    require (request.fields = [] ∧ request.route.startsWith "repos/" = true) "visibility is GET-only"
    let now ← Act.call ContinuationOp.monotonic
    require (0 < visibility.reads ∧ 0 < visibility.deadline - now)
      "visibility read/time budget exhausted"
    Act.update fun _ => some { visibility with reads := visibility.reads - 1 }
    Act.call (ContinuationOp.read request (min 30 (visibility.deadline - now)))

/-- `api(route)`. -/
def get (route : PyStr) : ContinuationAct Value := api ⟨route, []⟩

/-- `api("graphql", payload)`. -/
def post (payload : Value) : ContinuationAct Value := do
  match ← Act.read with
  | none => Act.call (ContinuationOp.commit payload)
  | some _ => Act.raise (.valueError "visibility is GET-only")

/-- `api(route, payload)` for another route. -/
def send (route : PyStr) (payload : Value) : ContinuationAct Value := do
  match ← Act.read with
  | none => Act.call (ContinuationOp.send route payload)
  | some _ => Act.raise (.valueError "visibility is GET-only")

/-! ## 2. Checks -/

/-- `value[key]...[key]`. -/
def itemAt (value : Value) (keys : List PyStr) : Py Value := keys.foldlM Value.item value

/-- `value[key]...[key] == expected`. -/
def itemIs (value : Value) (keys : List PyStr) (expected : Value) : Py Bool := do
  return (← itemAt value keys).pyEq expected

/-- `bool(value[key]...[key])`. -/
def itemTruthy (value : Value) (keys : List PyStr) : Py Bool := do
  return (← itemAt value keys).truthy

/-- `value in texts` for a set of texts. -/
def isIn (texts : List PyStr) : Value → Py Bool
  | .list _ | .dict _ => .error .typeError
  | value => .ok (value.isTextOf texts)

/-- `value[key]...[key] in texts`. -/
def itemIn (value : Value) (keys texts : List PyStr) : Py Bool := do
  isIn texts (← itemAt value keys)

/-- `test(value[key])` for a test that cannot raise. -/
def itemTest (test : Value → Bool) (value : Value) (key : PyStr) : Py Bool := do
  return test (← value.item key)

/-- `test(value.get(key))` for a test that cannot raise. -/
def attrTest (test : Value → Bool) (value : Value) (key : PyStr) : Py Bool := do
  return test (← value.attr key)

/-- `left[key]...[key] == right[key]...[key]`. -/
def itemsEqual (left : Value) (keys : List PyStr) (right : Value) (keys' : List PyStr) : Py Bool := do
  return (← itemAt left keys).pyEq (← itemAt right keys')

/-- `require(condition and ... and condition, message)`. -/
def requireAll (message : String) (conditions : List (Py Bool)) : Py Unit := do
  require ((← allOf conditions) = true) message

/-- `type(value) is int`. -/
def isInt : Value → Bool
  | .int _ => true
  | _ => false

/-- `sha(value)`. -/
def isSha : Value → Bool
  | .str s => s.length = 40 && s.codePoints.all fun c => (48 ≤ c && c ≤ 57) || (97 ≤ c && c ≤ 102)
  | _ => false

/-- `sha(value[key]...[key])`. -/
def itemSha (value : Value) (keys : List PyStr) : Py Bool := do
  return isSha (← itemAt value keys)

/-- `str(value)` of a scalar that is put into a text. -/
def pyText : Value → PyStr
  | .str s => s
  | .int n => ofInt n
  | .bool b => if b then "True" else "False"
  | .float x => x.repr
  | _ => "None"

/-- `object_pairs_hook=unique`. -/
def uniqueHooks : Json.Hooks := ⟨.valueError "duplicate JSON key", none⟩

/-- `key_for(repo_id, pr, head)`. -/
def keyFor (repoId pr head : PyStr) : PyStr :=
  "li219-review-request:v1:" ++ repoId ++ ":" ++ pr ++ ":" ++ head

/-- `record_path(key, deferred)`. -/
def recordPath (key : PyStr) (deferred : Bool) : Py PyStr :=
  match key.utf8Encode with
  | none => .error .unicodeError
  | some octets => .ok ((if deferred then "deferred/" else "operations/" : String) ++
      Sha256.hexdigest octets ++ ".json")

/-! ## 3. Reading -/

variable (rt : Runtime)

/-- `blob(value)`. -/
def blob (value : Value) : Py Value := do
  require ((value.isDict && (value.get "__typename").isText "Blob" &&
    (value.get "isTruncated").isFalse) = true) "journal blob"
  match ← value.item "text" with
  | .str text => do
    let size ← value.item "byteSize"
    require (positive size = true) "journal size"
    match text.utf8Encode with
    | none => .error .unicodeError
    | some octets => do
      require (size.pyEq (.int octets.length) = true ∧ octets.length ≤ 4096) "journal size"
      Json.loads rt uniqueHooks text
  | _ => .error (.valueError "journal size")

/-- A journal, pinned to a commit. -/
structure Journal where
  repo : PyStr
  repoId : PyStr
  oid : PyStr

/-- `Journal(repo, repo_id)`. -/
def openJournal (repo repoId : PyStr) : ContinuationAct Journal := do
  let ref ← get ("repos/" ++ repo ++ "/git/ref/heads/lit-review-operations")
  requireAll "journal ref" [itemIs ref ["ref"] (.str "refs/heads/lit-review-operations"),
    itemIs ref ["object", "type"] (.str "commit")]
  match ← itemAt ref ["object", "sha"] with
  | .str oid => do
    require (isSha (.str oid) = true) "journal commit"
    return ⟨repo, repoId, oid⟩
  | _ => Act.raise (.valueError "journal commit")

def readQuery : PyStr :=
  "query=query($owner:String!,$name:String!,$oid:String!," ++
  "$manifest:String!,$record:String!)\x7brepository(owner:$owner,name:$name)" ++
  "\x7bnameWithOwner source:object(expression:$oid)\x7b__typename oid\x7d" ++
  " manifest:object(expression:$manifest)\x7b__typename ... on Blob" ++
  "\x7bisTruncated byteSize text\x7d\x7d record:object(expression:$record)" ++
  "\x7b__typename ... on Blob\x7bisTruncated byteSize text\x7d\x7d\x7d\x7d"

/-- The request for a record at the commit of the journal. -/
def readRequest (journal : Journal) (path : PyStr) : Py Paging.Request :=
  match journal.repo.split '/' with
  | owner :: name :: _ => .ok ⟨"graphql", ["-f", readQuery, "-f", "owner=" ++ owner,
      "-f", "name=" ++ name, "-f", "oid=" ++ journal.oid,
      "-f", "manifest=" ++ journal.oid ++ ":manifest.json",
      "-f", "record=" ++ journal.oid ++ ":" ++ path]⟩
  | _ => .error .indexError

/-- What the manifest of the journal says. -/
def manifestOf (journal : Journal) : Value :=
  .dict [("schema", .int 1), ("repository", .str journal.repo), ("repository_id", .str journal.repoId),
    ("ref", .str "refs/heads/lit-review-operations")]

/-- The record in an answer; `None` if the file is not there. -/
def recordOf (journal : Journal) (result : Value) : Py Value := do
  require ((← Paging.hasKey result "errors") = false) "partial journal"
  let data ← itemAt result ["data", "repository"]
  requireAll "mixed journal" [itemIs data ["nameWithOwner"] (.str journal.repo),
    itemIs data ["source"] (.dict [("__typename", .str "Commit"), ("oid", .str journal.oid)])]
  let manifest ← blob rt (← data.item "manifest")
  let schema ← manifest.attr "schema"
  require ((isInt schema && manifest.pyEq (manifestOf journal)) = true) "manifest"
  let record ← data.item "record"
  if record.isNone then return .none else blob rt record

/-- `journal.read(path)`. -/
def readJournal (journal : Journal) (path : PyStr) : ContinuationAct Value := do
  let request ← readRequest journal path
  let result ← api request
  recordOf rt journal result

/-! ## 4. Adding a record -/

/-- `errors[0]` is the rejection of a head that has moved. -/
def isStaleError (prior : PyStr) (error : Value) : Bool :=
  error.isDict && (error.get "type").isText "STALE_DATA" &&
    (error.get "path").pyEq (.list [.str "createCommitOnBranch"]) &&
    (error.get "message").isText ("Expected branch to point to \"" ++ prior ++
      "\" but it did not. Pull and try again.")

/-- The server's exact rejection of the expected head. -/
def isStale (prior : PyStr) (result : Value) : Bool :=
  result.isDict && (result.get "data").pyEq (.dict [("createCommitOnBranch", .none)]) &&
    match result.get "errors" with
    | .list [error] => isStaleError prior error
    | _ => false

/-- What came back, and whether `gh` failed: its output is read all the same. -/
def received (answer : Py Value) : Py (Bool × Value) :=
  match answer with
  | .ok result => .ok (false, result)
  | .error (.calledProcessError stdout) =>
    match Json.loads rt uniqueHooks ⟨stdout⟩ with
    | .ok result => .ok (true, result)
    | .error e =>
      if e.isValueError || e = .typeError then
        .error (.unknownWriteResult "unconfirmed journal transport")
      else .error e
  | .error e =>
    if e = .osError || e.isSubprocessError || e.isValueError then
      .error (.unknownWriteResult "unconfirmed journal transport")
    else .error e

/-- What `commit_response` makes of an answer to a payload. -/
def judge (payload : Value) (answer : Py Value) : Py Value := do
  let (transportFailed, result) ← received rt answer
  let prior ← itemAt payload ["variables", "input", "expectedHeadOid"]
  if isStale (pyText prior) result then .error .confirmedIntentConflict
  else if transportFailed || !result.isDict || (result.find? "errors").isSome then
    .error (.unknownWriteResult "unconfirmed journal response")
  else return result

def commitMutation : PyStr :=
  "mutation($input:CreateCommitOnBranchInput!)\x7bcreateCommitOnBranch(input:$input)" ++
  "\x7bcommit\x7boid parents(first:2)\x7bnodes\x7boid\x7d\x7d\x7d\x7d\x7d"

/-- The payload that adds a file to the branch, if the head is the commit of the journal. -/
def commitPayload (journal : Journal) (path : PyStr) (raw : Bytes) : Value :=
  .dict [("query", .str commitMutation), ("variables", .dict [("input", .dict [
    ("branch", .dict [("repositoryNameWithOwner", .str journal.repo),
      ("branchName", .str "lit-review-operations")]),
    ("expectedHeadOid", .str journal.oid),
    ("message", .dict [("headline", .str "Record LI-219 first-request continuation")]),
    ("fileChanges", .dict [("additions", .list [.dict [("path", .str path),
      ("contents", .str ⟨Caller.b64encode raw⟩)]])])])])]

/-- `commit_response(payload)`. -/
def commitResponse (payload : Value) : ContinuationAct Value := do
  let answer ← Act.attempt (post payload)
  judge rt payload answer

/-- The commit in a response, whose only parent is the commit of the journal. -/
def committedOid (journal : Journal) (result : Value) : Py PyStr := do
  let commit ← itemAt result ["data", "createCommitOnBranch", "commit"]
  match ← commit.item "oid" with
  | .str oid => do
    requireAll "CAS result" [.ok (isSha (.str oid) && oid ≠ journal.oid),
      itemIs commit ["parents", "nodes"] (.list [.dict [("oid", .str journal.oid)]])]
    return oid
  | _ => .error (.valueError "CAS result")

/-- `json.dumps(record, sort_keys=True, separators=(",", ":")).encode()`. -/
def recordBytes (record : Value) : Py Bytes := dumps jsonNumber rt.maxDepth record

/-- `journal.create(path, record)`. -/
def create (journal : Journal) (path : PyStr) (record : Value) : ContinuationAct Unit := do
  let present ← readJournal rt journal path
  require (present.isNone = true) "record already exists"
  let raw ← recordBytes rt record
  let result ← commitResponse rt (commitPayload journal path raw)
  require ((result.isDict && (result.find? "errors").isNone) = true) "uncertain CAS"
  let oid ← committedOid journal result
  let readback ← readJournal rt { journal with oid := oid } path
  require (readback.pyEq record = true) "CAS readback"

/-! ## 5. What is raised -/

/-- Everything but `ConfirmedIntentConflict`. -/
def Plain (e : PyError) : Prop := e ≠ .confirmedIntentConflict

theorem plain_loads {e : PyError} (h : Json.LoadsError uniqueHooks e) : Plain e := by
  intro he
  cases h with
  | duplicate => cases he
  | constant h => cases h
  | _ => cases he

theorem loads_plain (text : PyStr) : Raises Plain (Json.loads rt uniqueHooks text) :=
  (Json.loads_raises text).mono fun _ => plain_loads

theorem require_plain {condition : Prop} [Decidable condition] {message : String} :
    Raises Plain (require condition message) := raises_raiseUnless PyError.noConfusion

theorem item_plain (value : Value) (key : PyStr) : Raises Plain (value.item key) := by
  cases value with
  | dict entries =>
    unfold Value.item
    dsimp only
    split
    · exact raises_ok _
    · exact raises_error PyError.noConfusion
  | _ => exact raises_error PyError.noConfusion

theorem hasKey_plain (value : Value) (key : PyStr) : Raises Plain (Paging.hasKey value key) := by
  unfold Paging.hasKey
  split
  all_goals first
    | exact raises_ok _
    | exact raises_error PyError.noConfusion

theorem attr_plain (value : Value) (key : PyStr) : Raises Plain (value.attr key) := by
  cases value with
  | dict entries => exact raises_ok _
  | _ => exact raises_error PyError.noConfusion

theorem itemAt_plain (value : Value) (keys : List PyStr) : Raises Plain (itemAt value keys) := by
  induction keys generalizing value with
  | nil => exact raises_ok _
  | cons key keys ih => exact (item_plain value key).bind fun item _ => ih item

theorem itemIs_plain (value : Value) (keys : List PyStr) (expected : Value) :
    Raises Plain (itemIs value keys expected) := (itemAt_plain value keys).bind fun _ _ => raises_ok _

theorem requireAll_plain {message : String} {conditions : List (Py Bool)}
    (h : ∀ condition ∈ conditions, Raises Plain condition) :
    Raises Plain (requireAll message conditions) := by
  refine Raises.bind ?_ fun _ _ => require_plain
  induction conditions with
  | nil => exact raises_ok _
  | cons condition conditions ih =>
    obtain ⟨hfirst, hrest⟩ := List.forall_mem_cons.mp h
    refine hfirst.bind fun holds _ => ?_
    split
    · exact ih hrest
    · exact raises_ok _

theorem blob_plain (value : Value) : Raises Plain (blob rt value) := by
  refine require_plain.bind fun _ _ => (item_plain value _).bind fun text _ => ?_
  cases text with
  | str text =>
    refine (item_plain value _).bind fun size _ => require_plain.bind fun _ _ => ?_
    split
    · exact raises_error PyError.noConfusion
    · exact require_plain.bind fun _ _ => loads_plain rt text
  | _ => exact raises_error PyError.noConfusion

theorem recordOf_plain (journal : Journal) (result : Value) :
    Raises Plain (recordOf rt journal result) := by
  unfold recordOf
  refine (hasKey_plain _ _).bind fun _ _ => require_plain.bind fun _ _ => ?_
  refine (itemAt_plain _ _).bind fun data _ => (requireAll_plain ?_).bind fun _ _ => ?_
  · simp only [List.forall_mem_cons]
    exact ⟨itemIs_plain _ _ _, itemIs_plain _ _ _, List.forall_mem_nil _⟩
  refine (item_plain _ _).bind fun manifest _ => ?_
  refine (blob_plain rt manifest).bind fun manifest _ => (attr_plain _ _).bind fun schema _ => ?_
  refine require_plain.bind fun _ _ => (item_plain _ _).bind fun record _ => ?_
  split
  · exact raises_ok _
  · exact blob_plain rt record

theorem committedOid_plain (journal : Journal) (result : Value) :
    Raises Plain (committedOid journal result) := by
  refine (itemAt_plain _ _).bind fun commit _ => (item_plain _ _).bind fun oid _ => ?_
  cases oid with
  | str oid =>
    refine (requireAll_plain ?_).bind fun _ _ => raises_ok _
    simp only [List.forall_mem_cons]
    exact ⟨raises_ok _, itemIs_plain _ _ _, List.forall_mem_nil _⟩
  | _ => exact raises_error PyError.noConfusion

theorem received_plain (answer : Py Value) : Raises Plain (received rt answer) := by
  unfold received
  split
  · exact raises_ok _
  · split
    · exact raises_ok _
    · next e he =>
      split
      · exact raises_error PyError.noConfusion
      · exact raises_error (loads_plain rt _ e he)
  · next e _ =>
    split
    · exact raises_error PyError.noConfusion
    · next hnot =>
      refine raises_error fun he => hnot ?_
      rw [he]
      decide

/-- The conflict is raised for the exact rejection, and for nothing else. -/
theorem judge_conflict {payload : Value} {answer : Py Value}
    (h : judge rt payload answer = .error .confirmedIntentConflict) :
    ∃ failed result prior, received rt answer = .ok (failed, result) ∧
      itemAt payload ["variables", "input", "expectedHeadOid"] = .ok prior ∧
      isStale (pyText prior) result = true := by
  rcases bind_eq_error h with h | ⟨⟨failed, result⟩, hreceived, h⟩
  · exact absurd rfl (received_plain rt answer _ h)
  · rcases bind_eq_error h with h | ⟨prior, hprior, h⟩
    · exact absurd rfl (itemAt_plain _ _ _ h)
    · split at h
      · next hstale => exact ⟨failed, result, prior, hreceived, hprior, hstale⟩
      · split at h <;> cases h

end Supplementary.Continuation
