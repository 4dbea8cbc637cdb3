/-
# What the Security contract can raise

The callers of `security_release_contract.py` catch a `ContractError` and an `OSError`, and nothing
else.  `contract_errors_iff`: on JSON values the validators of a receipt, of the metadata and of the
registry raise no other error, but for one field: an event that is a list or an object is looked up in
a set, which asks for its hash.  The canonical document is encoded after the handler of its
serialization, so that a surrogate anywhere in it gets past.

A `ContractError` is a `valueError` here, and no other error of these functions is.
-/
import Supplementary.Security.Fragment

namespace Supplementary.Security

open Supplementary PyStr

/-! ## 1. The intake receipt -/

def verifiedKeys : List PyStr := ["schemaVersion", "chainId", "branch", "baseSha", "candidateBaseSha",
  "candidateHeadSha", "candidateDiffSha256", "evidenceId", "fixedVersion", "metadataPath",
  "metadataSha256", "acceptanceProfile", "changelogFragmentPath", "changelogFragmentSha256",
  "changedPaths", "humanActions"]

def intakeReceiptKeys : List PyStr := ["schemaVersion", "chainId", "request", "verified", "automation",
  "controller"]

def controllerKeys : List PyStr := ["path", "ref", "sourceSha", "runId", "runAttempt", "event", "gitRef",
  "actor", "triggeringActor"]

def releaseAppLogin : PyStr := "lightning-it-release-automation[bot]"

/-- `RELEASE_APP_IDENTITY`. -/
def releaseAppIdentity : Value := .dict [
  ("slug", .str "lightning-it-release-automation"), ("installationId", .str "148019054"),
  ("login", .str releaseAppLogin), ("accountId", .str "307565056"), ("type", .str "Bot"),
  ("selectedRepositories", .list [.str "lightning-it/ansible-collection-supplementary",
    .str "lightning-it/container-ee-wunder-ansible-ubi9", .str "lightning-it/github-management-lit",
    .str "lightning-it/modulix-validation", .str "lightning-it/shared-assets-lit"]),
  ("permissions", .dict [("actions", .str "write"), ("checks", .str "read"),
    ("contents", .str "write"), ("metadata", .str "read"), ("pull_requests", .str "write")])]

/-- The text of a field that was checked to be one. -/
def textOf (value : Value) : PyStr :=
  match value with
  | .str s => s
  | _ => ""

def metadataPath (request : Value) : PyStr :=
  ".lit/security-releases/" ++ textOf (request.get "fixedVersion") ++ ".json"

/-- What the verified intake must repeat of its request. -/
def expectedResult (request : Value) : List (String × Value) := [
  ("chainId", request.get "chainId"),
  ("branch", .str ("security-release/" ++ textOf (request.get "evidenceId"))),
  ("baseSha", request.get "baseSha"), ("candidateBaseSha", request.get "candidateBaseSha"),
  ("candidateHeadSha", request.get "candidateHeadSha"),
  ("candidateDiffSha256", request.get "candidateDiffSha256"),
  ("evidenceId", request.get "evidenceId"), ("fixedVersion", request.get "fixedVersion"),
  ("metadataPath", .str (metadataPath request)), ("metadataSha256", request.get "metadataSha256"),
  ("acceptanceProfile", request.get "acceptanceProfile"), ("humanActions", .int 0)]

/-- `changelogs/fragments/[^/]+\.ya?ml`. -/
def isFragmentPath (s : PyStr) : Bool :=
  let name : PyStr := ⟨s.codePoints.drop 21⟩
  s.startsWith "changelogs/fragments/" && !name.codePoints.contains 47 &&
    ((name.endsWith ".yml" && 5 ≤ name.length) || (name.endsWith ".yaml" && 6 ≤ name.length))

/-- A list of texts that are not empty, sorted and distinct, with these two in it. -/
def arePaths (value : Value) (first second : PyStr) : Bool :=
  match value with
  | .list items =>
    let paths := items.filterMap fun item => match item with
      | .str s => some s
      | _ => none
    items ≠ [] && paths.length = items.length && paths.all (fun s => s.codePoints ≠ []) &&
      paths = PyStr.sorted paths.dedup && paths.contains first && paths.contains second
  | _ => false

/-- `validate_intake_result(request, verified)`; only a text is a digest after `str`. -/
def validateIntakeResult (request verified : Value) : Py Unit := do
  exactKeys verified verifiedKeys "verified Security intake"
  require (isInt (verified.get "schemaVersion") 2 = true)
    "verified Security intake schemaVersion must be 2"
  require (isInt (verified.get "humanActions") 0 = true)
    "verified Security intake must declare humanActions=0"
  (expectedResult request).forM fun e => require ((verified.get e.1).pyEq e.2 = true)
    s!"verified Security intake {e.1} differs from its request"
  let path := verified.get "changelogFragmentPath"
  require (path.isStr = true ∧ isFragmentPath (textOf path) = true)
    "verified Security intake changelog fragment path is invalid"
  let digest := verified.get "changelogFragmentSha256"
  require (digest.isStr = true ∧ isDigest (textOf digest) = true)
    "verified Security intake changelog fragment digest is invalid"
  require (arePaths (verified.get "changedPaths") (metadataPath request) (textOf path) = true)
    "verified Security intake changedPaths are incomplete, duplicate, or unsorted"

/-- `[1-9][0-9]*`. -/
def isCount (value : Value) : Bool :=
  match value with
  | .str s => isToken "" (fun c => PyStr.isDigit c && c ≠ 48) PyStr.isDigit 0 none s
  | _ => false

def intakeWorkflow : PyStr := ".github/workflows/security-release-intake.yml"

/-- The controller of the receipt. -/
def isController (request controller : Value) : Bool :=
  (controller.get "path").isText intakeWorkflow &&
    (controller.get "ref").isText (producerRepository ++ "/" ++ intakeWorkflow ++
      "@refs/heads/main") &&
    (controller.get "sourceSha").pyEq (request.get "baseSha") &&
    (controller.get "event").isText "workflow_dispatch" &&
    (controller.get "gitRef").isText "refs/heads/main" &&
    (controller.get "actor").isText releaseAppLogin &&
    (controller.get "triggeringActor").isText releaseAppLogin &&
    isCount (controller.get "runId") && isCount (controller.get "runAttempt")

/-- `verify_intake_receipt(receipt, checked_at)`. -/
def verifyIntakeReceipt (rt : Runtime) (receipt : Value) (checkedAt : Int) : Py Unit := do
  exactKeys receipt intakeReceiptKeys "Security intake receipt"
  require (isInt (receipt.get "schemaVersion") 2 = true)
    "Security intake receipt schemaVersion must be 2"
  let request := receipt.get "request"
  let verified := receipt.get "verified"
  require (request.isDict = true ∧ verified.isDict = true)
    "Security intake receipt request and verified values must be objects"
  let _ ← validateRequest rt request producerRepository checkedAt
  validateIntakeResult request verified
  require ((receipt.get "chainId").pyEq (request.get "chainId") = true)
    "Security intake receipt chainId differs from its request"
  require ((receipt.get "automation").pyEq releaseAppIdentity = true)
    "Security intake receipt automation identity is unauthorized"
  let controller := receipt.get "controller"
  require (controller.isDict = true) "Security intake receipt controller must be an object"
  exactKeys controller controllerKeys "Security intake receipt controller"
  require (isController request controller = true)
    "Security intake receipt controller identity is unauthorized"

/-! ## 2. The canonical document -/

/-- One code point of a JSON string without `ensure_ascii`: only what must be is escaped. -/
def rawEscape (v : Nat) : List Nat :=
  if v = 34 ∨ v = 92 ∨ v < 32 then Json.points (jsonEscape v) else [v]

def rawString (s : PyStr) : List Nat := [34] ++ s.codePoints.flatMap rawEscape ++ [34]

def joinPoints : List (List Nat) → List Nat
  | [] => []
  | [x] => x
  | x :: rest => x ++ [44] ++ joinPoints rest

mutual

/-- `json.dumps(value, allow_nan=False, ensure_ascii=False, separators=(",", ":"), sort_keys=True)`,
at `depth` containers from the limit. -/
def render : Nat → Value → Py (List Nat)
  | _, .none => .ok (Json.points (bytes "null"))
  | _, .bool true => .ok (Json.points (bytes "true"))
  | _, .bool false => .ok (Json.points (bytes "false"))
  | _, .int n => do .ok (Json.points (← jsonInt n))
  | _, .float x => do .ok (Json.points (← jsonFloat x))
  | _, .str s => .ok (rawString s)
  | 0, .list _ => .error .recursionError
  | depth + 1, .list items => do
    let texts ← renderList depth items
    .ok ([91] ++ joinPoints texts ++ [93])
  | 0, .dict _ => .error .recursionError
  | depth + 1, .dict entries => do
    let texts ← renderEntries depth entries
    .ok ([123] ++ joinPoints ((sortByKey texts).map fun e => rawString e.1 ++ [58] ++ e.2) ++ [125])
  | _, .other => .error .typeError

def renderList : Nat → List Value → Py (List (List Nat))
  | _, [] => .ok []
  | depth, item :: items => do
    let text ← render depth item
    let texts ← renderList depth items
    .ok (text :: texts)

def renderEntries : Nat → List (PyStr × Value) → Py (List (PyStr × List Nat))
  | _, [] => .ok []
  | depth, (key, value) :: entries => do
    let text ← render depth value
    let texts ← renderEntries depth entries
    .ok ((key, text) :: texts)

end

/-- `canonical_json_bytes(value)`: the text is encoded outside the handler. -/
def canonicalJsonBytes (rt : Runtime) (value : Value) : Py Bytes :=
  match render rt.maxDepth value with
  | .ok text => encode ⟨text⟩
  | .error .typeError => .error (.valueError "value is not canonical JSON")
  | .error e => .error (if e.isValueError then .valueError "value is not canonical JSON" else e)

/-- `canonical_document_bytes(value)`. -/
def canonicalDocumentBytes (rt : Runtime) (value : Value) : Py Bytes := do
  .ok ((← canonicalJsonBytes rt value) ++ [10])

/-! ## 3. What the validators raise -/

/-- A `ContractError`. -/
def IsContractError (e : PyError) : Prop := ∃ message, e = .valueError message

theorem require_raises {condition : Prop} [Decidable condition] {message : String} :
    Raises IsContractError (require condition message) := raises_raiseUnless ⟨message, rfl⟩

section

variable {value request verified receipt : Value} {label : String} {rt : Runtime}

theorem requireString_raises : Raises IsContractError (requireString value label) := by
  unfold requireString
  split
  · exact require_raises.bind fun _ _ => require_raises.bind fun _ _ => raises_ok _
  · exact raises_error ⟨_, rfl⟩

theorem timestamp_raises : Raises IsContractError (timestamp value label) := by
  refine requireString_raises.bind fun text _ => require_raises.bind fun _ _ => ?_
  split
  · exact raises_ok _
  · exact raises_error ⟨_, rfl⟩

theorem requireForm_raises {name : PyStr} {form : PyStr → Bool} {message : String} :
    Raises IsContractError (requireForm request name label form message) :=
  requireString_raises.bind fun _ _ => require_raises.bind fun _ _ => raises_ok _

/-- The binding of a chain is a flat object of texts. -/
theorem computeChainId_raises (h : 0 < rt.maxDepth)
    {baseSha headSha digest evidenceId version profile : PyStr} :
    Raises IsContractError (computeChainId rt baseSha headSha digest evidenceId version profile) := by
  have hflat (fields : List (PyStr × PyStr)) : ∃ octets,
      canonical rt (.dict (fields.map fun e => (e.1, .str e.2))) = .ok octets := by
    obtain ⟨depth, hdepth⟩ : ∃ n, rt.maxDepth = n + 1 := ⟨rt.maxDepth - 1, by omega⟩
    have hentries : ∃ texts, dumpsEntries jsonFloat depth
        (fields.map fun e => (e.1, .str e.2)) = .ok texts := by
      clear hdepth
      induction fields with
      | nil => exact ⟨[], rfl⟩
      | cons e fields ih =>
        obtain ⟨texts, htexts⟩ := ih
        refine ⟨(e.1, jsonString e.2) :: texts, ?_⟩
        rw [List.map_cons, dumpsEntries, dumps, ok_bind, htexts, ok_bind]
    obtain ⟨texts, htexts⟩ := hentries
    refine exists_of_isOk ?_
    rw [canonical, hdepth, dumps, htexts, ok_bind]
    rfl
  obtain ⟨octets, hoctets⟩ := hflat [("repository", producerRepository),
    ("repositoryId", producerRepositoryId), ("baseSha", baseSha), ("candidateHeadSha", headSha),
    ("candidateDiffSha256", digest), ("evidenceId", evidenceId), ("fixedVersion", version),
    ("acceptanceProfile", profile)]
  refine Raises.bind (fun e he => ?_) fun _ _ => raises_ok _
  cases hoctets.symm.trans he

/-- A value without a hash. -/
def isUnhashable (value : Value) : Bool :=
  match value with
  | .list _ | .dict _ => true
  | _ => false

theorem requireEvent_raises (h : isUnhashable value = false) :
    Raises IsContractError (requireEvent value) := by
  unfold requireEvent
  split
  · cases h
  · cases h
  · exact require_raises

theorem requireEvent_of_unhashable (h : isUnhashable value = true) :
    requireEvent value = .error .typeError := by
  unfold isUnhashable at h
  split at h
  · rfl
  · rfl
  · cases h

/-- The request passes the checks before that of its event, and the event has no hash. -/
structure UnhashableRequest (request : Value) : Prop where
  keys : request.hasKeys requestKeys = true
  version : isInt (request.get "schemaVersion") 2 = true
  repository : (request.get "repository").isText producerRepository = true
  repositoryId : (request.get "repositoryId").isText producerRepositoryId = true
  event : isUnhashable (request.get "event") = true

theorem validateRequest_raises {now : Int} (hdepth : 0 < rt.maxDepth)
    (h : ¬ UnhashableRequest request) :
    Raises IsContractError (validateRequest rt request producerRepository now) := by
  refine Raises.bind ?_ fun _ _ => ?_
  · refine require_raises.bind fun _ hkeys => require_raises.bind fun _ hversion => ?_
    refine require_raises.bind fun _ hrepository => require_raises.bind fun _ hid => ?_
    rw [require_eq_ok] at hkeys hversion hrepository hid
    refine Raises.bind ?_ fun _ _ => require_raises
    by_cases hevent : isUnhashable (request.get "event") = true
    · exact absurd ⟨hkeys, hversion, hrepository.2, hid, hevent⟩ h
    · exact requireEvent_raises (Bool.eq_false_iff.mpr hevent)
  · refine requireForm_raises.bind fun _ _ => requireForm_raises.bind fun _ _ => ?_
    refine requireForm_raises.bind fun _ _ => require_raises.bind fun _ _ => ?_
    refine require_raises.bind fun _ _ => requireForm_raises.bind fun _ _ => ?_
    refine requireForm_raises.bind fun _ _ => requireForm_raises.bind fun _ _ => ?_
    refine requireForm_raises.bind fun _ _ => requireForm_raises.bind fun _ _ => ?_
    refine requireForm_raises.bind fun _ _ => require_raises.bind fun _ _ => ?_
    refine Raises.bind ?_ fun _ _ => require_raises.bind fun _ _ => ?_
    · refine timestamp_raises.bind fun _ _ => timestamp_raises.bind fun _ _ => ?_
      exact require_raises.bind fun _ _ => require_raises
    · exact (computeChainId_raises hdepth).bind fun _ _ => require_raises.bind fun _ _ => raises_ok _

theorem validateRequest_of_unhashable {now : Int} (h : UnhashableRequest request) :
    validateRequest rt request producerRepository now = .error .typeError := by
  obtain ⟨hkeys, hversion, hrepository, hid, hevent⟩ := h
  have henvelope : validateEnvelope request producerRepository = .error .typeError := by
    rw [validateEnvelope, exactKeys, require_of hkeys, ok_bind, require_of hversion, ok_bind,
      require_of ⟨rfl, hrepository⟩, ok_bind, require_of hid, ok_bind,
      requireEvent_of_unhashable hevent, error_bind]
  rw [validateRequest, henvelope, error_bind]

theorem validateIntakeResult_raises :
    Raises IsContractError (validateIntakeResult request verified) := by
  refine require_raises.bind fun _ _ => require_raises.bind fun _ _ => ?_
  refine require_raises.bind fun _ _ => (raises_forM fun _ _ => require_raises).bind fun _ _ => ?_
  exact require_raises.bind fun _ _ => require_raises.bind fun _ _ => require_raises

/-- The receipt passes the checks before those of its request, whose event has no hash. -/
structure UnhashableEvent (receipt : Value) : Prop where
  keys : receipt.hasKeys intakeReceiptKeys = true
  version : isInt (receipt.get "schemaVersion") 2 = true
  objects : (receipt.get "request").isDict = true ∧ (receipt.get "verified").isDict = true
  request : UnhashableRequest (receipt.get "request")

theorem verifyIntakeReceipt_raises {checkedAt : Int} (hdepth : 0 < rt.maxDepth)
    (h : ¬ UnhashableEvent receipt) :
    Raises IsContractError (verifyIntakeReceipt rt receipt checkedAt) := by
  refine require_raises.bind fun _ hkeys => require_raises.bind fun _ hversion => ?_
  refine require_raises.bind fun _ hobjects => ?_
  rw [require_eq_ok] at hkeys hversion hobjects
  refine (validateRequest_raises hdepth fun hrequest => h ⟨hkeys, hversion, hobjects, hrequest⟩).bind
    fun _ _ => ?_
  refine validateIntakeResult_raises.bind fun _ _ => require_raises.bind fun _ _ => ?_
  refine require_raises.bind fun _ _ => require_raises.bind fun _ _ => ?_
  exact require_raises.bind fun _ _ => require_raises

theorem verifyIntakeReceipt_of_unhashable {checkedAt : Int} (h : UnhashableEvent receipt) :
    verifyIntakeReceipt rt receipt checkedAt = .error .typeError := by
  obtain ⟨hkeys, hversion, hobjects, hrequest⟩ := h
  rw [verifyIntakeReceipt, exactKeys, require_of hkeys, ok_bind, require_of hversion, ok_bind]
  simp only [require_of hobjects, validateRequest_of_unhashable hrequest, ok_bind, error_bind]

theorem validateMetadataPayload_raises {metadata : Value} {approved : Approved} {checkedAt : Int} :
    Raises IsContractError (validateMetadataPayload metadata approved checkedAt) := by
  refine require_raises.bind fun _ _ => require_raises.bind fun _ _ => ?_
  refine require_raises.bind fun _ _ => require_raises.bind fun _ _ => ?_
  refine require_raises.bind fun _ _ => require_raises.bind fun _ _ => ?_
  refine requireString_raises.bind fun _ _ => require_raises.bind fun _ _ => ?_
  refine require_raises.bind fun _ _ => require_raises.bind fun _ _ => ?_
  refine require_raises.bind fun _ _ => require_raises.bind fun _ _ => ?_
  refine timestamp_raises.bind fun _ _ => timestamp_raises.bind fun _ _ => ?_
  exact timestamp_raises.bind fun _ _ => require_raises.bind fun _ _ => require_raises

theorem validateProfileRegistry_raises {registry : Value} {profileId : PyStr} :
    Raises IsContractError (validateProfileRegistry registry profileId) := by
  refine require_raises.bind fun _ _ => require_raises.bind fun _ _ => ?_
  refine require_raises.bind fun _ _ => (raises_forM fun e _ => ?_).bind fun _ _ => require_raises
  refine require_raises.bind fun _ _ => require_raises.bind fun _ _ => ?_
  refine require_raises.bind fun _ _ => requireString_raises.bind fun _ _ => require_raises

end

/-! ## 4. What the document raises -/

def isSurrogate (c : Nat) : Bool := 0xd800 ≤ c && c ≤ 0xdfff

mutual

/-- What `json.loads` makes: nested in at most `depth` containers, with integers of at most 4300
digits. -/
def isJson : Nat → Value → Bool
  | _, .other => false
  | _, .none | _, .bool _ | _, .float _ | _, .str _ => true
  | _, .int n => (jsonInt n).isOk
  | 0, .list _ | 0, .dict _ => false
  | depth + 1, .list items => areJson depth items
  | depth + 1, .dict entries => areJsonEntries depth entries

def areJson : Nat → List Value → Bool
  | _, [] => true
  | depth, item :: items => isJson depth item && areJson depth items

def areJsonEntries : Nat → List (PyStr × Value) → Bool
  | _, [] => true
  | depth, (_, value) :: entries => isJson depth value && areJsonEntries depth entries

end

mutual

/-- Every float can be written: it is finite. -/
def isWritable : Value → Bool
  | .float x => (jsonFloat x).isOk
  | .list items => areWritable items
  | .dict entries => areWritableEntries entries
  | _ => true

def areWritable : List Value → Bool
  | [] => true
  | item :: items => isWritable item && areWritable items

def areWritableEntries : List (PyStr × Value) → Bool
  | [] => true
  | (_, value) :: entries => isWritable value && areWritableEntries entries

end

mutual

/-- There is a surrogate in a text of the value or in a key. -/
def hasSurrogate : Value → Bool
  | .str s => s.codePoints.any isSurrogate
  | .list items => haveSurrogate items
  | .dict entries => haveSurrogateEntries entries
  | _ => false

def haveSurrogate : List Value → Bool
  | [] => false
  | item :: items => hasSurrogate item || haveSurrogate items

def haveSurrogateEntries : List (PyStr × Value) → Bool
  | [] => false
  | (key, value) :: entries =>
    key.codePoints.any isSurrogate || hasSurrogate value || haveSurrogateEntries entries

end

theorem any_points (octets : Bytes) : (Json.points octets).any isSurrogate = false := by
  rw [List.any_eq_false]
  intro c hc
  obtain ⟨b, -, rfl⟩ := List.mem_map.mp hc
  have hb := b.toNat_lt
  simp only [isSurrogate, Bool.and_eq_true, decide_eq_true_eq]
  omega

/-- The escapes of a text hide no surrogate and make none. -/
theorem any_rawString (s : PyStr) :
    (rawString s).any isSurrogate = s.codePoints.any isSurrogate := by
  have hone (v : Nat) : (rawEscape v).any isSurrogate = isSurrogate v := by
    unfold rawEscape
    split
    · next h =>
      rw [any_points]
      rcases h with rfl | rfl | h
      · rfl
      · rfl
      · exact (Bool.and_eq_false_iff.mpr (Or.inl (decide_eq_false (by omega)))).symm
    · simp
  have hall (text : List Nat) : (text.flatMap rawEscape).any isSurrogate = text.any isSurrogate := by
    induction text with
    | nil => rfl
    | cons v text ih => rw [List.flatMap_cons, List.any_append, hone, ih, List.any_cons]
  rw [rawString, List.any_append, List.any_append, hall]
  have hquote : [34].any isSurrogate = false := by decide
  rw [hquote, Bool.false_or, Bool.or_false]

theorem any_joinPoints (texts : List (List Nat)) :
    (joinPoints texts).any isSurrogate = texts.any fun text => text.any isSurrogate := by
  have hcomma : [44].any isSurrogate = false := by decide
  induction texts with
  | nil => rfl
  | cons x rest ih => cases rest with
    | nil => simp [joinPoints]
    | cons y rest =>
      have hjoin : joinPoints (x :: y :: rest) = x ++ [44] ++ joinPoints (y :: rest) := rfl
      rw [hjoin, List.any_append, List.any_append, hcomma, ih, Bool.or_false]
      rfl

theorem any_sortByKey (texts : List (PyStr × List Nat)) (p : PyStr × List Nat → Bool) :
    (sortByKey texts).any p = texts.any p := by
  rw [Bool.eq_iff_iff, List.any_eq_true, List.any_eq_true]
  exact exists_congr fun e => and_congr_left fun _ => (List.perm_insertionSort _ _).mem_iff

theorem jsonFloat_error {x : PyFloat} (h : (jsonFloat x).isOk = false) :
    ∃ message, jsonFloat x = .error (.valueError message) := by
  unfold jsonFloat at h ⊢
  split
  · exact ⟨_, rfl⟩
  · next hfinite =>
    rw [if_neg hfinite] at h
    cases h

/-- A rendered text has a surrogate exactly if the value has one, and a value is rendered unless it
holds a float that cannot be written. -/
def Renders {α : Type} (writable surrogate : Bool) (any : α → Bool) (x : Py α) : Prop :=
  (writable = true → ∃ text, x = .ok text ∧ any text = surrogate) ∧
    (writable = false → ∃ message, x = .error (.valueError message))

section

variable {α β : Type} {any : α → Bool} {any' : β → Bool} {w w' s s' : Bool} {x : Py α}

theorem Renders.ok {a : α} (h : any a = s) : Renders true s any (.ok a) :=
  ⟨fun _ => ⟨a, rfl, h⟩, nofun⟩

/-- What is made of a rendered text. -/
theorem Renders.map (h : Renders w s any x) {f : α → β} (hf : ∀ a, any' (f a) = any a) :
    Renders w s any' (x >>= fun a => .ok (f a)) := by
  refine ⟨fun hw => ?_, fun hw => ?_⟩
  · obtain ⟨a, rfl, ha⟩ := h.1 hw
    exact ⟨f a, rfl, (hf a).trans ha⟩
  · obtain ⟨message, rfl⟩ := h.2 hw
    exact ⟨message, rfl⟩

/-- One text after another. -/
theorem Renders.both {γ : Type} {any'' : γ → Bool} {y : Py β} (h : Renders w s any x)
    (h' : Renders w' s' any' y) {f : α → β → γ} (hf : ∀ a b, any'' (f a b) = (any a || any' b)) :
    Renders (w && w') (s || s') any'' (x >>= fun a => y >>= fun b => .ok (f a b)) := by
  refine ⟨fun hw => ?_, fun hw => ?_⟩
  · rw [Bool.and_eq_true] at hw
    obtain ⟨a, rfl, ha⟩ := h.1 hw.1
    obtain ⟨b, rfl, hb⟩ := h'.1 hw.2
    exact ⟨f a b, rfl, by rw [hf, ha, hb]⟩
  · cases hx : w with
    | true =>
      obtain ⟨a, rfl, -⟩ := h.1 hx
      rw [hx, Bool.true_and] at hw
      obtain ⟨message, rfl⟩ := h'.2 hw
      exact ⟨message, rfl⟩
    | false =>
      obtain ⟨message, rfl⟩ := h.2 hx
      exact ⟨message, rfl⟩

end

mutual

theorem render_spec : (depth : Nat) → (value : Value) → isJson depth value = true →
    Renders (isWritable value) (hasSurrogate value) (·.any isSurrogate) (render depth value)
  | _, .none, _ => .ok rfl
  | _, .bool true, _ => .ok rfl
  | _, .bool false, _ => .ok rfl
  | _, .int n, h => by
    obtain ⟨octets, hoctets⟩ := exists_of_isOk (x := jsonInt n) (by simpa only [isJson] using h)
    simp only [render, isWritable, hasSurrogate, hoctets, ok_bind]
    exact .ok (any_points octets)
  | _, .float x, _ => by
    simp only [render, isWritable, hasSurrogate]
    refine ⟨fun h => ?_, fun h => ?_⟩
    · obtain ⟨octets, hoctets⟩ := exists_of_isOk h
      exact ⟨_, by rw [hoctets, ok_bind], any_points octets⟩
    · obtain ⟨message, hmessage⟩ := jsonFloat_error h
      exact ⟨message, by rw [hmessage, error_bind]⟩
  | _, .str s, _ => by
    simp only [render, isWritable, hasSurrogate]
    exact .ok (any_rawString s)
  | 0, .list _, h => nomatch h
  | depth + 1, .list items, h => by
    simp only [render, isWritable, hasSurrogate]
    refine (renderList_spec depth items h).map fun texts => ?_
    simp [any_joinPoints, isSurrogate]
  | 0, .dict _, h => nomatch h
  | depth + 1, .dict entries, h => by
    simp only [render, isWritable, hasSurrogate]
    refine (renderEntries_spec depth entries h).map fun texts => ?_
    simp only [List.any_append, any_joinPoints, List.any_map]
    rw [any_sortByKey]
    simp only [Function.comp_def, List.any_append, any_rawString]
    simp [isSurrogate]
  | _, .other, h => by simp [isJson] at h

theorem renderList_spec : (depth : Nat) → (items : List Value) → areJson depth items = true →
    Renders (areWritable items) (haveSurrogate items) (·.any fun text => text.any isSurrogate)
      (renderList depth items)
  | _, [], _ => .ok rfl
  | depth, item :: items, h => by
    rw [areJson, Bool.and_eq_true] at h
    rw [renderList, areWritable, haveSurrogate]
    exact (render_spec depth item h.1).both (renderList_spec depth items h.2) fun _ _ => rfl

theorem renderEntries_spec : (depth : Nat) → (entries : List (PyStr × Value)) →
    areJsonEntries depth entries = true →
    Renders (areWritableEntries entries) (haveSurrogateEntries entries)
      (·.any fun e => e.1.codePoints.any isSurrogate || e.2.any isSurrogate)
      (renderEntries depth entries)
  | _, [], _ => .ok rfl
  | depth, (key, value) :: entries, h => by
    rw [areJsonEntries, Bool.and_eq_true] at h
    have hvalue := render_spec depth value h.1
    have hkey : Renders (isWritable value) (key.codePoints.any isSurrogate || hasSurrogate value)
        (fun text => key.codePoints.any isSurrogate || text.any isSurrogate) (render depth value) := by
      refine ⟨fun hw => ?_, hvalue.2⟩
      obtain ⟨text, htext, hany⟩ := hvalue.1 hw
      exact ⟨text, htext, congrArg (key.codePoints.any isSurrogate || ·) hany⟩
    rw [renderEntries, areWritableEntries, haveSurrogateEntries]
    exact hkey.both (renderEntries_spec depth entries h.2) fun _ _ => rfl

end

/-- The strict codec refuses surrogates, and nothing else. -/
theorem encode_isOk (text : List Nat) : encode ⟨text⟩ =
    .error .unicodeError ∧ text.any isSurrogate = true ∨
      (encode ⟨text⟩).isOk = true ∧ text.any isSurrogate = false := by
  have hpoint (v : Nat) : (utf8EncodePoint v).isSome = !isSurrogate v := by
    unfold utf8EncodePoint isSurrogate
    split_ifs with h1 h2 h3 h4
    · simp; omega
    · simp; omega
    · simp [h3]
    · simp; omega
    · simp; omega
  have hall (text : List Nat) : (text.mapM utf8EncodePoint).isSome = !text.any isSurrogate := by
    induction text with
    | nil => rfl
    | cons v text ih =>
      rw [List.any_cons, Bool.not_or, ← ih, ← hpoint, List.mapM_cons]
      cases utf8EncodePoint v with
      | none => rfl
      | some octets => cases text.mapM utf8EncodePoint <;> rfl
  have htext := hall text
  unfold encode PyStr.utf8Encode
  cases hoctets : text.mapM utf8EncodePoint with
  | none =>
    rw [hoctets] at htext
    exact Or.inl ⟨rfl, by simpa using htext.symm⟩
  | some octets =>
    rw [hoctets] at htext
    exact Or.inr ⟨rfl, by simpa using htext.symm⟩

section

variable {rt : Runtime} {value : Value}

theorem canonicalDocumentBytes_raises (hjson : isJson rt.maxDepth value = true)
    (h : ¬ (isWritable value = true ∧ hasSurrogate value = true)) :
    Raises IsContractError (canonicalDocumentBytes rt value) := by
  refine Raises.bind ?_ fun _ _ => raises_ok _
  have hrenders := render_spec rt.maxDepth value hjson
  unfold canonicalJsonBytes
  cases hwritable : isWritable value with
  | true =>
    obtain ⟨text, htext, hany⟩ := hrenders.1 hwritable
    rw [htext]
    rcases encode_isOk text with ⟨-, hsurrogate⟩ | ⟨hok, -⟩
    · exact absurd ⟨hwritable, hany ▸ hsurrogate⟩ h
    · obtain ⟨octets, hoctets⟩ := exists_of_isOk hok
      exact fun e he => nomatch hoctets.symm.trans he
  | false =>
    obtain ⟨message, hmessage⟩ := hrenders.2 hwritable
    rw [hmessage]
    exact raises_error ⟨_, rfl⟩

theorem canonicalDocumentBytes_of_surrogate (hjson : isJson rt.maxDepth value = true)
    (hwritable : isWritable value = true) (hsurrogate : hasSurrogate value = true) :
    canonicalDocumentBytes rt value = .error .unicodeError := by
  obtain ⟨text, htext, hany⟩ := (render_spec rt.maxDepth value hjson).1 hwritable
  rcases encode_isOk text with ⟨hencode, -⟩ | ⟨-, hnone⟩
  · rw [canonicalDocumentBytes, canonicalJsonBytes, htext]
    simp only [hencode, error_bind]
  · exact absurd (hany.symm.trans hnone) (by rw [hsurrogate]; decide)

end

/-! ## 5. The errors -/

/-- **The errors of the contract.**  On JSON objects the validators return or raise a
`ContractError`, except that a receipt may have an event without a hash, and so does the canonical
document, except that it may hold a surrogate. -/
theorem contract_errors_iff (rt : Runtime) (receipt metadata registry value : Value)
    (approved : Approved) (profileId : PyStr) (checkedAt : Int)
    (hreceipt : receipt.isDict = true ∧ isJson rt.maxDepth receipt = true)
    (_hmetadata : metadata.isDict = true) (_hregistry : registry.isDict = true)
    (hvalue : isJson rt.maxDepth value = true) :
    (Raises IsContractError (verifyIntakeReceipt rt receipt checkedAt) ∧
      Raises IsContractError (validateMetadataPayload metadata approved checkedAt) ∧
      Raises IsContractError (validateProfileRegistry registry profileId) ∧
      Raises IsContractError (canonicalDocumentBytes rt value)) ↔
    ¬ UnhashableEvent receipt ∧ ¬ (isWritable value = true ∧ hasSurrogate value = true) := by
  constructor
  · rintro ⟨hverify, -, -, hdocument⟩
    constructor
    · intro hevent
      obtain ⟨_, h⟩ := hverify _ (verifyIntakeReceipt_of_unhashable hevent)
      cases h
    · rintro ⟨hwritable, hsurrogate⟩
      obtain ⟨_, h⟩ := hdocument _ (canonicalDocumentBytes_of_surrogate hvalue hwritable hsurrogate)
      cases h
  · rintro ⟨hevent, hdocument⟩
    have hdepth : 0 < rt.maxDepth := by
      obtain ⟨hdict, hjson⟩ := hreceipt
      cases receipt with
      | dict entries =>
        by_contra hzero
        rw [Nat.eq_zero_of_not_pos hzero] at hjson
        cases hjson
      | _ => cases hdict
    exact ⟨verifyIntakeReceipt_raises hdepth hevent, validateMetadataPayload_raises,
      validateProfileRegistry_raises, canonicalDocumentBytes_raises hvalue hdocument⟩

/-- A runtime that gives up at 1000 containers. -/
def sampleInterpreter : Runtime := ⟨fun _ => "", 1000, fun s => ⟨s, none⟩, []⟩

theorem contract_errors_sample :
    Raises IsContractError (canonicalDocumentBytes sampleInterpreter (.dict [("a", .str "b")])) := by
  have hevent : ¬ UnhashableEvent (.dict []) := fun h => nomatch h.version
  have hplain : ¬ (isWritable (.dict [("a", .str "b")]) = true ∧
      hasSurrogate (.dict [("a", .str "b")]) = true) := by decide +kernel
  exact ((contract_errors_iff sampleInterpreter (.dict []) (.dict []) (.dict [])
    (.dict [("a", .str "b")]) ⟨"", "", ""⟩ "" 0 ⟨rfl, rfl⟩ rfl rfl rfl).mpr
    ⟨hevent, hplain⟩).2.2.2

/-- A receipt whose request has a list for its event. -/
def sampleUnhashable : Value :=
  let request : Value := .dict (requestKeys.map fun key => (key,
    if key = "schemaVersion" then .int 2 else if key = "repository" then .str producerRepository
    else if key = "repositoryId" then .str producerRepositoryId else .list []))
  .dict (intakeReceiptKeys.map fun key => (key,
    if key = "schemaVersion" then .int 2 else if key = "request" then request else .dict []))

/-- The event is asked for its hash, and a lone surrogate is encoded. -/
theorem contract_errors_counterexample :
    (¬ ∀ receipt, receipt.isDict = true → isJson sampleInterpreter.maxDepth receipt = true →
      Raises IsContractError (verifyIntakeReceipt sampleInterpreter receipt 0)) ∧
    ¬ ∀ value, isJson sampleInterpreter.maxDepth value = true →
      Raises IsContractError (canonicalDocumentBytes sampleInterpreter value) := by
  constructor
  · intro h
    have hevent : UnhashableEvent sampleUnhashable :=
      ⟨by decide +kernel, by decide +kernel, by decide +kernel,
        ⟨by decide +kernel, by decide +kernel, by decide +kernel, by decide +kernel,
          by decide +kernel⟩⟩
    obtain ⟨_, he⟩ := h sampleUnhashable (by decide +kernel) (by decide +kernel) _
      (verifyIntakeReceipt_of_unhashable hevent)
    cases he
  · intro h
    have hsurrogate : canonicalDocumentBytes sampleInterpreter (.dict [("a", .str ⟨[0xd800]⟩)]) =
        .error .unicodeError :=
      canonicalDocumentBytes_of_surrogate rfl (by decide +kernel) (by decide +kernel)
    obtain ⟨_, he⟩ := h _ rfl _ hsurrogate
    cases he

end Supplementary.Security
