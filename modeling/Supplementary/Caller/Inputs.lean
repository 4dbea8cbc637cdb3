/-
# What the one-shot caller checks before it spends anything

`inspect_context`, `validate_inputs`, `canonical` and `decode` of the REP-120 caller.  A `Held` and a
`HeldContext` are `ValueError`s.  The clock is read by the caller of `validate_inputs`; an instant is
an exact number.
-/
import Supplementary.Keycloak.Migration
import Supplementary.Python.Json
import Supplementary.Python.Token

namespace Supplementary.Caller

open Supplementary PyStr

/-! ## 1. Messages -/

def magic : Bytes := bytes "LIT178T1"
def trailer : Bytes := bytes "LIT178END"
def schema : PyStr := "lit-li178-one-shot-transport/v1"
def maxBody : Nat := 1048576
def maxOidc : Nat := 16384

/-- `raise Held(message)` unless a condition holds. -/
def hold (condition : Prop) [Decidable condition] (message : String) : Py Unit :=
  raiseUnless (.valueError message) condition

/-- `except (ValueError, TypeError, RecursionError, UnicodeError)`, with what it raises. -/
def asHeld {α : Type} (message : String) : Py α → Py α
  | .ok a => .ok a
  | .error e =>
    if e.isValueError || e = .typeError || e = .recursionError then .error (.valueError message)
    else .error e

/-- `canonical(value)`. -/
def canonical (rt : Runtime) (value : Value) : Py Bytes := asHeld "invalid message" do
  let data := (← Supplementary.canonical rt value) ++ [10]
  hold (0 < data.length ∧ data.length ≤ maxBody) ""
  return data

/-- `pairs` and `constant` raise a `ValueError`. -/
def strictHooks : Json.Hooks := ⟨.valueError "", some (.valueError "")⟩

/-- `decode(data)`. -/
def decode (rt : Runtime) (data : Bytes) : Py Value := asHeld "invalid message" do
  let value ← match utf8Decode data with
    | none => .error .unicodeError
    | some points => Json.loads rt strictHooks ⟨points⟩
  hold (value.isDict = true) ""
  return value

/-! ## 2. Base64 -/

def base64Alphabet : PyStr := "ABCDEFGHIJKLMNOPQRSTUVWXYZabcdefghijklmnopqrstuvwxyz0123456789+/"

def sextet (n : Nat) : Nat := (base64Alphabet.codePoints.drop n).headD 0

def sextet? (c : Nat) : Option Nat := base64Alphabet.codePoints.idxOf? c

/-- `base64.b64encode(raw)`. -/
def b64encode : Bytes → List Nat
  | [] => []
  | [a] => [sextet (a.toNat / 4), sextet (a.toNat % 4 * 16), 61, 61]
  | [a, b] => [sextet (a.toNat / 4), sextet (a.toNat % 4 * 16 + b.toNat / 16),
      sextet (b.toNat % 16 * 4), 61]
  | a :: b :: c :: rest => [sextet (a.toNat / 4), sextet (a.toNat % 4 * 16 + b.toNat / 16),
      sextet (b.toNat % 16 * 4 + c.toNat / 64), sextet (c.toNat % 64)] ++ b64encode rest

/-- `base64.b64decode(contents, validate=True)`; `none` is the `binascii.Error`.  Bits that are left
over are dropped. -/
def b64decode : List Nat → Option Bytes
  | [] => some []
  | a :: b :: c :: d :: rest => do
    let a ← sextet? a
    let b ← sextet? b
    let first := (a * 4 + b / 16).toUInt8
    if c = 61 ∧ d = 61 ∧ rest = [] then return [first]
    let c ← sextet? c
    let second := (b % 16 * 16 + c / 4).toUInt8
    if d = 61 ∧ rest = [] then return [first, second]
    let d ← sextet? d
    return [first, second, (c % 4 * 64 + d).toUInt8] ++ (← b64decode rest)
  | _ => none

/-- The contents that are taken: the encoding of something, as `b64encode` writes it. -/
def isEncoding (contents : PyStr) : Bool := match b64decode contents.codePoints with
  | some raw => raw ≠ [] && b64encode raw = contents.codePoints
  | none => false

/-! ## 3. The context -/

def repository : PyStr := "lightning-it/ansible-collection-supplementary"
def workflow : PyStr := ".github/workflows/rep120-ledger-caller.yml"
def ref : PyStr := "refs/heads/main"

def requestFields : List PyStr := ["expected_head", "operation_key", "path", "contents", "run_id",
  "approval_id", "expires_at"]

def contextFields : List PyStr := ["GITHUB_REPOSITORY", "GITHUB_REPOSITORY_ID",
  "GITHUB_REPOSITORY_OWNER_ID", "GITHUB_REF", "GITHUB_SHA", "GITHUB_WORKFLOW_REF",
  "GITHUB_WORKFLOW_SHA", "GITHUB_RUN_ID", "GITHUB_RUN_ATTEMPT", "GITHUB_EVENT_NAME", "GITHUB_ACTOR",
  "GITHUB_ACTOR_ID", "GITHUB_TRIGGERING_ACTOR", "GITHUB_REF_PROTECTED"]

def expectedContext : List (PyStr × PyStr) := [("GITHUB_REPOSITORY", repository),
  ("GITHUB_REPOSITORY_ID", "1103407173"), ("GITHUB_REPOSITORY_OWNER_ID", "54334171"),
  ("GITHUB_REF", ref), ("GITHUB_WORKFLOW_REF", repository ++ "/" ++ workflow ++ "@" ++ ref),
  ("GITHUB_RUN_ATTEMPT", "1"), ("GITHUB_ACTOR", "litroc"), ("GITHUB_ACTOR_ID", "76040632"),
  ("GITHUB_TRIGGERING_ACTOR", "litroc"), ("GITHUB_REF_PROTECTED", "true")]

/-- `exact_type(value, str)`, with a check on its text. -/
def isStr (check : PyStr → Bool) : Value → Bool
  | .str s => check s
  | _ => false

/-- `[1-9][0-9]{0,15}`. -/
def isRunId (s : PyStr) : Bool :=
  1 ≤ s.length && s.length ≤ 16 && s.codePoints.all PyStr.isDigit && s.codePoints.head? ≠ some 48

/-- The number that a run of digits denotes. -/
def numberOf (s : PyStr) : Nat := Json.decimal s.codePoints

/-- The text of a value that has been checked to be one. -/
def textOf : Value → PyStr
  | .str s => s
  | _ => ""

def maxSafe : Nat := 2 ^ 53 - 1

/-- `inspect_context(environ)`. -/
def inspectContext (environ : Value) : Py Value := do
  let context : Value := .dict (contextFields.map fun key => (key, environ.getD key (.str "")))
  hold (contextFields.all fun key => isStr (fun s => s.length ≤ 256) (context.get key))
    "missing or malformed caller metadata"
  hold (expectedContext.all fun e => (context.get e.1).isText e.2) "caller metadata identity mismatch"
  let sha := context.get "GITHUB_SHA"
  let runId := context.get "GITHUB_RUN_ID"
  hold (isStr (PyStr.isHex 40) sha = true ∧ (context.get "GITHUB_WORKFLOW_SHA").isText (textOf sha) = true ∧
      isStr isRunId runId = true ∧ numberOf (textOf runId) ≤ maxSafe ∧
      (context.get "GITHUB_EVENT_NAME").isTextOf ["push", "workflow_dispatch"] = true)
    "caller metadata revision/run mismatch"
  return context

/-! ## 4. The inputs -/

def envelopeFields : List PyStr := ["schema", "nonce", "operation_key", "config_sha256", "source_sha",
  "resource_sha256", "request"]

def deliveryFields : List PyStr := ["ipv4", "port", "public_pem", "leaf_sha256", "expires_at"]

/-- `exact_type(value, int)`. -/
def isInt : Value → Bool
  | .int _ => true
  | _ => false

/-- `exact_type(value, int) and low <= value <= high`. -/
def isIntIn (low high : Int) : Value → Bool
  | .int n => low ≤ n && n ≤ high
  | _ => false

/-- The number of a value that has been checked to be one. -/
def intValue : Value → Int
  | .int n => n
  | _ => 0

/-- `str(ipaddress.IPv4Address(value)) == value`. -/
def isAddress (s : PyStr) : Bool := match Keycloak.ipv4 s with
  | .ok octets => Keycloak.ipv4Text octets = s
  | .error _ => false

/-- What `rstrip` drops of an ASCII text. -/
def isBlank (c : Nat) : Bool := (9 ≤ c && c ≤ 13) || (28 ≤ c && c ≤ 32)

/-- `pem.rstrip()`; that a text has no other characters is checked in the same condition. -/
def rstrip (s : PyStr) : PyStr := ⟨(s.codePoints.reverse.dropWhile isBlank).reverse⟩

/-- One public certificate. -/
def isCertificate (pem : PyStr) : Bool :=
  1 ≤ pem.length && pem.length ≤ maxOidc && pem.startsWith "-----BEGIN CERTIFICATE-----\n" &&
    (rstrip pem).endsWith "-----END CERTIFICATE-----" && pem.count "-----BEGIN" = 1 &&
    pem.codePoints.all fun c => c < 128

/-- `ledger/operations/<key>/(record|[0-9]{4})\.json`. -/
def isAppendPath (key path : PyStr) : Bool :=
  let start := "ledger/operations/" ++ key ++ "/"
  let name : PyStr := ⟨path.codePoints.drop start.length⟩
  path.startsWith start && (name = "record.json" ||
    (name.length = 9 && (name.codePoints.take 4).all PyStr.isDigit && name.endsWith ".json"))

/-- The append plan: there is none, or it is one file. -/
def checkAppend (key : PyStr) (path contents : Value) : Py Unit :=
  if path.isNone = true ∧ contents.isNone = true then .ok () else do
    hold (isStr (isAppendPath key) path = true ∧ isStr (fun _ => true) contents = true)
      "invalid append path"
    hold (isStr isEncoding contents = true) "invalid append encoding"

/-- The delivery binding. -/
def checkDelivery (delivery : Value) (now : ℚ) : Py Unit := do
  hold (delivery.isDict = true ∧ delivery.hasKeys deliveryFields = true) "missing delivery binding"
  hold (isStr isAddress (delivery.get "ipv4") = true ∧ isIntIn 1 65535 (delivery.get "port") = true)
    "invalid address"
  hold (isStr (PyStr.isHex 64) (delivery.get "leaf_sha256") = true) "invalid certificate pin"
  hold (isStr isCertificate (delivery.get "public_pem") = true) "invalid public certificate"
  let expiry := delivery.get "expires_at"
  hold (isInt expiry = true ∧ now < intValue expiry ∧ intValue expiry ≤ now + 300) "expired delivery"

/-- The request of an envelope. -/
def checkRequest (envelope observed : Value) (expiry : Int) (now : ℚ) : Py Unit := do
  let request := envelope.get "request"
  let key := textOf (envelope.get "operation_key")
  hold (request.isDict = true ∧ request.hasKeys requestFields = true) "invalid request fields"
  hold ((request.get "operation_key").isText key = true ∧
    isStr (PyStr.isHex 40) (request.get "expected_head") = true) "request binding mismatch"
  hold ((["run_id", "approval_id", "expires_at"] : List PyStr).all fun field =>
    isIntIn 1 maxSafe (request.get field)) "invalid request identity"
  hold (intValue (request.get "run_id") = numberOf (textOf (observed.get "GITHUB_RUN_ID")) ∧
    now < intValue (request.get "expires_at") ∧ intValue (request.get "expires_at") ≤ expiry)
    "request run/deadline mismatch"
  checkAppend key (request.get "path") (request.get "contents")

/-- The longest token there is. -/
def longestToken : PyStr := ⟨List.replicate maxOidc 120⟩

/-- `validate_inputs(delivery, envelope, context, now)`. -/
def validateInputs (rt : Runtime) (delivery envelope context : Value) (now : ℚ) : Py Unit := do
  let observed ← inspectContext context
  hold ((observed.get "GITHUB_EVENT_NAME").isText "workflow_dispatch" = true) "manual caller required"
  checkDelivery delivery now
  hold (envelope.isDict = true ∧ envelope.hasKeys envelopeFields = true ∧
    (envelope.get "schema").isText schema = true) "invalid nonsecret envelope"
  hold ((["nonce", "operation_key", "config_sha256", "source_sha", "resource_sha256"] : List PyStr).all
    fun name => isStr (PyStr.isHex (if name = "source_sha" then 40 else 64)) (envelope.get name))
    "invalid envelope binding"
  hold ((envelope.get "source_sha").isText (textOf (observed.get "GITHUB_SHA")) = true)
    "caller source mismatch"
  checkRequest envelope observed (intValue (delivery.get "expires_at")) now
  let _ ← canonical rt (envelope.set "oidc" (.str longestToken))

end Supplementary.Caller
