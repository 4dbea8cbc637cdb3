/-
# The routing of the token request

`oidc_path_hold_reason`, `oidc_endpoint` and `oidc_capability` of the REP-120 caller, with what they
use of `urllib.parse` on a text of printable ASCII characters.  A field of a query is compared with
ASCII texts only, so its decoded octets are kept, and not the text they stand for.
-/
import Supplementary.Caller.Inputs

namespace Supplementary.Caller

open Supplementary PyStr

/-! ## 1. Reasons -/

inductive OidcHoldReason
  | urlMissing
  | urlFormat
  | urlHttps
  | urlUserinfo
  | urlPort
  | urlFragment
  | urlHost
  | urlPath
  | urlPathOriginForm
  | urlPathEscape
  | urlPathSyntax
  | urlPathDotSegment
  | urlPathControl
  | urlPathSeparator
  | urlPathDoubleEncoding
  | urlQuery
  | bearerMissing
  | bearerFormat
  | bearerLength
  | bearerAscii
  deriving DecidableEq

/-! ## 2. Paths -/

/-- `[0-9A-Fa-f]`, with its value. -/
def hexDigit? (c : Nat) : Option Nat :=
  if PyStr.isDigit c then some (c - 48)
  else if 65 ≤ c ∧ c ≤ 70 then some (c - 55)
  else if 97 ≤ c ∧ c ≤ 102 then some (c - 87)
  else none

/-- `unquote_to_bytes(text)`. -/
def unquoteToBytes : List Nat → Bytes
  | 37 :: a :: b :: rest => match hexDigit? a, hexDigit? b with
    | some high, some low => (16 * high + low).toUInt8 :: unquoteToBytes rest
    | _, _ => 37 :: unquoteToBytes (a :: b :: rest)
  | c :: rest => c.toUInt8 :: unquoteToBytes rest
  | [] => []

/-- `%[0-9A-Fa-f]{2}` at the start of a text. -/
def startsEscape : List Nat → Bool
  | 37 :: a :: b :: _ => (hexDigit? a).isSome && (hexDigit? b).isSome
  | _ => false

/-- `[A-Za-z0-9._~!$&'()*+,;=:@-]`, and the slash. -/
def isPathChar (c : Nat) : Bool :=
  isUpper c || isLower c || PyStr.isDigit c ||
    c ∈ ("._~!$&'()*+,;=:@-/" : PyStr).codePoints

/-- `(?:{pchar}|/)*`: every percent sign starts an escape. -/
def isPathText : List Nat → Bool
  | [] => true
  | c :: rest => (isPathChar c || startsEscape (c :: rest)) && isPathText rest

/-- `%(?![0-9A-Fa-f]{2})` somewhere. -/
def hasBadEscape : List Nat → Bool
  | [] => false
  | c :: rest => (c = 37 && !startsEscape (c :: rest)) || hasBadEscape rest

/-- What is wrong with a decoded segment. -/
def segmentReason (decoded : Bytes) : Option OidcHoldReason :=
  if decoded = bytes "." ∨ decoded = bytes ".." then some .urlPathDotSegment
  else if decoded.any (fun b => b < 33 || b = 127) then some .urlPathControl
  else if decoded.any (fun b => b = 47 || b = 92) then some .urlPathSeparator
  else if 37 ∈ decoded then some .urlPathDoubleEncoding
  else none

/-- `oidc_path_hold_reason(path)`. -/
def oidcPathHoldReason (path : PyStr) : Option OidcHoldReason :=
  if path.startsWith "/" = false ∨ path.startsWith "//" = true then some .urlPathOriginForm
  else if isPathText path.codePoints = false then
    if hasBadEscape path.codePoints then some .urlPathEscape else some .urlPathSyntax
  else ((path.split '/').drop 1).findSome? fun segment =>
    segmentReason (unquoteToBytes segment.codePoints)

/-! ## 3. URLs -/

/-- `text.partition(c)`; `none` where there is none. -/
def partitionAt (c : Nat) (s : List Nat) : List Nat × Option (List Nat) :=
  match s.span (· ≠ c) with
  | (before, _ :: after) => (before, some after)
  | (before, []) => (before, none)

/-- `text.rpartition("@")`: what is before the last one, if there is one, and what is after it. -/
def userAndHost (netloc : List Nat) : Option (List Nat) × List Nat :=
  match netloc.reverse.span (· ≠ 64) with
  | (after, _ :: before) => (some before.reverse, after.reverse)
  | (_, []) => (none, netloc)

/-- The parts of `urlsplit(url)`. -/
structure SplitResult where
  scheme : List Nat
  netloc : List Nat
  path : List Nat
  query : List Nat
  fragment : List Nat

/-- `[A-Za-z0-9+.-]`. -/
def isSchemeChar (c : Nat) : Bool :=
  isUpper c || isLower c || PyStr.isDigit c || c = 43 || c = 45 || c = 46

def lowerCase (s : List Nat) : List Nat := s.map fun c => if isUpper c then c + 32 else c

/-- The scheme in front of a URL, and the rest. -/
def splitScheme (url : List Nat) : List Nat × List Nat :=
  match partitionAt 58 url with
  | (scheme, some rest) =>
    if scheme.head?.any (fun c => isUpper c || isLower c) && scheme.all isSchemeChar then
      (lowerCase scheme, rest)
    else ([], url)
  | (_, none) => ([], url)

/-- What the caller uses of its interpreter: `isIpLiteral` tells of a host with brackets whether
`urlsplit` takes what is in them for an address. -/
structure Platform where
  rt : Runtime
  isIpLiteral : List Nat → Bool

/-- `urlsplit(url)`. -/
def urlsplit (platform : Platform) (url : List Nat) : Py SplitResult := do
  let (scheme, rest) := splitScheme url
  let (netloc, rest) := match rest with
    | 47 :: 47 :: rest => rest.span fun c => c ≠ 47 ∧ c ≠ 63 ∧ c ≠ 35
    | _ => ([], rest)
  hold ((91 ∈ netloc ↔ 93 ∈ netloc) ∧ (91 ∈ netloc → platform.isIpLiteral netloc = true))
    "Invalid IPv6 URL"
  let (rest, fragment) := partitionAt 35 rest
  let (path, query) := partitionAt 63 rest
  return ⟨scheme, netloc, path, query.getD [], fragment.getD []⟩

namespace SplitResult

variable (url : SplitResult)

/-- `_hostinfo`: the host, and the port if there is one. -/
def hostinfo : List Nat × Option (List Nat) :=
  let host := (userAndHost url.netloc).2
  let (name, port) := match partitionAt 91 host with
    | (_, some bracketed) =>
      let (name, rest) := partitionAt 93 bracketed
      (name, (partitionAt 58 (rest.getD [])).2)
    | (_, none) => partitionAt 58 host
  (name, if port = some [] then none else port)

/-- `url.hostname or ""`: what follows a percent sign keeps its case. -/
def hostname : List Nat :=
  let (name, zone) := partitionAt 37 url.hostinfo.1
  lowerCase name ++ (zone.map fun zone => 37 :: zone).getD []

/-- `url.username is not None or url.password is not None`. -/
def hasUserinfo : Bool := (userAndHost url.netloc).1.isSome

/-- `url.port`. -/
def port : Py (Option Nat) :=
  match url.hostinfo.2 with
  | none => .ok none
  | some digits => do
    hold (digits.all PyStr.isDigit = true) "Port could not be cast to integer value"
    hold (Json.decimal digits ≤ 65535) "Port out of range 0-65535"
    return some (Json.decimal digits)

end SplitResult

/-- `text.replace("+", " ")`. -/
def plusToSpace (s : List Nat) : List Nat := s.map fun c => if c = 43 then 32 else c

/-- `parse_qsl(query, keep_blank_values=True, strict_parsing=True)`. -/
def parseQsl (query : List Nat) : Py (List (Bytes × Bytes)) :=
  if query = [] then .ok [] else
    (query.splitOn 38).mapM fun field => match partitionAt 61 field with
      | (name, some value) =>
        .ok (unquoteToBytes (plusToSpace name), unquoteToBytes (plusToSpace value))
      | (_, none) => .error (.valueError "bad query field")

/-! ## 4. The capability -/

/-- `[a-z0-9-]`. -/
def isLabelChar (c : Nat) : Bool := isLower c || PyStr.isDigit c || c = 45

/-- `[a-z0-9-]+(?:\.[a-z0-9-]+)*\.actions\.githubusercontent\.com`. -/
def isProviderHost (host : List Nat) : Bool :=
  let labels := host.splitOn 46
  4 ≤ labels.length && labels.drop (labels.length - 3) =
      [("actions" : PyStr).codePoints, ("githubusercontent" : PyStr).codePoints, ("com" : PyStr).codePoints] &&
    (labels.take (labels.length - 3)).all fun label => label ≠ [] && label.all isLabelChar

/-- `urlencode(query + [("audience", AUDIENCE)])` of the one query that is taken. -/
def audienceQuery : PyStr :=
  "api-version=2.0&audience=lit-rep120-ledger%3A1413923700%3Aoperation-ledger-core"

inductive HoldStage
  | inputContext
  | oidcCapability
  | tcp
  | tls
  | oidcGet
  | send
  | ack
  deriving DecidableEq

/-- What was raised: an `OidcHeld`, a `StageHeld`, or any other exception. -/
inductive Raised
  | oidcHeld (reason : OidcHoldReason)
  | stageHeld (stage : HoldStage) (reason : Option OidcHoldReason)
  | other (e : PyError)

/-- What the checks of the inputs raise. -/
def checked {α : Type} (x : Py α) : Except Raised α := x.mapError .other

/-- `raise OidcHeld(reason)` unless a condition holds. -/
def oidcHold (condition : Prop) [Decidable condition] (reason : OidcHoldReason) : Except Raised Unit :=
  if condition then .ok () else .error (.oidcHeld reason)

/-- `except ValueError: raise OidcHeld(reason)`. -/
def orHeld {α : Type} (reason : OidcHoldReason) (x : Py α) : Except Raised α :=
  x.mapError fun _ => .oidcHeld reason

def isVisible (c : Nat) : Bool := 33 ≤ c && c ≤ 126

/-- `oidc_endpoint(value)`. -/
def oidcEndpoint (platform : Platform) (value : Value) : Except Raised (PyStr × PyStr) := do
  oidcHold (value.isText "" = false) .urlMissing
  oidcHold (isStr (fun s => s.length ≤ 4096 && s.codePoints.all isVisible) value = true) .urlFormat
  let url ← orHeld .urlFormat (urlsplit platform (textOf value).codePoints)
  let query ← orHeld .urlQuery (parseQsl url.query)
  oidcHold (url.scheme = ("https" : PyStr).codePoints) .urlHttps
  oidcHold (url.hasUserinfo = false) .urlUserinfo
  let port ← orHeld .urlPort url.port
  oidcHold (port = none ∨ port = some 443) .urlPort
  oidcHold (url.fragment = []) .urlFragment
  oidcHold (isProviderHost url.hostname = true) .urlHost
  match oidcPathHoldReason ⟨url.path⟩ with
  | some reason => .error (.oidcHeld reason)
  | none => do
    oidcHold (query = [(bytes "api-version", bytes "2.0")]) .urlQuery
    return (⟨url.hostname⟩, ⟨url.path⟩ ++ "?" ++ audienceQuery)

/-- Where the token is asked for, and with which bearer. -/
structure Capability where
  host : PyStr
  target : PyStr
  bearer : PyStr

/-- `oidc_capability(environ)`. -/
def oidcCapability (platform : Platform) (environ : Value) : Except Raised Capability := do
  let (host, target) ← oidcEndpoint platform (environ.getD "ACTIONS_ID_TOKEN_REQUEST_URL" (.str ""))
  let bearer := environ.getD "ACTIONS_ID_TOKEN_REQUEST_TOKEN" (.str "")
  oidcHold (bearer.isStr = true) .bearerFormat
  oidcHold (bearer.isText "" = false) .bearerMissing
  oidcHold ((textOf bearer).length ≤ maxOidc) .bearerLength
  oidcHold ((textOf bearer).codePoints.all isVisible = true) .bearerAscii
  return ⟨host, target, textOf bearer⟩

end Supplementary.Caller
