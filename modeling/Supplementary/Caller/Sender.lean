/-
# The one-shot caller

`send_once` of the REP-120 caller and what it calls: `fetch_oidc`, `read_exact` and `read_ack`.  Every
operation may raise, whatever the class of the exception; a read returns at most as many octets as it
was asked for.  A clock is an exact number.
-/
import Mathlib.Algebra.Order.Ring.Unbundled.Rat
import Supplementary.Caller.Endpoint
import Supplementary.Lib.Permits

namespace Supplementary.Caller

open Supplementary PyStr Effects

/-! ## 1. The environment -/

/-- What the caller asks its environment. -/
inductive CallerOp
  /-- `time.time()`. -/
  | time
  /-- `time.monotonic()`. -/
  | monotonic
  /-- `ssl.SSLContext(...)`, for TLS 1.3 only. -/
  | tlsContext
  /-- `context.load_verify_locations(cadata=...)`. -/
  | loadPin (pem : PyStr)
  | socket
  /-- `raw.settimeout(...)`. -/
  | rawTimeout (seconds : ℚ)
  | connect (ipv4 : PyStr) (port : Int)
  /-- `context.wrap_socket(raw, server_hostname=...)`. -/
  | wrapSocket (name : PyStr)
  /-- `secure.settimeout(...)`. -/
  | secureTimeout (seconds : ℚ)
  | handshake
  /-- `secure.getpeercert(binary_form=True)`. -/
  | peerCertificate
  /-- `secure.version()`. -/
  | tlsVersion
  /-- The context of the token request, with the system's trust locations. -/
  | oidcContext
  /-- `http.client.HTTPSConnection(host, timeout=..., context=...)`. -/
  | oidcConnection (host : PyStr) (seconds : ℚ)
  /-- `connection.request("GET", target, headers=...)`. -/
  | oidcGet (target bearer : PyStr)
  /-- `connection.getresponse()`, and its status. -/
  | oidcStatus
  /-- `connection.sock is not None`. -/
  | oidcHasSocket
  | oidcTimeout (seconds : ℚ)
  /-- `response.read1(limit)`. -/
  | oidcRead (limit : Nat)
  | oidcClose
  | sendall (frame : Bytes)
  | recv (limit : Nat)
  | closeSecure
  | closeRaw

/-- What an operation returns. -/
abbrev CallerOp.Result : CallerOp → Type
  | .time | .monotonic => ℚ
  | .peerCertificate => Option Bytes
  | .tlsVersion => Option PyStr
  | .oidcStatus => Int
  | .oidcHasSocket => Bool
  | .oidcRead limit | .recv limit => { octets : Bytes // octets.length ≤ limit }
  | _ => Unit

/-- The caller's signature: every operation may raise anything. -/
abbrev CallerAns : CallerOp → Type := Fallible Raised CallerOp.Result

/-- The variables of `send_once` that its handlers read. -/
structure Locals where
  stage : HoldStage
  message : Option Value
  secure : Bool
  raw : Bool

abbrev CallerAct (α : Type) : Type := Act CallerAns Locals Raised α

def ask (op : CallerOp) : CallerAct op.Result := Act.call op

def setStage (stage : HoldStage) : CallerAct Unit := Act.update fun s => { s with stage := stage }

/-- `raise Held(message)` unless a condition holds. -/
def demand (condition : Prop) [Decidable condition] (message : String) : CallerAct Unit :=
  liftM (checked (hold condition message))

/-- `remaining(deadline)`. -/
def remaining (deadline : ℚ) : CallerAct ℚ := do
  let now ← ask .monotonic
  demand (0 < deadline - now) "deadline exceeded"
  return deadline - now

/-! ## 2. The token -/

def maxOidcResponse : Nat := 32768

/-- `[A-Za-z0-9_-]`. -/
def isTokenChar (c : Nat) : Bool :=
  isUpper c || isLower c || PyStr.isDigit c || c = 95 || c = 45

/-- Three runs of such characters with points between them, of a bounded length. -/
def isToken (token : PyStr) : Bool :=
  let parts := token.split '.'
  token.length ≤ maxOidc && parts.length = 3 &&
    parts.all fun part => part.codePoints ≠ [] && part.codePoints.all isTokenChar

/-- The timeout of the next read. -/
def oidcTimeout (deadline : ℚ) : CallerAct Unit := do
  if ← ask .oidcHasSocket then
    let left ← remaining deadline
    ask (.oidcTimeout (min 10 left))

/-- The reads of the response; `room` is how much there may still be, and one more. -/
def readResponse (deadline : ℚ) (room : Nat) : CallerAct Bytes := do
  oidcTimeout deadline
  let _ ← remaining deadline
  let chunk ← ask (.oidcRead (min 4096 room))
  if _h : chunk.1 = [] then return []
  else if room - chunk.1.length = 0 then Act.raise (.other (.valueError "OIDC response too large"))
  else do
    let rest ← readResponse deadline (room - chunk.1.length)
    return chunk.1 ++ rest
termination_by room
decreasing_by
  have hlength := List.length_pos_iff.mpr _h
  omega

/-- The request, inside the handler of `fetch_oidc`. -/
def requestToken (platform : Platform) (capability : Capability) (deadline : ℚ) :
    CallerAct PyStr := do
  ask (.oidcGet capability.target capability.bearer)
  let status ← ask .oidcStatus
  demand (status = 200) "OIDC request held"
  let chunks ← readResponse deadline (maxOidcResponse + 1)
  let _ ← remaining deadline
  let result ← liftM (checked (decode platform.rt chunks))
  demand (result.hasKeys ["value"] = true ∧ isStr isToken (result.get "value") = true)
    "invalid OIDC response"
  return textOf (result.get "value")

/-- The connection of the request, which is closed in the end. -/
def fetchWith (platform : Platform) (capability : Capability) (deadline : ℚ) : CallerAct PyStr := do
  ask .oidcContext
  let left ← remaining deadline
  ask (.oidcConnection capability.host (min 10 left))
  Act.ensuring
    (Act.catching (requestToken platform capability deadline) fun _ =>
      Act.raise (.other (.valueError "OIDC request held")))
    (ask .oidcClose)

/-- `fetch_oidc(environ, deadline)`. -/
def fetchOidc (platform : Platform) (environ : Value) (deadline : ℚ) : CallerAct PyStr := do
  fetchWith platform (← liftM (oidcCapability platform environ)) deadline

/-! ## 3. The acknowledgement -/

/-- `read_exact(stream, size, deadline)`. -/
def readExact (deadline : ℚ) (size : Nat) : CallerAct Bytes :=
  if size = 0 then return [] else do
    let left ← remaining deadline
    ask (.secureTimeout left)
    let chunk ← ask (.recv size)
    if _h : chunk.1 = [] then Act.raise (.other (.valueError "truncated response"))
    else do
      let rest ← readExact deadline (size - chunk.1.length)
      return chunk.1 ++ rest
termination_by size
decreasing_by
  have hlength := List.length_pos_iff.mpr _h
  have _hbound := chunk.2
  omega

/-- `struct.unpack("!I", octets)[0]`. -/
def unpackSize (octets : Bytes) : Nat := octets.foldl (fun n b => 256 * n + b.toNat) 0

/-- `struct.pack("!I", size)`. -/
def packSize (size : Nat) : Bytes :=
  [(size / 16777216).toUInt8, (size / 65536 % 256).toUInt8, (size / 256 % 256).toUInt8,
    (size % 256).toUInt8]

/-- What the acknowledgement of an operation says. -/
def isAck (operationKey : Value) (ack : Value) : Bool :=
  (ack.get "hosted_acceptance").isFalse &&
    ack.hasKeys ["schema", "state", "operation_key", "hosted_acceptance"] &&
    (ack.get "schema").isText schema && (ack.get "state").isText "transport-complete" &&
    (ack.get "operation_key").pyEq operationKey

/-- `read_ack(stream, operation_key, deadline)`. -/
def readAck (platform : Platform) (operationKey : Value) (deadline : ℚ) : CallerAct Value := do
  let start ← readExact deadline magic.length
  demand (start = magic) "invalid response"
  let size ← readExact deadline 4
  demand (0 < unpackSize size ∧ unpackSize size ≤ 4096) "response too large"
  let data ← readExact deadline (unpackSize size)
  let ending ← readExact deadline trailer.length
  demand (ending = trailer) "invalid response"
  let ack ← liftM (checked (decode platform.rt data))
  demand (isAck operationKey ack = true) "invalid transport ACK"
  return ack

/-! ## 4. One send -/

def peerName : PyStr := "li178-one-shot"

/-- The message of a token. -/
def messageOf (envelope : Value) (token : PyStr) : Value := envelope.set "oidc" (.str token)

/-- The frame of a message. -/
def frameOf (data : Bytes) : Bytes := magic ++ packSize data.length ++ data ++ trailer

section

variable (platform : Platform) (delivery envelope environ : Value)

/-- `validate_inputs(delivery, envelope, environ, time.time())`. -/
def validateNow : CallerAct Unit := do
  let now ← ask .time
  liftM (checked (validateInputs platform.rt delivery envelope environ now))

/-- The deadline of the whole call. -/
def deadlineOf : CallerAct ℚ := do
  let started ← ask .monotonic
  let now ← ask .time
  return started + min 120 (intValue (delivery.get "expires_at") - now)

/-- The connection to the peer, up to the handshake. -/
def openPeer (deadline : ℚ) : CallerAct Unit := do
  setStage .tls
  ask .tlsContext
  ask (.loadPin (textOf (delivery.get "public_pem")))
  setStage .tcp
  ask .socket
  Act.update fun s => { s with raw := true }
  let left ← remaining deadline
  ask (.rawTimeout left)
  ask (.connect (textOf (delivery.get "ipv4")) (intValue (delivery.get "port")))
  setStage .tls
  ask (.wrapSocket peerName)
  Act.update fun s => { s with secure := true }
  let left ← remaining deadline
  ask (.secureTimeout left)
  ask .handshake

/-- The certificate of the peer is the pinned one. -/
def checkPeer : CallerAct Unit := do
  match ← ask .peerCertificate with
  | none => Act.raise (.other (.valueError "missing peer certificate"))
  | some certificate => do
    let version ← ask .tlsVersion
    demand (version = some "TLSv1.3" ∧
        platform.rt.sha256 certificate = textOf (delivery.get "leaf_sha256")) "TLS peer held"

/-- The frame with the token, and the acknowledgement. -/
def transmit (deadline : ℚ) (token : PyStr) : CallerAct Value := do
  Act.update fun s => { s with message := some (messageOf envelope token) }
  setStage .inputContext
  validateNow platform delivery envelope environ
  setStage .send
  let data ← liftM (checked (canonical platform.rt (messageOf envelope token)))
  let left ← remaining deadline
  ask (.secureTimeout left)
  ask (.sendall (frameOf data))
  setStage .ack
  readAck platform (envelope.get "operation_key") deadline

/-- The body of `send_once`. -/
def sendBody : CallerAct Value := do
  validateNow platform delivery envelope environ
  setStage .oidcCapability
  let _ ← liftM (oidcCapability platform environ)
  let deadline ← deadlineOf delivery
  openPeer delivery deadline
  checkPeer platform delivery
  setStage .oidcGet
  let token ← fetchOidc platform environ deadline
  transmit platform delivery envelope environ deadline token

/-- `getattr(error, "reason", None) if isinstance(error, OidcHeld) else None`. -/
def Raised.reason? : Raised → Option OidcHoldReason
  | .oidcHeld reason => some reason
  | _ => none

/-- `raise StageHeld(stage, reason)`. -/
def holdStage (reason : Option OidcHoldReason) : CallerAct Value := do
  Act.raise (.stageHeld (← Act.read).stage reason)

/-- What `finally` does: the token is forgotten and the sockets are closed. -/
def closeAll : CallerAct Unit := do
  Act.update fun s => { s with message := s.message.map fun message => message.erase "oidc" }
  if (← Act.read).secure then ask .closeSecure
  if (← Act.read).raw then ask .closeRaw

/-- `send_once(delivery, envelope, environ)`. -/
def sendOnce : CallerAct Value :=
  Act.ensuring
    (Act.catching (sendBody platform delivery envelope environ) fun e => holdStage e.reason?)
    (Act.catching closeAll fun _ => do
      let _ ← holdStage none)

/-- The variables of `send_once` as it starts. -/
def started : Locals := ⟨.inputContext, none, false, false⟩

end

end Supplementary.Caller
