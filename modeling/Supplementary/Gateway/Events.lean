/-
# Event streams and what they carry

`completed_response(payload, streaming=True)` for any `json_limits` and `response_byte_limit`, `None`
included (`completedStream`), and the two descriptions it is compared with.  `Serializes` is the wire
form: blocks of comment, `event:` and `data:` lines, each block closed by a blank line, with LF or
CRLF line ends.  `IsCompleted` is the story an accepted stream tells: created first, completed last,
numbered without a gap and about one response.
-/
import Supplementary.Gateway.Transport
import Supplementary.Python.Replace

namespace Supplementary.Gateway

open Supplementary Review PyStr

/-! ## 1. The response of a stream -/

/-- `strict_json(text, json_limits=...)`; `none` is no limits. -/
def eventJson (rt : Runtime) (limits : Option JsonLimits) (text : PyStr) : Py Value :=
  match limits with
  | none => strictLoads rt text
  | some limits => strictJsonText rt limits text

/-- One block of the stream, its data read by `decode`. -/
def blockBy (decode : PyStr → Py Value) (stream : Stream) (text : PyStr) : Py Stream :=
  if text.length = 0 then .ok stream
  else do
    let block ← (text.segments "\n").foldlM blockLine {}
    if block.data = [] then do
      require (block.eventName.isNone = true) "transport-sse-data"
      .ok stream
    else do
      require (stream.result.isNone = true) "transport-after-completion"
      let event ← decode (PyStr.join "\n" block.data)
      streamEvent stream block.eventName event

def streamBy (decode : PyStr → Py Value) (payload : Bytes) : Py Value :=
  match utf8Decode payload with
  | none => .error .unicodeError
  | some points => do
    let text := (PyStr.mk points).replace "\r\n" "\n"
    require (13 ∉ text.codePoints ∧ text.endsWith "\n\n" = true) "transport-incomplete-stream"
    let stream ← (text.segments "\n\n").foldlM (blockBy decode) {}
    match stream.result with
    | none => .error (.reviewError "transport-incomplete-stream")
    | some response => .ok response

/-- `bounded_response(payload, response_byte_limit)`; `none` is `None`. -/
def boundedBy (payload : Bytes) : Option Int → Py Bytes
  | none => do
    require (0 < payload.length ∧ payload.length ≤ maxResponseBytes) "transport-response-size"
    .ok payload
  | some limit => boundedResponse payload limit

/-- `completed_response(payload, streaming=True, json_limits=..., response_byte_limit=...)`. -/
def completedStream (rt : Runtime) (payload : Bytes) (limits : Option JsonLimits)
    (byteLimit : Option Int) : Py Value := do
  let _ ← boundedBy payload byteLimit
  streamBy (eventJson rt limits) payload

/-- With both limits given it is the transport's own. -/
theorem completedResponse_streaming (rt : Runtime) (payload : Bytes) (limits : JsonLimits)
    (byteLimit : Int) : completedResponse rt payload true limits byteLimit =
      completedStream rt payload (some limits) (some byteLimit) := rfl

/-! ## 2. The wire form -/

/-- A line of a block. -/
inductive Line
  | comment (text : PyStr)
  | event (name : PyStr)
  | data (text : PyStr)

/-- What stands after the colon of a field: the value, a blank before it or not. -/
def AfterColon (value tail : PyStr) : Prop :=
  tail = " " ++ value ∨ tail = value ∧ value.startsWith " " = false

def Line.Spells : Line → PyStr → Prop
  | .comment text, s => s = ":" ++ text
  | .event name, s => ∃ tail, s = "event:" ++ tail ∧ AfterColon name tail
  | .data text, s => ∃ tail, s = "data:" ++ tail ∧ AfterColon text tail

/-- The values of the `event:` lines. -/
def eventsOf (lines : List Line) : List PyStr :=
  lines.filterMap fun line => match line with
    | .event name => some name
    | _ => none

/-- The values of the `data:` lines. -/
def dataOf (lines : List Line) : List PyStr :=
  lines.filterMap fun line => match line with
    | .data text => some text
    | _ => none

/-- The lines, joined; no line for a blank block. -/
def IsBlock (lines : List Line) (text : PyStr) : Prop :=
  ∃ spelled, List.Forall₂ Line.Spells lines spelled ∧ (∀ s ∈ spelled, 10 ∉ s.codePoints) ∧
    text = PyStr.join "\n" spelled

/-- What a block carries: nothing if it has comments only, else the value of its data lines, which
an `event:` line may name. -/
def Carries (decode : PyStr → Py Value) (lines : List Line) : Option Value → Prop
  | none => dataOf lines = [] ∧ eventsOf lines = []
  | some event => dataOf lines ≠ [] ∧ decode (PyStr.join "\n" (dataOf lines)) = .ok event ∧
      (eventsOf lines = [] ∨ ∃ kind, event.get "type" = .str kind ∧ eventsOf lines = [kind])

/-- A block of a stream. -/
structure Frame (decode : PyStr → Py Value) where
  lines : List Line
  text : PyStr
  content : Option Value
  isBlock : IsBlock lines text
  carries : Carries decode lines content

/-- The blocks, each closed by a blank line. -/
def streamText {decode : PyStr → Py Value} (frames : List (Frame decode)) : List Nat :=
  frames.flatMap fun frame => frame.text.codePoints ++ [10, 10]

/-- The raw text is the text with each line end written as LF or as CRLF. -/
inductive LineEnds : List Nat → List Nat → Prop
  | nil : LineEnds [] []
  | lf {raw text : List Nat} (h : LineEnds raw text) : LineEnds (10 :: raw) (10 :: text)
  | crlf {raw text : List Nat} (h : LineEnds raw text) : LineEnds (13 :: 10 :: raw) (10 :: text)
  | other {c : Nat} {raw text : List Nat} (hc : c ≠ 10 ∧ c ≠ 13) (h : LineEnds raw text) :
      LineEnds (c :: raw) (c :: text)

/-- The payload is a stream of blocks that carry the events, in this order. -/
def Serializes (decode : PyStr → Py Value) (payload : Bytes) (events : List Value) : Prop :=
  ∃ (points : List Nat) (frames : List (Frame decode)), utf8Decode payload = some points ∧
    LineEnds points (streamText frames) ∧ events = frames.filterMap Frame.content

/-! ## 3. The story -/

/-- An event of a kind, with its number. -/
structure IsEvent (event : Value) (kind : PyStr) (number : Nat) : Prop where
  isDict : event.isDict = true
  typed : event.get "type" = .str kind
  response : kind.startsWith "response." = true
  numbered : event.get "sequence_number" = .int number
  live : kind ∉ ([("response.failed" : String), "response.incomplete", "response.cancelled"] :
    List PyStr)

/-- Every response embedded in the event has the identity. -/
def IsAbout (identity : PyStr) (event : Value) : Prop :=
  ∀ response, event.find? "response" = some response →
    response.isDict = true ∧ response.get "id" = .str identity

/-- The events after the first: those on the way, then the completed one with its response. -/
inductive RunsToEnd (identity : PyStr) (response : Value) : (number : Nat) → List Value → Prop
  | completed {event : Value} {number : Nat} (h : IsEvent event "response.completed" number)
      (hdict : (event.get "response").isDict = true) (habout : IsAbout identity event)
      (hresponse : event.get "response" = response) : RunsToEnd identity response number [event]
  | passing {event : Value} {kind : PyStr} {number : Nat} {events : List Value}
      (h : IsEvent event kind number) (hcreated : kind ≠ "response.created")
      (hcompleted : kind ≠ "response.completed") (habout : IsAbout identity event)
      (hrest : RunsToEnd identity response (number + 1) events) :
      RunsToEnd identity response number (event :: events)

/-- **A completed stream**: at most 100000 events, the first creates the response, the last
completes it. -/
def IsCompleted (events : List Value) (response : Value) : Prop :=
  ∃ identity created rest, events = created :: rest ∧ events.length ≤ 100000 ∧
    IsEvent created "response.created" 0 ∧ (created.get "response").isDict = true ∧
    (0 < identity.length ∧ identity.length ≤ 256) ∧ IsAbout identity created ∧
    (created.get "response").get "id" = .str identity ∧ RunsToEnd identity response 1 rest

end Supplementary.Gateway
