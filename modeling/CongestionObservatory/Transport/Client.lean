import CongestionObservatory.Lib.Dialogue
import CongestionObservatory.Transport.Message

/-!
# `CongestionObservatory.Transport.Client`: the ingestion client

The client (`transport/client.cpp`) is sequential. `exchange` sends one frame and reads until the
decoder has one, so there is never more than one request under way. `pushRecords` and `pingServer`
are dialogues of such exchanges: a call is a `Request`, and a reply is what `exchange` returns.

`startExchange`, `lookForReply` and `takeBytes` are the parts of `exchange` between its calls on the
socket. The loop of `exchange` asks its decoder first, and receives when the decoder has nothing.
Each exchange has a decoder of its own, and bytes behind the reply are dropped with it.

Connecting is not part of the model: the dialogues begin with the socket.
-/

set_option autoImplicit false

namespace CongestionObservatory

open Lib

/-- `JsonValue::as_bool`. -/
def JsonValue.asBool (fallback : Bool) : JsonValue → Bool
  | .bool value => value
  | _ => fallback

/-- `IngestClientConfig`, as far as the dialogues read it. -/
structure IngestClientConfig where
  clientId : Text := ascii "congestion-observatory-client"
  limits : Limits := {}

/-- `IngestClientResult`. -/
structure IngestClientResult where
  recordsSent : UInt64 := 0
  recordsAccepted : UInt64 := 0
  recordsRejected : UInt64 := 0
  outcomes : List IngestOutcome := []
  serverVersion : Text := []
  deriving DecidableEq

/-! ### One exchange -/

/-- What `exchange` is called with. -/
structure Request where
  type : FrameType
  payload : Text
  expected : FrameType
  deriving DecidableEq

/-- The frame of a request. -/
def Request.frame (request : Request) : Frame := { type := request.type, payload := request.payload }

/-- The error a client makes of an error frame. -/
def reportedError (limits : Limits) (payload : Text) : Error :=
  let document := (parseJson payload limits).toOption.filter JsonValue.isObject
  let text (key : String) (fallback : Text) : Text :=
    match document.bind (JsonValue.member (ascii key)) with
    | none => fallback
    | some value => value.asString
  { code := .protocolError
    message := text "message" (ascii "server reported an error")
    detail := text "detail" payload }

/-- What `exchange` makes of the frame it received. -/
def replyOf (limits : Limits) (expected : FrameType) (frame : Frame) : Result Text :=
  if frame.type = .error then .error (reportedError limits frame.payload)
  else if frame.type ≠ expected then
    .error (makeError .protocolError "unexpected frame type"
      (frame.type.str ++ ascii " != " ++ expected.str))
  else .ok frame.payload

/-- The bytes `exchange` sends. -/
def startExchange (limits : Limits) (request : Request) : Result Text :=
  encodeFrame request.frame limits

/-- The first part of the loop of `exchange`: the reply, once the decoder has a frame or fails. -/
def lookForReply (limits : Limits) (expected : FrameType) (d : FrameDecoder) :
    Option (Result Text) :=
  match d.next.1 with
  | .error e => some (.error e)
  | .ok (some frame) => some (replyOf limits expected frame)
  | .ok none => none

/-- The second part of the loop of `exchange`: what `recv_some` returned goes to the decoder. No
bytes are the end of the stream. -/
def takeBytes (d : FrameDecoder) (received : Result Text) : Result FrameDecoder :=
  match received with
  | .error e => .error e
  | .ok data =>
    if data = [] then
      .error (makeError .ioError "peer closed the connection before replying")
    else match d.feed data with
    | (.error e, _) => .error e
    | (.ok (), d) => .ok d

/-! ### Reading the replies -/

/-- The version in a welcome, or the own one. -/
def readWelcome (limits : Limits) (payload : Text) : Result Text := do
  let document ← parseJson payload limits
  match document.member (ascii "version") with
  | some (.string version) => pure version
  | _ => pure versionString

/-- The enumerators of `FenceDecision`, in the order of their numbers. -/
def fenceDecisions : List FenceDecision :=
  [.acceptedFirstObservation, .acceptedInOrder, .acceptedGapDetected, .acceptedReboot,
    .acceptedEpochAdvance, .acceptedGenerationAdvance, .rejectedUnknownSource, .rejectedStaleEpoch,
    .rejectedStaleGeneration, .rejectedStaleRevision, .rejectedIncomparableGeneration,
    .rejectedReplayedSequence, .rejectedStaleIncarnation, .rejectedAuthorityTooLow,
    .rejectedInconsistentBoot]

/-- The loop over the numbers of the enumerators: the decision of a name. -/
def fenceNamed (name : Text) : Option FenceDecision :=
  fenceDecisions.find? fun decision => name = decision.toText

/-- The outcome in an acknowledgement, field by field. A field that is missing or cannot be read
keeps its default. -/
def readAck (limits : Limits) (payload : Text) : Result IngestOutcome := do
  let root ← parseJson payload limits
  let outcome : IngestOutcome := {}
  let outcome := match root.member (ascii "accepted") with
    | some accepted => { outcome with stored := accepted.asBool false }
    | none => outcome
  let outcome := match root.member (ascii "evidence_id") with
    | some id =>
      match (DigestId.parse id.asString : Result EvidenceId) with
      | .ok id => { outcome with id := id }
      | .error _ => outcome
    | none => outcome
  let outcome := match root.member (ascii "fence") with
    | some fence =>
      match fenceNamed fence.asString with
      | some decision => { outcome with fence := decision }
      | none => outcome
    | none => outcome
  let outcome := match root.member (ascii "detail") with
    | some detail => { outcome with detail := detail.asString }
    | none => outcome
  pure outcome

/-- The outcome of one record is counted and kept. -/
def IngestClientResult.add (result : IngestClientResult) (outcome : IngestOutcome) :
    IngestClientResult :=
  { result with
    recordsSent := result.recordsSent + 1
    recordsAccepted := if outcome.stored then result.recordsAccepted + 1 else result.recordsAccepted
    recordsRejected := if outcome.stored then result.recordsRejected else result.recordsRejected + 1
    outcomes := result.outcomes ++ [outcome] }

/-! ### The dialogues -/

/-- A dialogue over a socket. -/
abbrev Client (α : Type) := Dialogue Request (Result Text) α

/-- `exchange`. -/
def exchange (type : FrameType) (payload : Text) (expected : FrameType) : Client (Result Text) :=
  Dialogue.ask { type := type, payload := payload, expected := expected }

/-- `greet`. -/
def greet (config : IngestClientConfig) : Client (Result Text) := do
  match ← exchange .hello (encodeHelloJson config.clientId) .welcome with
  | .error e => pure (.error e)
  | .ok response => pure (readWelcome config.limits response)

/-- The last exchange of a connection. Its result is not looked at. -/
def leave {α : Type} (result : α) : Client (Result α) := do
  let _ ← exchange .bye [] .bye
  pure (.ok result)

/-- The loop of `push_records`, and the end of it. -/
def pushLoop (limits : Limits) :
    IngestClientResult → List EvidenceRecord → Client (Result IngestClientResult)
  | result, [] => leave result
  | result, record :: rest => do
    match ← exchange .ingest (encodeIngestJson record) .ingestAck with
    | .error e => pure (.error e)
    | .ok response =>
      match readAck limits response with
      | .error e => pure (.error e)
      | .ok outcome => pushLoop limits (result.add outcome) rest

/-- `push_records`, on a connected socket. -/
def pushRecords (config : IngestClientConfig) (records : List EvidenceRecord) :
    Client (Result IngestClientResult) := do
  match ← greet config with
  | .error e => pure (.error e)
  | .ok version => pushLoop config.limits { serverVersion := version } records

/-- `ping_server`, on a connected socket. -/
def pingServer (config : IngestClientConfig) : Client (Result Text) := do
  match ← greet config with
  | .error e => pure (.error e)
  | .ok version =>
    match ← exchange .ping [] .pong with
    | .error e => pure (.error e)
    | .ok _ => leave version

end CongestionObservatory
