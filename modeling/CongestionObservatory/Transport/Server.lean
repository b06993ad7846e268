import CongestionObservatory.Runtime.Runtime
import CongestionObservatory.Transport.Message

/-!
# `CongestionObservatory.Transport.Server`: serving one connection

`IngestServer::serve_connection` (`transport/server.cpp`) reads pieces from a socket, feeds them to
a `FrameDecoder` and answers each frame the decoder has. The loop ends at a frame that closes the
connection, at the first error, when the peer closes its side, or when the server is asked to stop.

`serveConnection` is a function of what `recv_some` returns, one result after the other. The list
may end while the server still waits for more; then it gives no status. The clock and the sends of
the socket are `Surroundings`. They may answer in any way, so each answer depends on how much has
happened on the connection. `Connection.log` keeps what has happened: the frames that the
decoder had, the calls of `Runtime::ingest` and the frames that were sent.

This is one connection on its own. Several of them, and the clients at their other ends, are in
`CongestionObservatory.Transport.Network`.
-/

set_option autoImplicit false

namespace CongestionObservatory

/-- `ServerConfig`, as far as one connection reads it. -/
structure ServerConfig where
  requireHello : Bool := true
  nowSourceOverride : Timestamp := Timestamp.zero
  useOverrideTime : Bool := false
  deriving DecidableEq

/-- Something that happened on a connection. -/
inductive ServerEffect where
  | received (frame : Frame)
  | ingested (record : EvidenceRecord) (now : Timestamp)
  | sent (frame : Frame) (status : Status)

/-- `now_wall_clock` and `Socket::send_all`. -/
structure Surroundings where
  nowWallClock : Nat → Timestamp
  sendAll : Nat → Text → Status

/-- The variables of `serve_connection` and the members of the server that it changes. -/
structure Connection where
  runtime : Runtime
  stats : ServerStats
  greeted : Bool := false
  log : List ServerEffect := []

namespace Connection

/-- `Runtime::limits`. -/
def limits (c : Connection) : Limits := c.runtime.config.limits

/-- Something happens on the connection. -/
def note (c : Connection) (effect : ServerEffect) : Connection := { c with log := c.log ++ [effect] }

/-- A frame of the decoder is counted. -/
def receive (c : Connection) (frame : Frame) : Connection :=
  { c.note (.received frame) with
    stats := { c.stats with framesReceived := c.stats.framesReceived + 1 } }

/-- The lambda `send_frame`. -/
def sendFrame (c : Connection) (world : Surroundings) (type : FrameType) (payload : Text) :
    Status × Connection :=
  let frame : Frame := { type := type, payload := payload }
  let sent := encodeFrame frame c.limits >>= world.sendAll c.log.length
  match sent with
  | .error e => (.error e, c.note (.sent frame sent))
  | .ok () =>
    (.ok (), { c.note (.sent frame sent) with
      stats := { c.stats with framesSent := c.stats.framesSent + 1 } })

/-- The lambda `fail`. -/
def fail (c : Connection) (world : Surroundings) (code : ErrorCode) (message : String)
    (detail : Text) : Status × Connection :=
  let c := { c with stats := { c.stats with protocolErrors := c.stats.protocolErrors + 1 } }
  match c.sendFrame world .error (encodeErrorJson code (ascii message) detail) with
  | (.error e, c) => (.error e, c)
  | (.ok (), c) => (.error (makeError code message detail), c)

/-- A branch that sends a reply and goes on. The counters change when the reply was sent, and a
failed send ends the connection. -/
def respond (c : Connection) (world : Surroundings) (type : FrameType) (payload : Text)
    (count : ServerStats → ServerStats) : Option Status × Connection :=
  match c.sendFrame world type payload with
  | (.error e, c) => (some (.error e), c)
  | (.ok (), c) => (none, { c with stats := count c.stats })

/-- A branch that returns. -/
def ended (result : Status × Connection) : Option Status × Connection := (some result.1, result.2)

end Connection

/-- `++stats_.records_accepted`. -/
def ServerStats.countAccepted (stats : ServerStats) : ServerStats :=
  { stats with recordsAccepted := stats.recordsAccepted + 1 }

/-- `++stats_.records_rejected`. -/
def ServerStats.countRejected (stats : ServerStats) : ServerStats :=
  { stats with recordsRejected := stats.recordsRejected + 1 }

namespace IngestServer

variable (config : ServerConfig) (world : Surroundings)

/-- The client's name in a hello frame. -/
def clientId (payload : Text) (limits : Limits) : Text :=
  match parseJson payload limits with
  | .ok document => jsonString (document.member (ascii "client")) "unknown"
  | .error _ => ascii "unknown"

/-- An observation frame that may be answered. -/
def handleObservation (c : Connection) (frame : Frame) : Option Status × Connection :=
  match decodeIngestJson frame.payload c.limits with
  | .error _ =>
    c.respond world .ingestAck (encodeIngestAckJson {}) ServerStats.countRejected
  | .ok record =>
    let now := if config.useOverrideTime then config.nowSourceOverride
      else world.nowWallClock c.log.length
    let (outcome, runtime) := c.runtime.ingest record now
    let c := { c.note (.ingested record now) with runtime := runtime }
    match outcome with
    | .error e =>
      c.respond world .ingestAck (encodeIngestAckJson { id := record.id, detail := e.describe })
        ServerStats.countRejected
    | .ok outcome =>
      c.respond world .ingestAck (encodeIngestAckJson outcome)
        (if outcome.stored then ServerStats.countAccepted else ServerStats.countRejected)

/-- The `switch` over the type of a frame: the status the connection ends with, or `none` where
the loop goes on. -/
def handleFrame (c : Connection) (frame : Frame) : Option Status × Connection :=
  match frame.type with
  | .hello =>
    { c with greeted := true }.respond world .welcome
      (encodeHelloJson (clientId frame.payload c.limits)) id
  | .ingest =>
    if config.requireHello && !c.greeted then
      Connection.ended (c.fail world .protocolError "hello frame required"
        (ascii "the first frame must be a hello"))
    else handleObservation config world c frame
  | .ping => c.respond world .pong versionString id
  | .stats => c.respond world .statsReply (encodeStatsJson c.stats) id
  | .bye => Connection.ended (c.sendFrame world .bye [])
  | _ =>
    -- The source refers to the decoder's frame, which `consume` has reset before it is named.
    let consumed : Frame := {}
    Connection.ended (c.fail world .protocolError "unsupported frame type" consumed.type.str)

/-- The loop over the frames of the decoder. The connection does not use its decoder any more once
it ends, so it makes no difference which of the ending branches consume their frame. -/
def serveFrames : Nat → Connection → FrameDecoder → Option Status × Connection × FrameDecoder
  | 0, c, d => (none, c, d)
  | rounds + 1, c, d =>
    match d.next with
    | (.error e, d) =>
      let result := Connection.ended (c.fail world e.code "frame decode failed" e.describe)
      (result.1, result.2, d)
    | (.ok none, d) => (none, c, d)
    | (.ok (some frame), d) =>
      match handleFrame config world (c.receive frame) frame with
      | (some status, c) => (some status, c, d.consume)
      | (none, c) => serveFrames rounds c d.consume

/-- The loop over the pieces. -/
def serveLoop (token stop : CancellationToken) (c : Connection) (d : FrameDecoder)
    (received : List (Result Text)) : Option Status × Connection :=
  -- `token.cancelled() || stop_requested_`: the second flag is read where the first one is not set.
  let (cancelled, token) := token.cancelled
  let (stopped, stop) := if cancelled then (true, stop) else stop.cancelled
  if stopped then Connection.ended (c.sendFrame world .bye [])
  else match received with
  | [] => (none, c)
  | .error e :: _ => (some (.error e), c)
  | .ok data :: rest =>
    -- No bytes are the orderly shutdown by the peer.
    if data = [] then (some (.ok ()), c)
    else match d.feed data with
    | (.error e, _) => Connection.ended (c.fail world e.code "frame rejected" e.describe)
    | (.ok (), d) =>
      match serveFrames config world (d.buffer.length + 1) c d with
      | (some status, c, _) => (some status, c)
      | (none, c, d) => serveLoop token stop c d rest

/-- `IngestServer::serve_connection`. -/
def serveConnection (token stop : CancellationToken) (runtime : Runtime) (stats : ServerStats)
    (received : List (Result Text)) : Option Status × Connection :=
  serveLoop config world token stop
    { runtime := runtime
      stats := { stats with connectionsAccepted := stats.connectionsAccepted + 1 } }
    { limits := runtime.config.limits } received

end IngestServer

end CongestionObservatory
