import CongestionObservatory.Lib.Interleaving
import CongestionObservatory.Transport.Client
import CongestionObservatory.Transport.Server

/-!
# `CongestionObservatory.Transport.Network`: clients and a server

Several clients push to one server at the same time. Each connection is a `Session`: the thread of
the client, the thread of the server that serves the connection (`IngestServer::run`), and the
bytes under way in both directions. The sessions share the runtime and the counters of the server.

A thread moves from one call on its socket to the next. A stream delivers its bytes in order, in
pieces of any size. A call on a socket may also fail at any time, a failed send may leave a part of
its bytes in the stream, and the server may stop at the head of its loop.

Handling a frame is one step. In the source it takes several locks one after the other, and other
threads get in between: `Runtime::ingest` reads the topology before it enters the store, and counts
after it. That is why the other threads are not restricted to calls of the runtime here. Between two
steps they leave it in an arbitrary state (`interfere`): the state that `ingest` finds can be put
together from the topology of one moment and the store of a later one, and what it leaves behind can
be any other.
-/

set_option autoImplicit false

namespace CongestionObservatory

open Lib

/-- The thread of a client: outside of `exchange`, or in the loop of `exchange`, where it waits for
`recv_some`. -/
inductive ClientThread (α : Type) where
  | running (program : Client α)
  | waiting (request : Request) (rest : Result Text → Client α) (decoder : FrameDecoder)

/-- The thread of a connection: at the head of the outer loop of `serve_connection`, in the loop
over the frames, or done. -/
inductive ServerThread where
  | receiving (decoder : FrameDecoder)
  | serving (decoder : FrameDecoder)
  | ended (status : Status)

/-- One connection, with the limits of its client. -/
structure Session (α : Type) where
  limits : Limits
  client : ClientThread α
  toServer : Text := []
  toClient : Text := []
  server : ServerThread
  greeted : Bool := false
  log : List ServerEffect := []

/-- What the connections share. -/
structure ServerShared where
  runtime : Runtime
  stats : ServerStats := {}

/-- A call of the runtime and what it returned. -/
abbrev RuntimeEvent := Runtime.Call × Runtime.Reply

/-- A step of one session. A failed `send_all` has put some bytes into the stream, and `recv_some`
fails or takes some bytes off it. -/
inductive SessionAction where
  | clientSends (failure : Option (Nat × Error))
  | clientReceives (received : Result Nat)
  | serverReceives (received : Result Nat) (world : Surroundings) (torn : Nat)
  | serverServes (world : Surroundings) (torn : Nat)
  | serverStops (world : Surroundings) (torn : Nat)

namespace Session

variable {α : Type}

/-! ### The client -/

/-- The loop of `exchange` looks at its decoder, and waits when there is no reply. -/
def await (s : Session α) (request : Request) (rest : Result Text → Client α) (d : FrameDecoder) :
    Session α :=
  match lookForReply s.limits request.expected d with
  | some reply => { s with client := .running (rest reply) }
  | none => { s with client := .waiting request rest d }

/-- The client starts an exchange. -/
def clientSends (s : Session α) (failure : Option (Nat × Error)) : Session α :=
  match s.client with
  | .running (.call request rest) =>
    match startExchange s.limits request, failure with
    | .error e, _ => { s with client := .running (rest (.error e)) }
    | .ok bytes, some (sent, e) =>
      { s with client := .running (rest (.error e)), toServer := s.toServer ++ bytes.take sent }
    | .ok bytes, none =>
      { s with toServer := s.toServer ++ bytes }.await request rest { limits := s.limits }
  | _ => s

/-- The client receives, a number of bytes of those under way. -/
def clientReceives (s : Session α) (received : Result Nat) : Session α :=
  match s.client with
  | .waiting request rest d =>
    let data := received.map fun n => s.toClient.take n
    let s := { s with toClient := s.toClient.drop (received.toOption.getD 0) }
    match takeBytes d data with
    | .error e => { s with client := .running (rest (.error e)) }
    | .ok d => s.await request rest d
  | _ => s

/-! ### The server -/

/-- The variables of `serve_connection`. -/
def connection (s : Session α) (shared : ServerShared) : Connection :=
  { runtime := shared.runtime, stats := shared.stats, greeted := s.greeted, log := s.log }

/-- The bytes that a send has put into the stream. One that failed has put some of them there. -/
def sentBytes (limits : Limits) (torn : Nat) : ServerEffect → Text
  | .sent frame status =>
    match encodeFrame frame limits, status with
    | .ok bytes, .ok () => bytes
    | .ok bytes, .error _ => bytes.take torn
    | .error _, _ => []
  | _ => []

/-- The calls of the runtime among the effects of one step, which began with the runtime. -/
def callOf (runtime : Runtime) : ServerEffect → Option RuntimeEvent
  | .ingested record now => some (.ingest record now, .admitted (runtime.ingest record now).1)
  | _ => none

/-- The session after a step of the server thread, what the step did to the shared state, and the
calls it made. -/
def resume (s : Session α) (shared : ServerShared) (torn : Nat) (server : ServerThread)
    (c : Connection) : Session α × ServerShared × List RuntimeEvent :=
  let effects := c.log.drop s.log.length
  ({ s with
      server := server
      toClient := s.toClient ++ effects.flatMap (sentBytes shared.runtime.config.limits torn)
      greeted := c.greeted
      log := c.log },
    { runtime := c.runtime, stats := c.stats },
    effects.filterMap (callOf shared.runtime))

/-- The server receives, a number of bytes of those under way. -/
def serverReceives (s : Session α) (shared : ServerShared) (received : Result Nat)
    (world : Surroundings) (torn : Nat) : Session α × ServerShared × List RuntimeEvent :=
  match s.server, received with
  | .receiving _, .error e => ({ s with server := .ended (.error e) }, shared, [])
  | .receiving d, .ok n =>
    let data := s.toServer.take n
    let s := { s with toServer := s.toServer.drop n }
    if data = [] then ({ s with server := .ended (.ok ()) }, shared, [])
    else match d.feed data with
    | (.error e, _) =>
      let (status, c) := (s.connection shared).fail world e.code "frame rejected" e.describe
      s.resume shared torn (.ended status) c
    | (.ok (), d) => ({ s with server := .serving d }, shared, [])
  | _, _ => (s, shared, [])

/-- One round of the loop over the frames. -/
def serverServes (config : ServerConfig) (s : Session α) (shared : ServerShared)
    (world : Surroundings) (torn : Nat) : Session α × ServerShared × List RuntimeEvent :=
  match s.server with
  | .serving d =>
    match d.next with
    | (.error e, _) =>
      let (status, c) := (s.connection shared).fail world e.code "frame decode failed" e.describe
      s.resume shared torn (.ended status) c
    | (.ok none, d) => ({ s with server := .receiving d }, shared, [])
    | (.ok (some frame), d) =>
      match IngestServer.handleFrame config world ((s.connection shared).receive frame) frame with
      | (some status, c) => s.resume shared torn (.ended status) c
      | (none, c) => s.resume shared torn (.serving d.consume) c
  | _ => (s, shared, [])

/-- The server sees that it was asked to stop. -/
def serverStops (s : Session α) (shared : ServerShared) (world : Surroundings) (torn : Nat) :
    Session α × ServerShared × List RuntimeEvent :=
  match s.server with
  | .receiving _ =>
    let (status, c) := (s.connection shared).sendFrame world .bye []
    s.resume shared torn (.ended status) c
  | _ => (s, shared, [])

/-- One step of a session. -/
def act (config : ServerConfig) (s : Session α) (shared : ServerShared) :
    SessionAction → Session α × ServerShared × List RuntimeEvent
  | .clientSends failure => (s.clientSends failure, shared, [])
  | .clientReceives received => (s.clientReceives received, shared, [])
  | .serverReceives received world torn => s.serverReceives shared received world torn
  | .serverServes world torn => s.serverServes config shared world torn
  | .serverStops world torn => s.serverStops shared world torn

/-- What the client has returned. -/
def returned (s : Session α) : Option α :=
  match s.client with
  | .running program => program.returned
  | .waiting _ _ _ => none

end Session

/-! ### The network -/

/-- The sessions, the server, and the calls of the runtime so far. -/
abbrev Network (ι α : Type) := Parties ι (Session α) ServerShared RuntimeEvent

namespace Network

variable {ι α : Type}

/-- The other threads of the process leave the runtime, and the counters of the server, in another
state. The configuration of the runtime stays. -/
def interfere (shared other : ServerShared) : ServerShared × List RuntimeEvent :=
  ({ other with runtime := { other.runtime with config := shared.runtime.config } }, [])

/-- One step of the network. -/
def step [DecidableEq ι] (config : ServerConfig) :
    Network ι α → Turn ι SessionAction ServerShared → Unit × Network ι α :=
  Parties.step (Session.act config) interfere

/-- A connection that was just accepted, with the program of its client. -/
def connect (serverLimits limits : Limits) (program : Client α) : Session α :=
  { limits := limits
    client := .running program
    server := .receiving { limits := serverLimits } }

/-- A server with its connections. -/
def start (runtime : Runtime) (stats : ServerStats) (limits : ι → Limits)
    (programs : ι → Client α) : Network ι α :=
  { own := fun i => connect runtime.config.limits (limits i) (programs i)
    shared := { runtime := runtime, stats := stats } }

/-- Every client pushes records. -/
def pushing (runtime : Runtime) (stats : ServerStats) (clients : ι → IngestClientConfig)
    (records : ι → List EvidenceRecord) : Network ι (Result IngestClientResult) :=
  start runtime stats (fun i => (clients i).limits) fun i => pushRecords (clients i) (records i)

end Network

end CongestionObservatory
