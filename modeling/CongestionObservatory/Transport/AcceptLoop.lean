import CongestionObservatory.Transport.Message

/-!
# `CongestionObservatory.Transport.AcceptLoop`: the connections of a server

`IngestServer::run` (`transport/server.cpp`) accepts connections and serves each of them on a
thread of its own, at most `max_connections` at a time. The loop looks at the stop flag and at the
token between two connections. It joins every thread before it returns.

The thread of `run` moves from one access to something shared to the next: a flag, the listener,
the `finished` flag of a worker, a join. In between, a worker enters `serve_connection` or returns
from it, and other threads ask the server to stop or cancel the token. A run of the loop is a list
of such steps in any order. A step that a thread cannot make is `blocked`: `run` waits in a join,
or it has returned.

What `serve_connection` does is the subject of `Transport.Server` and `Transport.Network`. Threads
that cannot be created are not part of the model.
-/

set_option autoImplicit false

namespace CongestionObservatory

/-- Where the thread of a connection is: created, in `serve_connection`, or done with its flag
set. -/
inductive ConnectionStage where
  | created
  | serving
  | finished
  deriving DecidableEq, Repr

/-- `ConnectionWorker`. -/
structure ConnectionWorker (κ : Type) where
  connection : κ
  stage : ConnectionStage := .created
  deriving DecidableEq, Repr

/-- Where `run` is. -/
inductive RunPhase (κ : Type) where
  /-- At the condition of the loop. -/
  | head
  | accepting
  /-- Before the second look at the flags. -/
  | acceptFailed (error : Error)
  /-- In `reap_finished`, before the worker at the index. -/
  | reaping (connection : κ) (index : Nat)
  /-- Before the look at the limit. -/
  | admitting (connection : κ)
  /-- In the joins, before the worker at the index. -/
  | joining (index : Nat) (status : Status)
  | returned (status : Status)
  deriving DecidableEq

/-- The variables of `run` and the members of the server that it shares. -/
structure AcceptLoop (κ : Type) where
  phase : RunPhase κ := .head
  workers : List (ConnectionWorker κ) := []
  stopRequested : Bool := false
  cancelled : Bool := false
  stats : ServerStats := {}

/-- A step of one thread. A turn of `run` comes with what `accept` returns, for the case that it is
there. -/
inductive AcceptStep (κ : Type) where
  | turn (accepted : Result κ)
  | begin (index : Nat)
  | finish (index : Nat)
  | stop
  | cancel

/-- What a step answers. -/
inductive AcceptReply (κ : Type) where
  | done
  | accepted (connection : κ)
  | refused (connection : κ) (frame : Frame)
  | admitted (connection : κ)
  | began (connection : κ)
  | ended (connection : κ)
  | returned (status : Status)
  | blocked
  deriving DecidableEq

namespace AcceptLoop

variable {κ : Type} (maxConnections : Nat) (s : AcceptLoop κ)

/-- `run` from its start. Without a listener it returns at once. -/
def enter (listening : Bool) : AcceptLoop κ :=
  if listening then {}
  else { phase :=
    .returned (.error (makeError .preconditionFailed "server has not been started")) }

/-- The condition of the loop. -/
def stopping : Bool := s.stopRequested || s.cancelled

/-- The frame a connection beyond the limit is refused with. -/
def refusal : Frame :=
  { type := .error
    payload := encodeErrorJson .queueFull (ascii "connection limit reached")
      (decimal maxConnections) }

/-- One round of `reap_finished`. A worker whose flag is set is joined and erased. -/
def reap (connection : κ) (index : Nat) : AcceptLoop κ :=
  match s.workers[index]? with
  | none => { s with phase := .admitting connection }
  | some worker =>
    if worker.stage = .finished then { s with workers := s.workers.eraseIdx index }
    else { s with phase := .reaping connection (index + 1) }

/-- The limit: a connection beyond it is refused, and any other one gets a thread. -/
def startWorker (connection : κ) : AcceptReply κ × AcceptLoop κ :=
  if s.workers.length ≥ maxConnections then
    (.refused connection (refusal maxConnections),
      { s with
        phase := .head
        stats := { s.stats with connectionsRejected := s.stats.connectionsRejected + 1 } })
  else
    (.admitted connection,
      { s with phase := .head, workers := s.workers ++ [{ connection := connection }] })

/-- One round of the joins. -/
def join (index : Nat) (status : Status) : AcceptReply κ × AcceptLoop κ :=
  match s.workers[index]? with
  | none => (.returned status, { s with phase := .returned status })
  | some worker =>
    if worker.stage = .finished then (.done, { s with phase := .joining (index + 1) status })
    else (.blocked, s)

/-- The thread of `run`. -/
def turn (accepted : Result κ) : AcceptReply κ × AcceptLoop κ :=
  match s.phase with
  | .head =>
    (.done, { s with phase := if s.stopping then .joining 0 (.ok ()) else .accepting })
  | .accepting =>
    match accepted with
    | .ok connection => (.accepted connection, { s with phase := .reaping connection 0 })
    | .error e => (.done, { s with phase := .acceptFailed e })
  | .acceptFailed e =>
    (.done, { s with phase := .joining 0 (if s.stopping then .ok () else .error e) })
  | .reaping connection index => (.done, s.reap connection index)
  | .admitting connection => s.startWorker maxConnections connection
  | .joining index status => s.join index status
  | .returned _ => (.blocked, s)

/-- A worker enters `serve_connection`, which counts the connection. -/
def begin (index : Nat) : AcceptReply κ × AcceptLoop κ :=
  match s.workers[index]? with
  | some ⟨connection, .created⟩ =>
    (.began connection,
      { s with
        workers := s.workers.set index ⟨connection, .serving⟩
        stats := { s.stats with connectionsAccepted := s.stats.connectionsAccepted + 1 } })
  | _ => (.blocked, s)

/-- `serve_connection` has returned, and the worker sets its flag. -/
def finish (index : Nat) : AcceptReply κ × AcceptLoop κ :=
  match s.workers[index]? with
  | some ⟨connection, .serving⟩ =>
    (.ended connection, { s with workers := s.workers.set index ⟨connection, .finished⟩ })
  | _ => (.blocked, s)

/-- One step of one thread. -/
def step : AcceptStep κ → AcceptReply κ × AcceptLoop κ
  | .turn accepted => s.turn maxConnections accepted
  | .begin index => s.begin index
  | .finish index => s.finish index
  | .stop => (.done, { s with stopRequested := true })
  | .cancel => (.done, { s with cancelled := true })

/-- The connection `run` has accepted and neither refused nor admitted. -/
def pending : Option κ :=
  match s.phase with
  | .reaping connection _ | .admitting connection => some connection
  | _ => none

/-- The workers that have not set their flags. -/
def live : List (ConnectionWorker κ) := s.workers.filter fun worker => worker.stage ≠ .finished

end AcceptLoop

end CongestionObservatory
