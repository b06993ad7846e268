import CongestionObservatory.Proofs.Transport.Frame
import CongestionObservatory.Transport.Server

/-!
# `CongestionObservatory.Proofs.Transport.Server`: the protocol of one connection

The nested loops of `serve_connection` are one pass over what the decoder delivers. `deliveries`
are the frames and errors of a decoder that is fed the same pieces and drained after each of them,
as a receiver without a server would see them. `serveLoop_eq` says that the server answers these
deliveries one after the other (`answer`) and stops at the first one that ends the connection.

The server chooses a `reply` to each delivery and sends it (`sends_answer`). The reply is the one
the protocol prescribes (`prescribed_reply`). But a frame that is longer than `max_frame_bytes` is
not sent, and the server does not look at that bound when it makes the reply: then the connection
ends without an answer. `serve_follows_protocol_iff` says that a connection whose sends succeed
follows the protocol exactly when every reply is within the bound.
-/

set_option autoImplicit false

namespace CongestionObservatory

open Lib

namespace IngestServer

/-! ### The deliveries -/

/-- What the decoder gives the server. -/
inductive Delivery where
  | frame (frame : Frame)
  | refused (e : Error)
  | undecodable (e : Error)

/-- How the loop over the frames ended. -/
def ofStatus : Status → List Delivery
  | .ok () => []
  | .error e => [.undecodable e]

/-- The deliveries of one piece. -/
def ofReceived (r : FrameDecoder.Received) : List Delivery :=
  match r.fed with
  | .error e => [.refused e]
  | .ok () => r.frames.map .frame ++ ofStatus r.drained

/-- The deliveries of a decoder that is fed the pieces. -/
def deliveriesFrom (d : FrameDecoder) (pieces : List Text) : List Delivery :=
  (trace FrameDecoder.receive d pieces).flatMap fun entry => ofReceived entry.2

/-- The deliveries of a fresh decoder. -/
def deliveries (limits : Limits) (pieces : List Text) : List Delivery :=
  deliveriesFrom { limits := limits } pieces

/-- The pieces before the peer closes its side or the socket fails. -/
def pieces : List (Result Text) → List Text
  | .ok data :: rest => if data = [] then [] else data :: pieces rest
  | _ => []

/-- The status the loop ends with after all pieces, or `none` where it waits. -/
def closing : List (Result Text) → Option Status
  | [] => none
  | .error e :: _ => some (.error e)
  | .ok data :: rest => if data = [] then some (.ok ()) else closing rest

/-! ### One pass over the deliveries -/

variable (config : ServerConfig) (world : Surroundings)

/-- The answer of the server to one delivery. -/
def answer (c : Connection) : Delivery → Option Status × Connection
  | .frame frame => handleFrame config world (c.receive frame) frame
  | .refused e => Connection.ended (c.fail world e.code "frame rejected" e.describe)
  | .undecodable e => Connection.ended (c.fail world e.code "frame decode failed" e.describe)

/-- The answers to deliveries, up to the first one that ends the connection. -/
def answerAll : Connection → List Delivery → Option Status × Connection
  | c, [] => (none, c)
  | c, delivery :: rest =>
    match answer config world c delivery with
    | (some status, c) => (some status, c)
    | (none, c) => answerAll c rest

theorem answerAll_append (c : Connection) (first second : List Delivery) :
    answerAll config world c (first ++ second)
      = match answerAll config world c first with
        | (some status, c) => (some status, c)
        | (none, c) => answerAll config world c second := by
  induction first generalizing c with
  | nil => rfl
  | cons delivery rest ih =>
      rw [List.cons_append, answerAll, answerAll]
      rcases answer config world c delivery with ⟨_ | status, c'⟩
      · exact ih c'
      · rfl

/-- The loop over the frames answers what the decoder delivers, and leaves the decoder as a
receiver does unless it ends. -/
theorem serveFrames_eq (rounds : Nat) (c : Connection) (d : FrameDecoder) :
    ∃ d', serveFrames config world rounds c d
        = ((answerAll config world c ((FrameDecoder.drainLoop rounds d).1.map .frame
              ++ ofStatus (FrameDecoder.drainLoop rounds d).2.1)).1,
            (answerAll config world c ((FrameDecoder.drainLoop rounds d).1.map .frame
              ++ ofStatus (FrameDecoder.drainLoop rounds d).2.1)).2, d') ∧
      ((serveFrames config world rounds c d).1 = none →
        d' = (FrameDecoder.drainLoop rounds d).2.2) := by
  -- Both loops call `next` on the same decoder, so they go through the same rounds. The server
  -- leaves its loop early where an answer ends the connection, and there `d'` does not matter.
  induction rounds generalizing c d with
  | zero => exact ⟨d, rfl, fun _ => rfl⟩
  | succ rounds ih =>
      rcases hnext : d.next with ⟨e | _ | frame, d₁⟩
      · refine ⟨d₁, ?_, fun h => ?_⟩
        · simp only [serveFrames, FrameDecoder.drainLoop, hnext, List.map_nil, List.nil_append,
            ofStatus, answerAll, answer, Connection.ended]
        · simp only [serveFrames, hnext, Connection.ended, reduceCtorEq] at h
      · refine ⟨d₁, ?_, fun _ => ?_⟩
        · simp only [serveFrames, FrameDecoder.drainLoop, hnext, List.map_nil, List.nil_append,
            ofStatus, answerAll]
        · simp only [FrameDecoder.drainLoop, hnext]
      · rcases hanswer : handleFrame config world (c.receive frame) frame with ⟨_ | status, c'⟩
        · obtain ⟨d', hserve, hrest⟩ := ih c' d₁.consume
          refine ⟨d', ?_, fun h => ?_⟩
          · simp only [serveFrames, FrameDecoder.drainLoop, hnext, hanswer, List.map_cons,
              List.cons_append, answerAll, answer, hserve]
          · simp only [serveFrames, hnext, hanswer] at h
            simp only [FrameDecoder.drainLoop, hnext]
            exact hrest h
        · refine ⟨d₁.consume, ?_, fun h => ?_⟩
          · simp only [serveFrames, FrameDecoder.drainLoop, hnext, hanswer, List.map_cons,
              List.cons_append, answerAll, answer]
          · simp only [serveFrames, hnext, hanswer, reduceCtorEq] at h

/-- One round of the loop, when nobody stops the server. -/
theorem serveLoop_ok (c : Connection) (d : FrameDecoder) {data : Text} (hdata : data ≠ [])
    (rest : List (Result Text)) :
    serveLoop config world .never .never c d (.ok data :: rest)
      = match d.feed data with
        | (.error e, _) => answerAll config world c [.refused e]
        | (.ok (), d) =>
          match serveFrames config world (d.buffer.length + 1) c d with
          | (some status, c, _) => (some status, c)
          | (none, c, d) => serveLoop config world .never .never c d rest := by
  rw [serveLoop]
  show (if data = [] then _ else _) = _
  rw [if_neg hdata]
  rfl

/-- Serving a connection is answering the deliveries of its pieces. -/
theorem serveLoop_eq (c : Connection) (d : FrameDecoder) (received : List (Result Text)) :
    serveLoop config world .never .never c d received
      = match answerAll config world c (deliveriesFrom d (pieces received)) with
        | (some status, c) => (some status, c)
        | (none, c) => (closing received, c) := by
  -- The invariant is that the server's decoder is the receiver's, as long as nothing has ended.
  induction received generalizing c d with
  | nil => rfl
  | cons result rest ih =>
      cases result with
      | error e => rfl
      | ok data =>
          by_cases hdata : data = []
          · subst hdata
            rfl
          · rw [serveLoop_ok config world c d hdata]
            simp only [pieces, closing, if_neg hdata, deliveriesFrom, trace, List.flatMap_cons,
              answerAll_append]
            rcases hfeed : d.feed data with ⟨e | _, d₁⟩
            · -- A refused piece is the last one that is read: what a receiver would deliver after
              -- it is behind the answer that ends the connection.
              simp only [FrameDecoder.receive, hfeed, ofReceived]
              rfl
            · obtain ⟨d', hserve, hrest⟩ := serveFrames_eq config world (d₁.buffer.length + 1) c d₁
              simp only [FrameDecoder.receive, hfeed, ofReceived, FrameDecoder.drain]
              rw [hserve] at hrest ⊢
              rcases hall : answerAll config world c _ with ⟨_ | status, c'⟩
              · rw [hall] at hrest
                have hdecoder := hrest rfl
                show serveLoop config world .never .never c' d' rest = _
                rw [ih, hdecoder]
                rfl
              · rfl

/-! ### The replies -/

/-- A reply, with the connection before it is sent, how a sent reply is counted and, where it ends
the connection, the status of that. -/
structure Reply where
  connection : Connection
  frame : Frame
  count : ServerStats → ServerStats := id
  closing : Option Status := none

namespace Reply

/-- The connection once the reply was sent. -/
def sent (r : Reply) : Connection :=
  { r.connection.note (.sent r.frame (.ok ())) with
    stats := r.count { r.connection.stats with framesSent := r.connection.stats.framesSent + 1 } }

/-- The reply is within the bound of a frame. -/
def Fits (r : Reply) : Prop :=
  r.frame.payload.length + 8 ≤ r.connection.limits.frameBytes.toNat

end Reply

/-- The reply of the lambda `fail`. -/
def failure (c : Connection) (code : ErrorCode) (message : String) (detail : Text) : Reply :=
  { connection := { c with stats := { c.stats with protocolErrors := c.stats.protocolErrors + 1 } }
    frame := { type := .error, payload := encodeErrorJson code (ascii message) detail }
    closing := some (.error (makeError code message detail)) }

/-- The reply to an observation that may be answered. -/
def replyToObservation (c : Connection) (frame : Frame) : Reply :=
  match decodeIngestJson frame.payload c.limits with
  | .error _ =>
    { connection := c
      frame := { type := .ingestAck, payload := encodeIngestAckJson {} }
      count := ServerStats.countRejected }
  | .ok record =>
    let now := if config.useOverrideTime then config.nowSourceOverride
      else world.nowWallClock c.log.length
    let (outcome, runtime) := c.runtime.ingest record now
    let c := { c.note (.ingested record now) with runtime := runtime }
    match outcome with
    | .error e =>
      { connection := c
        frame :=
          { type := .ingestAck
            payload := encodeIngestAckJson { id := record.id, detail := e.describe } }
        count := ServerStats.countRejected }
    | .ok outcome =>
      { connection := c
        frame := { type := .ingestAck, payload := encodeIngestAckJson outcome }
        count := if outcome.stored then ServerStats.countAccepted else ServerStats.countRejected }

/-- The reply to a frame that was counted. -/
def replyToFrame (c : Connection) (frame : Frame) : Reply :=
  match frame.type with
  | .hello =>
    { connection := { c with greeted := true }
      frame :=
        { type := .welcome, payload := encodeHelloJson (clientId frame.payload c.limits) } }
  | .ingest =>
    if config.requireHello && !c.greeted then
      failure c .protocolError "hello frame required" (ascii "the first frame must be a hello")
    else replyToObservation config world c frame
  | .ping => { connection := c, frame := { type := .pong, payload := versionString } }
  | .stats => { connection := c, frame := { type := .statsReply, payload := encodeStatsJson c.stats } }
  | .bye => { connection := c, frame := { type := .bye }, closing := some (.ok ()) }
  | _ => failure c .protocolError "unsupported frame type" (({} : Frame).type.str)

/-- The reply to a delivery. -/
def reply (c : Connection) : Delivery → Reply
  | .frame frame => replyToFrame config world (c.receive frame) frame
  | .refused e => failure c e.code "frame rejected" e.describe
  | .undecodable e => failure c e.code "frame decode failed" e.describe

/-- The replies to deliveries where each reply is sent, up to the first one that ends the
connection. -/
def repliesTo : Connection → List Delivery → List Reply
  | _, [] => []
  | c, delivery :: rest =>
    reply config world c delivery ::
      match (reply config world c delivery).closing with
      | some _ => []
      | none => repliesTo (reply config world c delivery).sent rest

/-- The connection when it is opened. -/
def opened (runtime : Runtime) (stats : ServerStats) : Connection :=
  { runtime := runtime
    stats := { stats with connectionsAccepted := stats.connectionsAccepted + 1 } }

/-- Every reply to what the decoder delivers is within the bound of a frame. -/
def RepliesFit (runtime : Runtime) (stats : ServerStats) (received : List (Result Text)) : Prop :=
  ∀ r ∈ repliesTo config world (opened runtime stats)
    (deliveries runtime.config.limits (pieces received)), r.Fits

/-- An answer sends the reply. A reply that is not within the bound of a frame is not sent, and ends
the connection. -/
structure Sends (r : Reply) (result : Option Status × Connection) : Prop where
  fits : r.Fits → result = (r.closing, r.sent)
  exceeds : ¬ r.Fits → ∃ e, result = (some (.error e), r.connection.note (.sent r.frame (.error e)))

variable {config world} {c : Connection}

theorem sends_sendFrame (hsends : ∀ n bytes, world.sendAll n bytes = .ok ()) (c : Connection)
    (type : FrameType) (payload : Text) :
    (payload.length + 8 ≤ c.limits.frameBytes.toNat →
      c.sendFrame world type payload = (.ok (),
        { c.note (.sent { type := type, payload := payload } (.ok ())) with
          stats := { c.stats with framesSent := c.stats.framesSent + 1 } })) ∧
    (¬ payload.length + 8 ≤ c.limits.frameBytes.toNat →
      ∃ e, c.sendFrame world type payload
        = (.error e, c.note (.sent { type := type, payload := payload } (.error e)))) := by
  have hiff := @encodeFrame_eq_ok { type := type, payload := payload } c.limits
  refine ⟨fun hfits => ?_, fun hexceeds => ?_⟩
  · have hsent : (encodeFrame { type := type, payload := payload } c.limits
        >>= world.sendAll c.log.length) = .ok () := by
      rw [hiff.mpr ⟨hfits, rfl⟩]
      exact hsends _ _
    simp only [Connection.sendFrame, hsent]
  · cases hencode : encodeFrame { type := type, payload := payload } c.limits with
    | ok bytes => exact absurd (hiff.mp hencode).1 hexceeds
    | error e =>
        have hsent : (encodeFrame { type := type, payload := payload } c.limits
            >>= world.sendAll c.log.length) = .error e := by
          rw [hencode]
          rfl
        simp only [Connection.sendFrame, hsent]
        exact ⟨e, rfl⟩

/-- A branch that replies and goes on. -/
theorem sends_respond (hsends : ∀ n bytes, world.sendAll n bytes = .ok ()) (type : FrameType)
    (payload : Text) (count : ServerStats → ServerStats) :
    Sends { connection := c, frame := { type := type, payload := payload }, count := count }
      (c.respond world type payload count) := by
  obtain ⟨hfits, hexceeds⟩ := sends_sendFrame hsends c type payload
  refine ⟨fun h => ?_, fun h => ?_⟩
  · rw [Connection.respond, hfits h]
    rfl
  · obtain ⟨e, hsent⟩ := hexceeds h
    rw [Connection.respond, hsent]
    exact ⟨e, rfl⟩

/-- A branch that reports a failure and returns. -/
theorem sends_fail (hsends : ∀ n bytes, world.sendAll n bytes = .ok ()) (code : ErrorCode)
    (message : String) (detail : Text) :
    Sends (failure c code message detail)
      (Connection.ended (c.fail world code message detail)) := by
  unfold failure Connection.fail
  dsimp only
  -- Only the shape matters here, not what the texts are.
  generalize encodeErrorJson code (ascii message) detail = payload
  generalize makeError code message detail = error
  obtain ⟨hfits, hexceeds⟩ := sends_sendFrame hsends
    { c with stats := { c.stats with protocolErrors := c.stats.protocolErrors + 1 } } .error payload
  refine ⟨fun h => ?_, fun h => ?_⟩
  · rw [hfits h]
    rfl
  · obtain ⟨e, hsent⟩ := hexceeds h
    rw [hsent]
    exact ⟨e, rfl⟩
theorem sends_replyToObservation (hsends : ∀ n bytes, world.sendAll n bytes = .ok ())
    (frame : Frame) :
    Sends (replyToObservation config world c frame) (handleObservation config world c frame) := by
  unfold replyToObservation handleObservation
  cases decodeIngestJson frame.payload c.limits with
  | error e =>
      dsimp only
      generalize encodeIngestAckJson {} = payload
      exact sends_respond hsends .ingestAck payload _
  | ok record =>
      dsimp only
      generalize (if config.useOverrideTime then config.nowSourceOverride
        else world.nowWallClock c.log.length) = now
      cases (c.runtime.ingest record now).1 with
      | error e =>
          dsimp only
          generalize encodeIngestAckJson _ = payload
          exact sends_respond hsends .ingestAck payload _
      | ok outcome =>
          dsimp only
          generalize encodeIngestAckJson outcome = payload
          exact sends_respond hsends .ingestAck payload _

/-- The server answers a delivery with its reply. -/
theorem sends_answer (hsends : ∀ n bytes, world.sendAll n bytes = .ok ()) (delivery : Delivery) :
    Sends (reply config world c delivery) (answer config world c delivery) := by
  cases delivery with
  | refused e => exact sends_fail hsends _ _ _
  | undecodable e => exact sends_fail hsends _ _ _
  | frame frame =>
      cases htype : frame.type with
      | ingest =>
          simp only [reply, answer, replyToFrame, handleFrame, htype]
          split
          · exact sends_fail hsends _ _ _
          · exact sends_replyToObservation hsends frame
      | bye =>
          simp only [reply, answer, replyToFrame, handleFrame, htype]
          obtain ⟨hfits, hexceeds⟩ := sends_sendFrame hsends (c.receive frame) .bye []
          refine ⟨fun h => ?_, fun h => ?_⟩
          · rw [hfits h]
            rfl
          · obtain ⟨e, hsent⟩ := hexceeds h
            rw [hsent]
            exact ⟨e, rfl⟩
      | hello | ping | stats =>
          simp only [reply, answer, replyToFrame, handleFrame, htype]
          exact sends_respond hsends _ _ _
      | welcome | ingestAck | statsReply | pong | error | undeclared =>
          simp only [reply, answer, replyToFrame, handleFrame, htype]
          exact sends_fail hsends _ _ _

/-! ### The script of a connection -/

/-- What happened, without the texts of the replies. -/
inductive Step where
  | delivered (frame : Frame)
  | observed (record : EvidenceRecord)
  | replied (type : FrameType)
  | unsent (type : FrameType)

/-- What an entry of the log says. -/
def stepOf : ServerEffect → Step
  | .received frame => .delivered frame
  | .ingested record _ => .observed record
  | .sent frame (.ok ()) => .replied frame.type
  | .sent frame (.error _) => .unsent frame.type

/-- An observation was acknowledged. -/
def Step.isAck : Step → Bool
  | .replied .ingestAck => true
  | _ => false

/-- The reply of a step. -/
def Step.reply : Step → Option FrameType
  | .replied type => some type
  | _ => none

/-- The record of a step. -/
def Step.record : Step → Option EvidenceRecord
  | .observed record => some record
  | _ => none

/-- The observations that were counted. -/
def tally (stats : ServerStats) : UInt64 := stats.recordsAccepted + stats.recordsRejected

/-- The delivery is a hello. -/
def isHello : Delivery → Bool
  | .frame frame =>
    match frame.type with
    | .hello => true
    | _ => false
  | _ => false

/-- The delivery ends the connection: an error, a bye, an unsupported frame, or an observation
before the hello that is required. -/
def ends (config : ServerConfig) (greeted : Bool) : Delivery → Bool
  | .frame frame =>
    match frame.type with
    | .hello | .ping | .stats => false
    | .ingest => config.requireHello && !greeted
    | _ => true
  | _ => true

/-- The type of the frame that answers a delivery. -/
def replyTo (config : ServerConfig) (greeted : Bool) : Delivery → FrameType
  | .frame frame =>
    match frame.type with
    | .hello => .welcome
    | .ingest => if config.requireHello && !greeted then .error else .ingestAck
    | .ping => .pong
    | .stats => .statsReply
    | .bye => .bye
    | _ => .error
  | _ => .error

/-- The record of an observation that is not refused, where its payload has a valid one. -/
def observation (config : ServerConfig) (limits : Limits) (greeted : Bool) :
    Delivery → Option EvidenceRecord
  | .frame frame =>
    match frame.type with
    | .ingest =>
      if config.requireHello && !greeted then none
      else (decodeIngestJson frame.payload limits).toOption
    | _ => none
  | _ => none

/-- The frame of a delivery. -/
def frameOf : Delivery → Option Frame
  | .frame frame => some frame
  | _ => none

/-- What happens at a delivery before it is answered. -/
def preface (config : ServerConfig) (limits : Limits) (greeted : Bool) (delivery : Delivery) :
    List Step :=
  (frameOf delivery).toList.map .delivered
    ++ (observation config limits greeted delivery).toList.map .observed

/-- What happens at one delivery. -/
def script (config : ServerConfig) (limits : Limits) (greeted : Bool) (delivery : Delivery) :
    List Step :=
  preface config limits greeted delivery ++ [.replied (replyTo config greeted delivery)]

/-- What a reply has to be: what has happened before it, its type, whether it ends the connection,
whether a hello was seen by then, and that it is counted if it acknowledges an observation. -/
structure Prescribed (c : Connection) (steps : List Step) (type : FrameType) (closed greeted : Bool)
    (r : Reply) : Prop where
  log : r.connection.log.map stepOf = c.log.map stepOf ++ steps
  replyType : r.frame.type = type
  limits : r.connection.limits = c.limits
  closed : r.closing.isSome = closed
  greeted : r.connection.greeted = greeted
  uncounted : tally r.connection.stats = tally c.stats
  counted : ∀ stats, tally (r.count stats)
    = tally stats + UInt64.ofNat ([Step.replied type].countP Step.isAck)

/-- A failure ends the connection. -/
theorem prescribed_failure {c₁ : Connection} {steps : List Step} {greeted : Bool} {code : ErrorCode}
    {message : String} {detail : Text} (hlog : c₁.log.map stepOf = c.log.map stepOf ++ steps)
    (hlimits : c₁.limits = c.limits) (hgreeted : c₁.greeted = greeted)
    (htally : tally c₁.stats = tally c.stats) :
    Prescribed c steps .error true greeted (failure c₁ code message detail) :=
  ⟨hlog, rfl, hlimits, rfl, hgreeted, htally, fun _ => (UInt64.add_zero _).symm⟩

/-- An observation is acknowledged, and a valid record is ingested before. -/
theorem prescribed_observation (frame : Frame) :
    Prescribed c ((decodeIngestJson frame.payload c.limits).toOption.toList.map .observed)
      .ingestAck false c.greeted (replyToObservation config world c frame) := by
  have hrejected : ∀ stats, tally (ServerStats.countRejected stats)
      = tally stats + UInt64.ofNat ([Step.replied .ingestAck].countP Step.isAck) := fun stats =>
    (UInt64.add_assoc _ _ _).symm
  have haccepted : ∀ stats, tally (ServerStats.countAccepted stats)
      = tally stats + UInt64.ofNat ([Step.replied .ingestAck].countP Step.isAck) := fun stats => by
    show stats.recordsAccepted + 1 + stats.recordsRejected
      = stats.recordsAccepted + stats.recordsRejected + 1
    rw [UInt64.add_assoc, UInt64.add_comm 1, UInt64.add_assoc]
  unfold replyToObservation
  cases decodeIngestJson frame.payload c.limits with
  | error e => exact ⟨(List.append_nil _).symm, rfl, rfl, rfl, rfl, rfl, hrejected⟩
  | ok record =>
      dsimp only
      -- The time only matters to `ingest`, and whatever `ingest` makes of the record is
      -- acknowledged.
      generalize (if config.useOverrideTime then config.nowSourceOverride
        else world.nowWallClock c.log.length) = now
      -- `ingest` changes the runtime, but not the limits that the next frames are decoded with.
      have hconfig : (c.runtime.ingest record now).2.config = c.runtime.config := by
        unfold Runtime.ingest
        split <;> rfl
      have hlimits := congrArg RuntimeConfig.limits hconfig
      cases (c.runtime.ingest record now).1 with
      | error e => exact ⟨List.map_append, rfl, hlimits, rfl, rfl, rfl, hrejected⟩
      | ok outcome =>
          refine ⟨List.map_append, rfl, hlimits, rfl, rfl, rfl, ?_⟩
          dsimp only
          split
          · exact haccepted
          · exact hrejected

/-- Steps that come before. -/
theorem Prescribed.after {c₁ : Connection} {before steps : List Step} {type : FrameType}
    {closed greeted : Bool} {r : Reply} (h : Prescribed c₁ steps type closed greeted r)
    (hlog : c₁.log.map stepOf = c.log.map stepOf ++ before) (hlimits : c₁.limits = c.limits)
    (htally : tally c₁.stats = tally c.stats) :
    Prescribed c (before ++ steps) type closed greeted r where
  log := by rw [h.log, hlog, List.append_assoc]
  replyType := h.replyType
  limits := h.limits.trans hlimits
  closed := h.closed
  greeted := h.greeted
  uncounted := h.uncounted.trans htally
  counted := h.counted

/-- The reply to a delivery is the one that is prescribed. -/
theorem prescribed_reply (delivery : Delivery) :
    Prescribed c (preface config c.limits c.greeted delivery) (replyTo config c.greeted delivery)
      (ends config c.greeted delivery) (c.greeted || isHello delivery)
      (reply config world c delivery) := by
  cases delivery with
  | refused e =>
      refine prescribed_failure ?_ rfl ?_ rfl <;> simp [preface, frameOf, observation, isHello]
  | undecodable e =>
      refine prescribed_failure ?_ rfl ?_ rfl <;> simp [preface, frameOf, observation, isHello]
  | frame frame =>
      have hlog : (c.receive frame).log.map stepOf = c.log.map stepOf ++ [.delivered frame] :=
        List.map_append
      cases htype : frame.type with
      | ingest =>
          simp only [reply, replyToFrame, preface, frameOf, observation, replyTo, ends, isHello,
            htype, Bool.or_false]
          cases hrefused : config.requireHello && !c.greeted with
          | true =>
              rw [show (config.requireHello && !(c.receive frame).greeted) = true from hrefused]
              exact prescribed_failure hlog rfl rfl rfl
          | false =>
              rw [show (config.requireHello && !(c.receive frame).greeted) = false from hrefused]
              exact (prescribed_observation frame).after hlog rfl rfl
      | hello =>
          simp only [reply, replyToFrame, preface, frameOf, observation, replyTo, ends, isHello,
            htype, Bool.or_true]
          exact ⟨hlog, rfl, rfl, rfl, rfl, rfl, fun _ => (UInt64.add_zero _).symm⟩
      | ping | stats | bye =>
          simp only [reply, replyToFrame, preface, frameOf, observation, replyTo, ends, isHello,
            htype, Bool.or_false]
          exact ⟨hlog, rfl, rfl, rfl, rfl, rfl, fun _ => (UInt64.add_zero _).symm⟩
      | welcome | ingestAck | statsReply | pong | error | undeclared =>
          simp only [reply, replyToFrame, preface, frameOf, observation, replyTo, ends, isHello,
            htype, Bool.or_false]
          exact prescribed_failure hlog rfl rfl rfl

/-! ### Whole connections -/

/-- The deliveries the server handles, each with whether a hello came before it: all of them up to
the first one that ends the connection. -/
def handled (config : ServerConfig) : Bool → List Delivery → List (Bool × Delivery)
  | _, [] => []
  | greeted, delivery :: rest =>
    (greeted, delivery) ::
      if ends config greeted delivery then []
      else handled config (greeted || isHello delivery) rest

/-- What happens at the handled deliveries. -/
def play (config : ServerConfig) (limits : Limits) (entries : List (Bool × Delivery)) : List Step :=
  entries.flatMap fun entry => script config limits entry.1 entry.2

/-- Nothing is acknowledged before the reply. -/
theorem countP_preface (limits : Limits) (greeted : Bool) (delivery : Delivery) :
    (preface config limits greeted delivery).countP Step.isAck = 0 := by
  unfold preface
  cases frameOf delivery <;> cases observation config limits greeted delivery <;> rfl

/-- Nothing is replied before the reply. -/
theorem reply_preface (limits : Limits) (greeted : Bool) (delivery : Delivery) :
    (preface config limits greeted delivery).filterMap Step.reply = [] := by
  unfold preface
  cases frameOf delivery <;> cases observation config limits greeted delivery <;> rfl

/-- A reply that is sent ends the script of its delivery. -/
theorem log_sent {steps : List Step} {type : FrameType} {closed greeted : Bool} {r : Reply}
    (h : Prescribed c steps type closed greeted r) :
    r.sent.log.map stepOf = c.log.map stepOf ++ (steps ++ [.replied type]) := by
  show (r.connection.log ++ [ServerEffect.sent r.frame (.ok ())]).map stepOf = _
  rw [List.map_append, h.log, List.append_assoc, ← h.replyType]
  rfl

theorem tally_sent {steps : List Step} {type : FrameType} {closed greeted : Bool} {r : Reply}
    (h : Prescribed c steps type closed greeted r) :
    tally r.sent.stats
      = tally c.stats + UInt64.ofNat ([Step.replied type].countP Step.isAck) := by
  rw [← h.uncounted]
  exact h.counted _

theorem limits_sent {steps : List Step} {type : FrameType} {closed greeted : Bool} {r : Reply}
    (h : Prescribed c steps type closed greeted r) : r.sent.limits = c.limits := h.limits

theorem greeted_sent {steps : List Step} {type : FrameType} {closed greeted : Bool} {r : Reply}
    (h : Prescribed c steps type closed greeted r) : r.sent.greeted = greeted := h.greeted

theorem isHello_eq_true {delivery : Delivery} (h : isHello delivery = true) :
    ∃ frame, Step.delivered frame ∈ (frameOf delivery).toList.map .delivered ∧
      frame.type = .hello := by
  cases delivery with
  | frame frame =>
      refine ⟨frame, by simp [frameOf], ?_⟩
      cases htype : frame.type <;> simp [isHello, htype] at h ⊢
  | refused e => cases h
  | undecodable e => cases h

/-- An observation of the script is the one of its delivery, and is not refused. -/
theorem greeted_of_observed (hrequire : config.requireHello = true) {limits : Limits}
    {greeted : Bool} {delivery : Delivery} {record : EvidenceRecord}
    (h : Step.observed record ∈ script config limits greeted delivery) : greeted = true := by
  have hobservation : observation config limits greeted delivery = some record := by
    simpa [script, preface] using h
  cases delivery with
  | frame frame =>
      cases htype : frame.type <;> simp only [observation, htype, reduceCtorEq] at hobservation
      split at hobservation
      · cases hobservation
      · next hallowed => simpa [hrequire] using hallowed
  | refused e => cases hobservation
  | undecodable e => cases hobservation

/-- With a required hello, an observation is not ingested before a hello was delivered. -/
theorem hello_before_observed (hrequire : config.requireHello = true) {limits : Limits}
    {deliveries : List Delivery} {greeted : Bool} {before after : List Step}
    {record : EvidenceRecord}
    (h : play config limits (handled config greeted deliveries)
      = before ++ .observed record :: after) :
    greeted = true ∨ ∃ frame, Step.delivered frame ∈ before ∧ frame.type = .hello := by
  induction deliveries generalizing greeted before with
  | nil => simp [play, handled] at h
  | cons delivery rest ih =>
      -- The observation is in the script of a later delivery or in the one of this delivery.
      have hsplit : (∃ before', before = script config limits greeted delivery ++ before' ∧
            play config limits (if ends config greeted delivery then []
              else handled config (greeted || isHello delivery) rest)
              = before' ++ .observed record :: after) ∨
          Step.observed record ∈ script config limits greeted delivery := by
        have hparts : script config limits greeted delivery ++ play config limits
            (if ends config greeted delivery then []
              else handled config (greeted || isHello delivery) rest)
            = before ++ .observed record :: after := h
        rcases List.append_eq_append_iff.mp hparts with
          ⟨before', hbefore, hlater⟩ | ⟨after', hfirst, hlater⟩
        · exact Or.inl ⟨before', hbefore, hlater⟩
        · cases after' with
          | nil =>
              rw [List.append_nil] at hfirst
              exact Or.inl ⟨[], by rw [hfirst, List.append_nil], hlater.symm⟩
          | cons step after' =>
              obtain ⟨rfl, -⟩ := List.cons.inj hlater
              rw [hfirst]
              exact Or.inr (List.mem_append_right _ List.mem_cons_self)
      rcases hsplit with ⟨before', rfl, hlater⟩ | hmem
      · cases hends : ends config greeted delivery with
        | true => simp [hends, play] at hlater
        | false =>
            simp only [hends, Bool.false_eq_true, if_false] at hlater
            rcases ih hlater with hgreeted | ⟨frame, hmem, htype⟩
            · -- The later deliveries count as greeted, by an earlier hello or by this delivery.
              rcases (Bool.or_eq_true _ _).mp hgreeted with hgreeted | hhello
              · exact Or.inl hgreeted
              · obtain ⟨frame, hmem, htype⟩ := isHello_eq_true hhello
                refine Or.inr ⟨frame, List.mem_append_left _ ?_, htype⟩
                exact List.mem_append_left _ (List.mem_append_left _ hmem)
            · exact Or.inr ⟨frame, List.mem_append_right _ hmem, htype⟩
      · exact Or.inl (greeted_of_observed hrequire hmem)

/-- The types of the frames that were sent. -/
def replies (log : List ServerEffect) : List FrameType :=
  log.filterMap fun effect =>
    match effect with
    | .sent frame (.ok ()) => some frame.type
    | _ => none

/-- The records that were passed to `Runtime::ingest`. -/
def ingests (log : List ServerEffect) : List EvidenceRecord :=
  log.filterMap fun effect =>
    match effect with
    | .ingested record _ => some record
    | _ => none

/-- What happened on the connection is what the protocol says about the deliveries: each handled
one has one reply, each accepted observation is ingested once, and the counters count the
acknowledgements. -/
structure FollowsProtocol (config : ServerConfig) (limits : Limits) (all : List Delivery)
    (stats : ServerStats) (c : Connection) : Prop where
  answered : replies c.log
    = (handled config false all).map fun entry => replyTo config entry.1 entry.2
  ingested : ingests c.log
    = (handled config false all).filterMap fun entry => observation config limits entry.1 entry.2
  inOrder : c.log.map stepOf = play config limits (handled config false all)
  greeted : config.requireHello = true → ∀ before record now after,
    c.log = before ++ .ingested record now :: after →
      ∃ frame, ServerEffect.received frame ∈ before ∧ frame.type = .hello
  counted : tally c.stats = tally stats + UInt64.ofNat ((replies c.log).count .ingestAck)

theorem replies_eq (log : List ServerEffect) :
    replies log = (log.map stepOf).filterMap Step.reply := by
  rw [List.filterMap_map]
  refine List.filterMap_congr fun effect _ => ?_
  cases effect with
  | received frame => rfl
  | ingested record now => rfl
  | sent frame status => cases status <;> rfl

theorem ingests_eq (log : List ServerEffect) :
    ingests log = (log.map stepOf).filterMap Step.record := by
  rw [List.filterMap_map]
  refine List.filterMap_congr fun effect _ => ?_
  cases effect with
  | received frame => rfl
  | ingested record now => rfl
  | sent frame status => cases status <;> rfl

theorem count_acks (steps : List Step) :
    (steps.filterMap Step.reply).count .ingestAck = steps.countP Step.isAck := by
  rw [List.count, List.countP_filterMap]
  refine List.countP_congr fun step _ => ?_
  cases step with
  | replied type => cases type <;> exact Iff.rfl
  | delivered frame => exact Iff.rfl
  | observed record => exact Iff.rfl
  | unsent type => exact Iff.rfl

/-- A script has one reply. -/
theorem replies_play (limits : Limits) (entries : List (Bool × Delivery)) :
    (play config limits entries).filterMap Step.reply
      = entries.map fun entry => replyTo config entry.1 entry.2 := by
  induction entries with
  | nil => rfl
  | cons entry rest ih =>
      have hscript : (script config limits entry.1 entry.2).filterMap Step.reply
          = [replyTo config entry.1 entry.2] := by
        rw [script, preface, List.filterMap_append, List.filterMap_append, List.filterMap_map,
          List.filterMap_map]
        cases frameOf entry.2 <;> cases observation config limits entry.1 entry.2 <;> rfl
      rw [play, List.flatMap_cons, List.filterMap_append, hscript, ← play, ih]
      rfl

/-- A script ingests the observation of its delivery, if it has one. -/
theorem ingests_play (limits : Limits) (entries : List (Bool × Delivery)) :
    (play config limits entries).filterMap Step.record
      = entries.filterMap fun entry => observation config limits entry.1 entry.2 := by
  induction entries with
  | nil => rfl
  | cons entry rest ih =>
      have hscript : (script config limits entry.1 entry.2).filterMap Step.record
          = (observation config limits entry.1 entry.2).toList := by
        rw [script, preface, List.filterMap_append, List.filterMap_append, List.filterMap_map,
          List.filterMap_map]
        cases frameOf entry.2 <;> cases observation config limits entry.1 entry.2 <;> rfl
      rw [play, List.flatMap_cons, List.filterMap_append, hscript, ← play, ih,
        List.filterMap_cons]
      cases observation config limits entry.1 entry.2 <;> rfl

/-! ### Whole passes -/

/-- Where every reply is within its bound, the answers to deliveries follow the script of those that
are handled. -/
theorem log_answerAll (hsends : ∀ n bytes, world.sendAll n bytes = .ok ())
    {deliveries : List Delivery} (hfits : ∀ r ∈ repliesTo config world c deliveries, r.Fits) :
    (answerAll config world c deliveries).2.log.map stepOf
        = c.log.map stepOf ++ play config c.limits (handled config c.greeted deliveries) ∧
      tally (answerAll config world c deliveries).2.stats = tally c.stats + UInt64.ofNat
        ((play config c.limits (handled config c.greeted deliveries)).countP Step.isAck) := by
  induction deliveries generalizing c with
  | nil => exact ⟨(List.append_nil _).symm, (UInt64.add_zero _).symm⟩
  | cons delivery rest ih =>
      have hreply := @prescribed_reply config world c delivery
      have hanswer := (@sends_answer config world c hsends delivery).fits
        (hfits _ List.mem_cons_self)
      have hlog := log_sent hreply
      have htally := tally_sent hreply
      have hacks : (script config c.limits c.greeted delivery).countP Step.isAck
          = [Step.replied (replyTo config c.greeted delivery)].countP Step.isAck := by
        rw [script, List.countP_append, countP_preface, Nat.zero_add]
      rw [answerAll, hanswer, handled, play, List.flatMap_cons, List.countP_append, hacks]
      cases hclosing : (reply config world c delivery).closing with
      | some status =>
          have hends : ends config c.greeted delivery = true := by
            rw [← hreply.closed, hclosing]
            rfl
          rw [hends]
          exact ⟨by rw [hlog]; simp [script], htally⟩
      | none =>
          have hends : ends config c.greeted delivery = false := by
            rw [← hreply.closed, hclosing]
            rfl
          rw [hends]
          have hrest : ∀ r ∈ repliesTo config world (reply config world c delivery).sent rest,
              r.Fits := by
            intro r hr
            refine hfits r (List.mem_cons_of_mem _ ?_)
            rw [hclosing]
            exact hr
          obtain ⟨hlog', htally'⟩ := ih hrest
          rw [limits_sent hreply, greeted_sent hreply] at hlog' htally'
          refine ⟨hlog'.trans ?_, htally'.trans ?_⟩
          · rw [hlog, List.append_assoc]
            rfl
          · rw [htally, UInt64.add_assoc, UInt64.ofNat_add]
            rfl

/-- Where a reply is not within its bound, fewer frames are sent than deliveries are handled. -/
theorem length_replies_lt (hsends : ∀ n bytes, world.sendAll n bytes = .ok ())
    {deliveries : List Delivery} (hexceeds : ∃ r ∈ repliesTo config world c deliveries, ¬ r.Fits) :
    (replies (answerAll config world c deliveries).2.log).length
      < (replies c.log).length + (handled config c.greeted deliveries).length := by
  induction deliveries generalizing c with
  | nil =>
      obtain ⟨r, hr, -⟩ := hexceeds
      exact absurd hr List.not_mem_nil
  | cons delivery rest ih =>
      have hreply := @prescribed_reply config world c delivery
      obtain ⟨hanswer, hunsent⟩ := @sends_answer config world c hsends delivery
      have hbefore : replies (reply config world c delivery).connection.log = replies c.log := by
        rw [replies_eq, replies_eq, hreply.log, List.filterMap_append, reply_preface,
          List.append_nil]
      rw [answerAll, handled, List.length_cons]
      by_cases hfits : (reply config world c delivery).Fits
      · -- This reply is sent, so one that is not sent is among the later ones.
        have hone : (replies (reply config world c delivery).sent.log).length
            = (replies c.log).length + 1 := by
          rw [replies_eq, log_sent hreply, ← List.append_assoc, ← hreply.log,
            List.filterMap_append, ← replies_eq, hbefore, List.length_append]
          rfl
        rw [hanswer hfits]
        obtain ⟨r, hr, hnot⟩ := hexceeds
        rw [repliesTo, List.mem_cons] at hr
        rcases hr with rfl | hr
        · exact absurd hfits hnot
        cases hclosing : (reply config world c delivery).closing with
        | some status =>
            rw [hclosing] at hr
            exact absurd hr List.not_mem_nil
        | none =>
            rw [hclosing] at hr
            have hends : ends config c.greeted delivery = false := by
              rw [← hreply.closed, hclosing]
              rfl
            have hlater := ih ⟨r, hr, hnot⟩
            rw [hone, greeted_sent hreply] at hlater
            rw [hends]
            simp only [Bool.false_eq_true, if_false]
            omega
      · obtain ⟨e, hresult⟩ := hunsent hfits
        rw [hresult]
        have hnone : replies ((reply config world c delivery).connection.note
            (.sent (reply config world c delivery).frame (.error e))).log = replies c.log := by
          rw [← hbefore]
          exact (List.filterMap_append).trans (List.append_nil _)
        show (replies _).length < _
        rw [hnone]
        omega

/-- **Each connection whose sends succeed follows the protocol exactly when every reply is within
the bound of a frame.** -/
theorem serve_follows_protocol_iff (config : ServerConfig) (world : Surroundings)
    (runtime : Runtime) (stats : ServerStats) (received : List (Result Text))
    (hsends : ∀ n bytes, world.sendAll n bytes = .ok ()) :
    FollowsProtocol config runtime.config.limits
        (deliveries runtime.config.limits (pieces received)) stats
        (serveConnection config world .never .never runtime stats received).2 ↔
      RepliesFit config world runtime stats received := by
  have hserve : (serveConnection config world .never .never runtime stats received).2
      = (answerAll config world (opened runtime stats)
          (deliveries runtime.config.limits (pieces received))).2 := by
    rw [serveConnection, serveLoop_eq]
    show _ = (answerAll _ _ _ (deliveriesFrom { limits := runtime.config.limits } _)).2
    -- A pass that did not end leaves the connection as it is, and only the status is still open.
    split
    · next hall => rw [show answerAll config world (opened runtime stats) _ = _ from hall]
    · next hall => rw [show answerAll config world (opened runtime stats) _ = _ from hall]
  rw [hserve]
  constructor
  · intro hfollows r hr
    by_contra hexceeds
    have hlt := length_replies_lt hsends ⟨r, hr, hexceeds⟩
    have hlength := congrArg List.length hfollows.answered
    rw [List.length_map] at hlength
    rw [hlength, show (replies (opened runtime stats).log).length = 0 from rfl, Nat.zero_add] at hlt
    exact absurd hlt (Nat.lt_irrefl _)
  · intro hfits
    obtain ⟨hlog, htally⟩ := log_answerAll hsends hfits
    generalize (answerAll config world _ _).2 = c at hlog htally ⊢
    replace hlog : c.log.map stepOf = play config runtime.config.limits
      (handled config false (deliveries runtime.config.limits (pieces received))) := hlog
    refine ⟨?_, ?_, hlog, fun hrequire before record now after hsplit => ?_, ?_⟩
    · rw [replies_eq, hlog, replies_play]
    · rw [ingests_eq, hlog, ingests_play]
    · have hsteps : play config runtime.config.limits
          (handled config false (deliveries runtime.config.limits (pieces received)))
          = before.map stepOf ++ .observed record :: after.map stepOf := by
        rw [← hlog, hsplit, List.map_append]
        rfl
      rcases hello_before_observed hrequire hsteps with hgreeted | ⟨frame, hmem, htype⟩
      · cases hgreeted
      · obtain ⟨effect, heffect, hframe⟩ := List.mem_map.mp hmem
        refine ⟨frame, ?_, htype⟩
        cases effect with
        | received frame' =>
            cases hframe
            exact heffect
        | ingested record' now' => cases hframe
        | sent frame' status => cases status <;> cases hframe
    · rw [replies_eq, hlog, count_acks]
      exact htally

/-- A clock that stands still and a socket that sends everything. -/
def quiet : Surroundings := { nowWallClock := fun _ => Timestamp.zero, sendAll := fun _ _ => .ok () }

/-- A ping before the hello, an observation that is no document, and a bye, in two pieces. -/
def shortConnection : List (Result Text) :=
  [.ok (({ type := .ping } : Frame).wire ++ ({ type := .hello } : Frame).wire
      ++ (({ type := .ingest } : Frame).wire.take 20)),
    .ok ((({ type := .ingest } : Frame).wire.drop 20) ++ ({ type := .bye } : Frame).wire)]

theorem shortConnection_follows_protocol :
    replies (serveConnection {} quiet .never .never (Runtime.initial {}) {} shortConnection).2.log
        = [.pong, .welcome, .ingestAck, .bye] ∧
      FollowsProtocol {} {} (deliveries {} (pieces shortConnection)) {}
        (serveConnection {} quiet .never .never (Runtime.initial {}) {} shortConnection).2 :=
  ⟨by decide +kernel, (serve_follows_protocol_iff {} quiet (Runtime.initial {}) {} shortConnection
    fun _ _ => rfl).mpr (by unfold RepliesFit Reply.Fits; decide +kernel)⟩

/-- Limits with room for a ping, and none for the version in a pong. -/
def tightLimits : Limits := { maxFrameBytes := 8 }

/-- A ping is delivered and not answered, although every send succeeds. -/
theorem ping_not_answered :
    tightLimits.validate = .ok () ∧ (∀ n bytes, quiet.sendAll n bytes = .ok ()) ∧
      ¬ FollowsProtocol {} tightLimits
        (deliveries tightLimits (pieces [.ok ({ type := .ping } : Frame).wire])) {}
        (serveConnection {} quiet .never .never (Runtime.initial { limits := tightLimits }) {}
          [.ok ({ type := .ping } : Frame).wire]).2 := by
  refine ⟨by decide, fun _ _ => rfl, fun hfollows => ?_⟩
  have hanswered := hfollows.answered
  revert hanswered
  decide +kernel

end IngestServer

end CongestionObservatory
