import CongestionObservatory.Proofs.Runtime.Soundness
import CongestionObservatory.Proofs.Transport.Stream
import CongestionObservatory.Transport.Network

/-!
# `CongestionObservatory.Proofs.Transport.Handling`: what the server does for a frame

`Answered` says what the server may do for a frame: which calls of the runtime it makes, and which
reply it sends. An observation is acknowledged with what `Runtime::ingest` returned, or refused
without a call. `handleFrame_handles` proves this of `handleFrame`, together with what it leaves in
the log of the connection, and `Handles.bytes` says what it leaves in the stream.
-/

set_option autoImplicit false

namespace CongestionObservatory

open Lib

/-! ### The answer to a frame -/

/-- The outcome that the server acknowledges a record with. -/
def acknowledged (record : EvidenceRecord) : Result IngestOutcome → IngestOutcome
  | .ok outcome => outcome
  | .error e => { id := record.id, detail := e.describe }

/-- What the server does for a frame of a type with a payload: the calls of the runtime, and the
reply. -/
inductive Answered (limits : Limits) (type : FrameType) (payload : Text) :
    List RuntimeEvent → Frame → Prop where
  | unreadable (e : Error) (htype : type = .ingest) (hread : decodeIngestJson payload limits = .error e) :
      Answered limits type payload []
        { type := .ingestAck, payload := encodeIngestAckJson {} }
  | ingested (record : EvidenceRecord) (now : Timestamp) (result : Result IngestOutcome)
      (htype : type = .ingest) (hread : decodeIngestJson payload limits = .ok record) :
      Answered limits type payload [(.ingest record now, .admitted result)]
        { type := .ingestAck, payload := encodeIngestAckJson (acknowledged record result) }
  | refused (reply : Frame) (hreply : reply.type = .error) : Answered limits type payload [] reply
  | other (reply : Frame) (htype : type ≠ .ingest) (hreply : reply.type ≠ .ingestAck) :
      Answered limits type payload [] reply

/-- An observation is acknowledged with the answer of the runtime to the record of its payload, or
without a call where the payload has none. -/
inductive Acknowledges (limits : Limits) (payload : Text) (calls : List RuntimeEvent) (ack : Text) :
    Prop where
  | unreadable (e : Error) (hread : decodeIngestJson payload limits = .error e)
      (hcalls : calls = []) (hack : ack = encodeIngestAckJson {})
  | ingested (record : EvidenceRecord) (now : Timestamp) (result : Result IngestOutcome)
      (hread : decodeIngestJson payload limits = .ok record)
      (hcalls : calls = [(.ingest record now, .admitted result)])
      (hack : ack = encodeIngestAckJson (acknowledged record result))

theorem Answered.acknowledges {limits : Limits} {type : FrameType} {payload : Text}
    {calls : List RuntimeEvent} {reply : Frame} (h : Answered limits type payload calls reply)
    (hreply : reply.type = .ingestAck) : Acknowledges limits payload calls reply.payload := by
  cases h with
  | unreadable e htype hread => exact .unreadable e hread rfl rfl
  | ingested record now result htype hread =>
      dsimp only
      exact .ingested record now result hread rfl rfl
  | refused reply herror => rw [herror] at hreply; cases hreply
  | other reply htype hother => exact absurd hreply hother

/-- Nothing is ingested without an acknowledgement. -/
theorem Answered.calls_eq_nil {limits : Limits} {type : FrameType} {payload : Text}
    {calls : List RuntimeEvent} {reply : Frame} (h : Answered limits type payload calls reply)
    (hreply : reply.type ≠ .ingestAck) : calls = [] := by
  cases h with
  | unreadable e htype hread => rfl
  | ingested record now result htype hread => exact absurd rfl hreply
  | refused reply herror => rfl
  | other reply htype hother => rfl

/-- Only an observation is acknowledged. -/
theorem Answered.not_ingest {limits : Limits} {type : FrameType} {payload : Text}
    {calls : List RuntimeEvent} {reply : Frame} (h : Answered limits type payload calls reply)
    (htype : type ≠ .ingest) : reply.type ≠ .ingestAck ∧ calls = [] := by
  cases h with
  | unreadable e hingest hread => exact absurd hingest htype
  | ingested record now result hingest hread => exact absurd hingest htype
  | refused reply herror =>
      refine ⟨fun hack => ?_, rfl⟩
      rw [herror] at hack
      cases hack
  | other reply hingest hother => exact ⟨hother, rfl⟩

/-- An observation is acknowledged or refused. -/
theorem Answered.ingestAck {limits : Limits} {payload : Text} {calls : List RuntimeEvent}
    {reply : Frame} (h : Answered limits .ingest payload calls reply)
    (hreply : reply.type ≠ .error) : reply.type = .ingestAck := by
  cases h with
  | unreadable e htype hread => rfl
  | ingested record now result htype hread => rfl
  | refused reply herror => exact absurd herror hreply
  | other reply htype hother => exact absurd rfl htype

/-! ### The bytes of a reply -/

namespace FrameDecoder

/-- What a send puts into the stream begins with its frame. -/
theorem begins_sentBytes (limits : Limits) (torn : Nat) (frame : Frame) (status : Status) :
    Begins frame [] (Session.sentBytes limits torn (.sent frame status)) := by
  cases hencode : encodeFrame frame limits with
  | error e =>
      simp only [Session.sentBytes, hencode]
      exact Or.inl rfl
  | ok bytes =>
      obtain ⟨hfits, rfl⟩ := encodeFrame_eq_ok.mp hencode
      have hsize := Nat.lt_of_le_of_lt hfits (frameBytes_lt limits)
      refine Or.inr ⟨hsize, ?_⟩
      rw [List.append_nil]
      cases status with
      | error e =>
          simp only [Session.sentBytes, hencode]
          exact List.take_prefix torn frame.wire
      | ok u =>
          simp only [Session.sentBytes, hencode]
          exact List.prefix_rfl

/-- A send that succeeded puts the whole frame there. -/
theorem sentBytes_ok {limits : Limits} {frame : Frame}
    (hfits : frame.payload.length + 8 ≤ limits.frameBytes.toNat) (torn : Nat) :
    Session.sentBytes limits torn (.sent frame (.ok ())) = frame.wire := by
  simp only [Session.sentBytes, encodeFrame_eq_ok.mpr ⟨hfits, rfl⟩]

end FrameDecoder

open FrameDecoder

/-! ### The steps of the server -/

/-- What a part of the server does that answers with one frame: the effects before its send, the
frame, and how the send went. -/
structure Handles (c : Connection) (before : List ServerEffect) (reply : Frame) (status : Status)
    (c' : Connection) : Prop where
  log : c'.log = c.log ++ (before ++ [.sent reply status])
  silent : ∀ limits torn, before.flatMap (Session.sentBytes limits torn) = []
  config : c'.runtime.config = c.runtime.config
  fits : status = .ok () → reply.payload.length + 8 ≤ c.limits.frameBytes.toNat

namespace IngestServer

variable {config : ServerConfig} {world : Surroundings} {c : Connection}

theorem handles_sendFrame (type : FrameType) (payload : Text) :
    Handles c [] { type := type, payload := payload } (c.sendFrame world type payload).1
      (c.sendFrame world type payload).2 := by
  cases hencode : encodeFrame { type := type, payload := payload } c.limits with
  | error e =>
      simp only [Connection.sendFrame, hencode]
      exact ⟨rfl, fun _ _ => rfl, rfl, fun h => by cases h⟩
  | ok bytes =>
      obtain ⟨hfits, -⟩ := encodeFrame_eq_ok.mp hencode
      cases hsend : world.sendAll c.log.length bytes with
      | error e =>
          have hsent : (Except.ok bytes >>= world.sendAll c.log.length) = .error e := hsend
          simp only [Connection.sendFrame, hencode, hsent]
          exact ⟨rfl, fun _ _ => rfl, rfl, fun _ => hfits⟩
      | ok u =>
          have hsent : (Except.ok bytes >>= world.sendAll c.log.length) = .ok () := hsend
          simp only [Connection.sendFrame, hencode, hsent]
          exact ⟨rfl, fun _ _ => rfl, rfl, fun _ => hfits⟩

/-- An error is counted. -/
def countError (c : Connection) : Connection :=
  { c with stats := { c.stats with protocolErrors := c.stats.protocolErrors + 1 } }

theorem fail_snd (code : ErrorCode) (message : String) (detail : Text) :
    (c.fail world code message detail).2
      = ((countError c).sendFrame world .error (encodeErrorJson code (ascii message) detail)).2 := by
  unfold Connection.fail
  dsimp only
  split
  · next hresult => rw [countError, hresult]
  · next hresult => rw [countError, hresult]

/-- A frame that cannot be served is answered with an error frame. -/
theorem handles_fail (code : ErrorCode) (message : String) (detail : Text) :
    ∃ status, Handles c []
      { type := .error, payload := encodeErrorJson code (ascii message) detail } status
      (c.fail world code message detail).2 := by
  rw [fail_snd]
  generalize encodeErrorJson code (ascii message) detail = payload
  have h := @handles_sendFrame world (countError c) .error payload
  exact ⟨_, h.log, h.silent, h.config, h.fits⟩

/-- A branch that replies goes on when its send succeeded. -/
theorem handles_respond (type : FrameType) (payload : Text) (count : ServerStats → ServerStats) :
    ∃ status, Handles c [] { type := type, payload := payload } status
        (c.respond world type payload count).2 ∧
      ((c.respond world type payload count).1 = none → status = .ok ()) := by
  have hsend := @handles_sendFrame world c type payload
  unfold Connection.respond
  split
  · next e c' hresult =>
      rw [hresult] at hsend
      exact ⟨_, hsend, fun h => by cases h⟩
  · next c' hresult =>
      rw [hresult] at hsend
      exact ⟨.ok (), ⟨hsend.log, hsend.silent, hsend.config, hsend.fits⟩, fun _ => rfl⟩

/-- An observation that may be answered. -/
theorem handles_handleObservation (frame : Frame) (htype : frame.type = .ingest) :
    ∃ before reply status,
      Handles c before reply status (handleObservation config world c frame).2 ∧
        Answered c.limits frame.type frame.payload
          (before.filterMap (Session.callOf c.runtime)) reply ∧
        ((handleObservation config world c frame).1 = none →
          status = .ok () ∧ reply.type ≠ .error) := by
  cases hread : decodeIngestJson frame.payload c.limits with
  | error e =>
      obtain ⟨status, hhandles, hgoes⟩ := @handles_respond world c .ingestAck
        (encodeIngestAckJson {}) ServerStats.countRejected
      simp only [handleObservation, hread]
      exact ⟨[], _, status, hhandles, .unreadable e htype hread,
        fun h => ⟨hgoes h, fun h => by cases h⟩⟩
  | ok record =>
      simp only [handleObservation, hread]
      generalize (if config.useOverrideTime then config.nowSourceOverride
        else world.nowWallClock c.log.length) = now
      have hconfig : (c.runtime.ingest record now).2.config = c.runtime.config := by
        unfold Runtime.ingest
        split <;> rfl
      -- The record is ingested first. Both results are acknowledged in the same way.
      have hone : ∀ payload count, ∃ status,
          Handles c [.ingested record now] { type := .ingestAck, payload := payload } status
              (Connection.respond { c.note (.ingested record now) with
                runtime := (c.runtime.ingest record now).2 } world .ingestAck payload count).2 ∧
            ((Connection.respond { c.note (.ingested record now) with
                runtime := (c.runtime.ingest record now).2 } world .ingestAck payload count).1 = none →
              status = .ok ()) := by
        intro payload count
        obtain ⟨status, hhandles, hgoes⟩ := @handles_respond world
          { c.note (.ingested record now) with runtime := (c.runtime.ingest record now).2 }
          .ingestAck payload count
        refine ⟨status, ⟨?_, fun _ _ => rfl, ?_, ?_⟩, hgoes⟩
        · rw [hhandles.log]
          exact List.append_assoc _ _ _
        · exact hhandles.config.trans hconfig
        · intro hok
          show _ ≤ c.runtime.config.limits.frameBytes.toNat
          rw [← hconfig]
          exact hhandles.fits hok
      have hanswered : ∀ result, result = (c.runtime.ingest record now).1 →
          Answered c.limits frame.type frame.payload
            ([ServerEffect.ingested record now].filterMap (Session.callOf c.runtime))
            { type := .ingestAck, payload := encodeIngestAckJson (acknowledged record result) } := by
        rintro result rfl
        exact .ingested record now _ htype hread
      cases hresult : (c.runtime.ingest record now).1 with
      | error e =>
          have hone' := hanswered _ hresult.symm
          rw [acknowledged] at hone'
          obtain ⟨status, hhandles, hgoes⟩ := hone
            (encodeIngestAckJson { id := record.id, detail := e.describe })
            ServerStats.countRejected
          exact ⟨_, _, status, hhandles, hone', fun h => ⟨hgoes h, fun h => by cases h⟩⟩
      | ok outcome =>
          have hone' := hanswered _ hresult.symm
          rw [acknowledged] at hone'
          obtain ⟨status, hhandles, hgoes⟩ := hone (encodeIngestAckJson outcome)
            (if outcome.stored then ServerStats.countAccepted else ServerStats.countRejected)
          exact ⟨_, _, status, hhandles, hone', fun h => ⟨hgoes h, fun h => by cases h⟩⟩

/-- **What the server does for a frame.** -/
theorem handleFrame_handles (frame : Frame) :
    ∃ before reply status,
      Handles c before reply status (handleFrame config world c frame).2 ∧
        Answered c.limits frame.type frame.payload
          (before.filterMap (Session.callOf c.runtime)) reply ∧
        ((handleFrame config world c frame).1 = none → status = .ok () ∧ reply.type ≠ .error) := by
  have hresponds : ∀ (c' : Connection) (type : FrameType) (payload : Text),
      c'.log = c.log → c'.runtime = c.runtime → frame.type ≠ .ingest → type ≠ .ingestAck →
      type ≠ .error → ∃ before reply status,
        Handles c before reply status (c'.respond world type payload id).2 ∧
          Answered c.limits frame.type frame.payload
            (before.filterMap (Session.callOf c.runtime)) reply ∧
          ((c'.respond world type payload id).1 = none → status = .ok () ∧ reply.type ≠ .error) := by
    intro c' type payload hlog hruntime hingest hack herror
    obtain ⟨status, h, hgoes⟩ := @handles_respond world c' type payload id
    refine ⟨[], { type := type, payload := payload }, status, ⟨?_, h.silent, ?_, ?_⟩,
      .other _ hingest hack, fun hnone => ⟨hgoes hnone, herror⟩⟩
    · rw [h.log, hlog]
    · rw [← hruntime]
      exact h.config
    · show _ → _ ≤ c.runtime.config.limits.frameBytes.toNat
      rw [← hruntime]
      exact h.fits
  have hfails : ∀ (message : String) (detail : Text), ∃ before reply status,
      Handles c before reply status
          (Connection.ended (c.fail world .protocolError message detail)).2 ∧
        Answered c.limits frame.type frame.payload
          (before.filterMap (Session.callOf c.runtime)) reply ∧
        ((Connection.ended (c.fail world .protocolError message detail)).1 = none →
          status = .ok () ∧ reply.type ≠ .error) := by
    intro message detail
    obtain ⟨status, h⟩ := @handles_fail world c .protocolError message detail
    simp only [Connection.ended]
    exact ⟨[], _, status, h, .refused _ rfl, fun hnone => by cases hnone⟩
  unfold handleFrame
  split
  · next htype =>
      exact hresponds { c with greeted := true } _ _ rfl rfl (by simp [htype]) (by simp) (by simp)
  · next htype =>
      split
      · exact hfails _ _
      · exact handles_handleObservation frame htype
  · next htype => exact hresponds c _ _ rfl rfl (by simp [htype]) (by simp) (by simp)
  · next htype => exact hresponds c _ _ rfl rfl (by simp [htype]) (by simp) (by simp)
  · next htype =>
      have h := @handles_sendFrame world c .bye []
      simp only [Connection.ended]
      exact ⟨[], _, _, h, .other _ (by simp [htype]) (by simp), fun hnone => by cases hnone⟩
  · exact hfails _ _

end IngestServer

end CongestionObservatory
