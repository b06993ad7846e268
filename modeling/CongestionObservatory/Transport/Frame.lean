import CongestionObservatory.Lib.LittleEndian
import CongestionObservatory.Core.Checked
import CongestionObservatory.Core.Limits

/-!
# `CongestionObservatory.Transport.Frame`: the frame protocol

A frame (`transport/frame.hpp`) is a header of 24 bytes, its payload and the checksum of the
payload. The header is the magic, the protocol version, the type, the flags and the length of
payload and checksum together, all little endian.

`encodeFrame` writes a frame. `FrameDecoder` gets bytes in pieces: `feed` appends a piece to its
buffer, `next` looks for a complete frame at the front of the buffer and keeps it as the current
one, and `consume` takes the current frame off the buffer. `drain` is the loop every caller runs
after a `feed`, and `receive` the two together.

`max_frame_bytes` is a `std::size_t`. The decoder adds the header to it without a check, so the
bound of its buffer wraps; `frameBytes` is the bound with its 64 bits.
-/

set_option autoImplicit false

namespace CongestionObservatory

open Lib

/-- `FrameType`. -/
inductive FrameType where
  | hello
  | welcome
  | ingest
  | ingestAck
  | stats
  | statsReply
  | ping
  | pong
  | bye
  | error
  | undeclared (raw : UInt32) (h : raw = 0 ∨ 11 ≤ raw)
  deriving DecidableEq, Repr

instance : ScopedEnum FrameType UInt32 where
  toUnderlying
    | .hello => 1
    | .welcome => 2
    | .ingest => 3
    | .ingestAck => 4
    | .stats => 5
    | .statsReply => 6
    | .ping => 7
    | .pong => 8
    | .bye => 9
    | .error => 10
    | .undeclared raw _ => raw
  ofUnderlying raw :=
    if h : raw = 0 ∨ 11 ≤ raw then .undeclared raw h
    else [.hello, .welcome, .ingest, .ingestAck, .stats, .statsReply, .ping, .pong, .bye,
      .error].getD (raw.toNat - 1) .error
  ofUnderlying_toUnderlying e := by
    cases e with
    | undeclared raw h => exact dif_pos h
    | _ => rfl

/-- `to_string(FrameType)`. A value without an enumerator reads `error`. -/
def FrameType.str : FrameType → Text
  | .hello => ascii "hello"
  | .welcome => ascii "welcome"
  | .ingest => ascii "ingest"
  | .ingestAck => ascii "ingest_ack"
  | .stats => ascii "stats"
  | .statsReply => ascii "stats_reply"
  | .ping => ascii "ping"
  | .pong => ascii "pong"
  | .bye => ascii "bye"
  | .error => ascii "error"
  | .undeclared _ _ => ascii "error"

/-- `kFrameMagic`: `COF1`. -/
def kFrameMagic : UInt32 := 0x31464F43

/-- `kFrameHeaderBytes`. -/
def kFrameHeaderBytes : Nat := 4 + 4 + 4 + 4 + 8

/-- `kProtocolVersion`. -/
def kProtocolVersion : UInt32 := 1

/-- `Frame`. -/
structure Frame where
  type : FrameType := .error
  flags : UInt32 := 0
  payload : Text := []
  crc64 : UInt64 := 0
  deriving DecidableEq, Repr

/-- `max_frame_bytes` as a `std::size_t`. -/
def Limits.frameBytes (limits : Limits) : UInt64 := UInt64.ofNat limits.maxFrameBytes

/-- `put_u32`. -/
def putU32 (value : UInt32) : Text := LittleEndian.encode 4 value.toNat

/-- `put_u64`. -/
def putU64 (value : UInt64) : Text := LittleEndian.encode 8 value.toNat

/-- `get_u32` at an offset of the data. -/
def getU32 (data : Text) (offset : Nat) : UInt32 :=
  UInt32.ofNat (LittleEndian.decode ((data.drop offset).take 4))

/-- `get_u64` at an offset of the data. -/
def getU64 (data : Text) (offset : Nat) : UInt64 :=
  UInt64.ofNat (LittleEndian.decode ((data.drop offset).take 8))

/-- `encode_frame`. The checksum is computed from the payload; the field of the frame is not
looked at. -/
def encodeFrame (frame : Frame) (limits : Limits) : Result Text :=
  match checkedAdd frame.payload.length 8 with
  | none => .error (makeError .arithmeticOverflow "frame body length overflow")
  | some bodyLength =>
    if bodyLength > limits.frameBytes.toNat then
      .error (makeError .limitExceeded "frame exceeds the configured bound" (decimal bodyLength))
    else
      .ok (putU32 kFrameMagic ++ putU32 kProtocolVersion ++ putU32 (toUnderlying frame.type)
        ++ putU32 frame.flags ++ putU64 (UInt64.ofNat bodyLength)
        ++ frame.payload ++ putU64 (crc64 frame.payload))

/-- `FrameDecoder`. -/
structure FrameDecoder where
  limits : Limits
  buffer : Text := []
  cursor : Nat := 0
  current : Frame := {}
  haveCurrent : Bool := false
  framesDecoded : Nat := 0
  deriving DecidableEq

namespace FrameDecoder

/-- The bound of the buffer, a sum of two `std::size_t`. -/
def bound (limits : Limits) : Nat := (limits.frameBytes + UInt64.ofNat kFrameHeaderBytes).toNat

/-- `FrameDecoder::feed`. -/
def feed (d : FrameDecoder) (data : Text) : Status × FrameDecoder :=
  match checkedAdd d.buffer.length data.length with
  | none => (.error (makeError .arithmeticOverflow "frame buffer size overflow"), d)
  | some nextSize =>
    if nextSize > bound d.limits then
      (.error (makeError .limitExceeded "frame buffer would exceed the configured bound"
        (decimal nextSize)), d)
    else (.ok (), { d with buffer := d.buffer ++ data })

/-- The checks of `next` on a complete header: the length of the body and of the whole frame. -/
def readHeader (limits : Limits) (header : Text) : Result (Nat × Nat) := do
  failIf (getU32 header 0 ≠ kFrameMagic) (makeError .protocolError "frame magic does not match")
  let version := getU32 header 4
  failIf (version ≠ kProtocolVersion)
    (makeError .protocolError "frame protocol version differs" (decimal version.toNat))
  let bodyLength := (getU64 header 16).toNat
  failIf (bodyLength < 8)
    (makeError .protocolError "frame body is shorter than its checksum")
  failIf (bodyLength > limits.frameBytes.toNat)
    (makeError .limitExceeded "declared frame length exceeds the configured bound"
      (decimal bodyLength))
  match checkedAdd kFrameHeaderBytes bodyLength with
  | none => .error (makeError .arithmeticOverflow "frame length overflow")
  | some total => pure (bodyLength, total)

/-- The frame at the front of the data, as its header describes it. -/
def frameAt (data : Text) (bodyLength : Nat) : Frame :=
  let payloadLength := bodyLength - 8
  { type := ofUnderlying (getU32 data 8)
    flags := getU32 data 12
    payload := (data.drop kFrameHeaderBytes).take payloadLength
    crc64 := getU64 data (kFrameHeaderBytes + payloadLength) }

/-- `FrameDecoder::next`: the current frame, or the frame at the front of the buffer, or `none`
when more bytes are needed. -/
def next (d : FrameDecoder) : Result (Option Frame) × FrameDecoder :=
  if d.haveCurrent then (.ok (some d.current), d)
  else if d.buffer.length < kFrameHeaderBytes then (.ok none, d)
  else match readHeader d.limits d.buffer with
  | .error e => (.error e, d)
  | .ok (bodyLength, total) =>
    if d.buffer.length < total then (.ok none, d)
    else
      -- The current frame is filled in before its checksum is looked at.
      let current := frameAt d.buffer bodyLength
      if crc64 current.payload ≠ current.crc64 then
        (.error (makeError .protocolError "frame payload checksum mismatch"),
          { d with current := current })
      else
        (.ok (some current),
          { d with
            current := current
            cursor := total
            haveCurrent := true
            framesDecoded := d.framesDecoded + 1 })

/-- `FrameDecoder::consume`. -/
def consume (d : FrameDecoder) : FrameDecoder :=
  if d.haveCurrent then
    { d with buffer := d.buffer.drop d.cursor, cursor := 0, haveCurrent := false, current := {} }
  else d

/-- The loop that takes every complete frame: `next` and `consume`, until `next` has none or
fails. A frame has at least 32 bytes, so the length of the buffer bounds the rounds. -/
def drainLoop : Nat → FrameDecoder → List Frame × Status × FrameDecoder
  | 0, d => ([], .ok (), d)
  | fuel + 1, d =>
    match d.next with
    | (.error e, d) => ([], .error e, d)
    | (.ok none, d) => ([], .ok (), d)
    | (.ok (some frame), d) =>
      let (frames, status, d) := drainLoop fuel d.consume
      (frame :: frames, status, d)

/-- The loop, with rounds for every frame the buffer can hold. -/
def drain (d : FrameDecoder) : List Frame × Status × FrameDecoder :=
  drainLoop (d.buffer.length + 1) d

/-- What a receiver gets out of one piece: whether the piece was accepted, the frames it
completed, and how the loop over them ended. -/
structure Received where
  fed : Status
  frames : List Frame
  drained : Status
  deriving DecidableEq

/-- A piece is fed and, when it was accepted, the decoder is drained. -/
def receive (d : FrameDecoder) (data : Text) : Received × FrameDecoder :=
  match d.feed data with
  | (.error e, d) => ({ fed := .error e, frames := [], drained := .ok () }, d)
  | (.ok (), d) =>
    let (frames, drained, d) := d.drain
    ({ fed := .ok (), frames := frames, drained := drained }, d)

end FrameDecoder

end CongestionObservatory
