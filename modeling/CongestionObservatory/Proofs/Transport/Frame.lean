import CongestionObservatory.Lib.Framing
import CongestionObservatory.Transport.Frame

/-!
# `CongestionObservatory.Proofs.Transport.Frame`: frames that arrive in pieces

The decoder is an instance of the receiver of `Lib.Framing`: between two pieces it holds no
current frame, `scan` is what `next` makes of its buffer, and `receive` is `Framing.receive` on the
buffer (`receive_abs`). A frame that `encodeFrame` accepts is delimited by `scan`
(`delimits_wire`), so what a decoder delivers depends on the bytes it was fed and not on how they
were cut.

The buffer is bounded, and the bound is checked against a piece as a whole, before any frame is
taken off. So a stream of good frames can be refused: exactly when some piece ends more than the
bound behind the start of the first frame that was not complete before it.
-/

set_option autoImplicit false

namespace CongestionObservatory

open Lib

/-! ### The bytes of a frame -/

/-- The header of a frame. -/
def Frame.header (f : Frame) : Text :=
  putU32 kFrameMagic ++ putU32 kProtocolVersion ++ putU32 (toUnderlying f.type) ++ putU32 f.flags
    ++ putU64 (UInt64.ofNat (f.payload.length + 8))

/-- The bytes of a frame. -/
def Frame.wire (f : Frame) : Text :=
  f.header ++ (f.payload ++ putU64 (CongestionObservatory.crc64 f.payload))

/-- The number of these bytes. -/
def Frame.wireSize (f : Frame) : Nat := kFrameHeaderBytes + (f.payload.length + 8)

/-- The frame as it arrives: its checksum field is the checksum of its payload. -/
def Frame.sealed (f : Frame) : Frame := { f with crc64 := CongestionObservatory.crc64 f.payload }

@[simp] theorem length_putU32 (value : UInt32) : (putU32 value).length = 4 :=
  LittleEndian.length_encode 4 _

@[simp] theorem length_putU64 (value : UInt64) : (putU64 value).length = 8 :=
  LittleEndian.length_encode 8 _

theorem Frame.length_header (f : Frame) : f.header.length = kFrameHeaderBytes := by
  simp [header, kFrameHeaderBytes]

theorem Frame.length_wire (f : Frame) : f.wire.length = f.wireSize := by
  rw [wire, List.length_append, f.length_header, List.length_append, length_putU64, wireSize]

theorem frameBytes_lt (limits : Limits) : limits.frameBytes.toNat < kU64Values :=
  UInt64.toNat_lt _

/-- `encode_frame` accepts the frames whose body is within the bound, and writes their bytes. -/
theorem encodeFrame_eq_ok {f : Frame} {limits : Limits} {bytes : Text} :
    encodeFrame f limits = .ok bytes ↔
      f.payload.length + 8 ≤ limits.frameBytes.toNat ∧ bytes = f.wire := by
  have hbound := frameBytes_lt limits
  have hvalues : kU64Values = 2 ^ 64 := rfl
  unfold encodeFrame checkedAdd
  by_cases hfits : f.payload.length + 8 ≤ limits.frameBytes.toNat
  · rw [if_neg (by omega)]
    simp only [if_neg (Nat.not_lt.mpr hfits), hfits, true_and, Except.ok.injEq]
    rw [eq_comm, Frame.wire, Frame.header, ← List.append_assoc]
  · split
    · simp [hfits]
    · next bodyLength hadd =>
        have hlength : bodyLength = f.payload.length + 8 := by
          split at hadd
          · exact absurd hadd (by simp)
          · exact (Option.some.inj hadd).symm
        rw [if_pos (by omega)]
        simp [hfits]

/-- A 32-bit field behind some bytes is read where it stands. -/
theorem getU32_append (before : Text) (value : UInt32) (after : Text) {offset : Nat}
    (h : before.length = offset) : getU32 (before ++ (putU32 value ++ after)) offset = value := by
  have htake : ((before ++ (putU32 value ++ after)).drop offset).take 4 = putU32 value := by
    rw [← h, List.drop_left, List.take_append_of_le_length (by simp), List.take_of_length_le (by simp)]
  rw [getU32, htake, putU32, LittleEndian.decode_encode (UInt32.toNat_lt value)]
  exact UInt32.ofNat_toNat

/-- A 64-bit field behind some bytes is read where it stands. -/
theorem getU64_append (before : Text) (value : UInt64) (after : Text) {offset : Nat}
    (h : before.length = offset) : getU64 (before ++ (putU64 value ++ after)) offset = value := by
  have htake : ((before ++ (putU64 value ++ after)).drop offset).take 8 = putU64 value := by
    rw [← h, List.drop_left, List.take_append_of_le_length (by simp), List.take_of_length_le (by simp)]
  rw [getU64, htake, putU64, LittleEndian.decode_encode (UInt64.toNat_lt value)]
  exact UInt64.ofNat_toNat

/-- The fields of a header, as `next` reads them off a buffer that starts with it. -/
theorem Frame.header_fields (f : Frame) (after : Text) :
    getU32 (f.header ++ after) 0 = kFrameMagic ∧
      getU32 (f.header ++ after) 4 = kProtocolVersion ∧
      getU32 (f.header ++ after) 8 = toUnderlying f.type ∧
      getU32 (f.header ++ after) 12 = f.flags ∧
      getU64 (f.header ++ after) 16 = UInt64.ofNat (f.payload.length + 8) := by
  simp only [header, List.append_assoc]
  refine ⟨getU32_append [] _ _ rfl, getU32_append (putU32 kFrameMagic) _ _ rfl, ?_, ?_, ?_⟩
  · rw [← List.append_assoc]
    exact getU32_append _ _ _ (by simp)
  · rw [← List.append_assoc, ← List.append_assoc]
    exact getU32_append _ _ _ (by simp)
  · rw [← List.append_assoc, ← List.append_assoc, ← List.append_assoc]
    exact getU64_append _ _ _ (by simp)

namespace FrameDecoder

/-! ### The reader of the buffer -/

/-- What `next` makes of a buffer, when no frame is current. -/
def scan (limits : Limits) (buffer : Text) : Result (Option (Frame × Text)) :=
  if buffer.length < kFrameHeaderBytes then .ok none
  else match readHeader limits buffer with
  | .error e => .error e
  | .ok (bodyLength, total) =>
    if buffer.length < total then .ok none
    else if crc64 (frameAt buffer bodyLength).payload ≠ (frameAt buffer bodyLength).crc64 then
      .error (makeError .protocolError "frame payload checksum mismatch")
    else .ok (some (frameAt buffer bodyLength, buffer.drop total))

/-- A bound that has room for a header did not wrap. -/
theorem bound_eq {limits : Limits} (h : kFrameHeaderBytes ≤ bound limits) :
    bound limits = limits.frameBytes.toNat + kFrameHeaderBytes := by
  have hsum : bound limits = (limits.frameBytes.toNat + kFrameHeaderBytes) % 2 ^ 64 := by
    rw [bound, UInt64.toNat_add]
    rfl
  have hheader : kFrameHeaderBytes = 24 := rfl
  have hlt := UInt64.toNat_lt limits.frameBytes
  omega

/-- The header of an accepted frame passes the checks of `next`. -/
theorem readHeader_header {f : Frame} {limits : Limits}
    (hfits : f.payload.length + 8 ≤ limits.frameBytes.toNat)
    (hbound : kFrameHeaderBytes ≤ bound limits) (after : Text) :
    readHeader limits (f.header ++ after) = .ok (f.payload.length + 8, f.wireSize) := by
  obtain ⟨hmagic, hversion, -, -, hlength⟩ := f.header_fields after
  have hlt := frameBytes_lt limits
  have hbody : (UInt64.ofNat (f.payload.length + 8)).toNat = f.payload.length + 8 := by
    apply UInt64.toNat_ofNat_of_lt'
    exact Nat.lt_of_le_of_lt hfits hlt
  have htotal : checkedAdd kFrameHeaderBytes (f.payload.length + 8) = some f.wireSize := by
    rw [checkedAdd_eq_some (by decide)]
    have hwide := UInt64.toNat_lt (limits.frameBytes + UInt64.ofNat kFrameHeaderBytes)
    have hsum := bound_eq hbound
    have hvalues : kU64Values = 2 ^ 64 := rfl
    rw [bound] at hsum
    exact ⟨rfl, by omega⟩
  simp only [readHeader, hmagic, hversion, hlength, hbody, htotal, failIf, ne_eq,
    not_true_eq_false, if_false, if_neg (Nat.not_lt.mpr hfits),
    if_neg (Nat.not_lt.mpr (Nat.le_add_left 8 f.payload.length))]
  rfl

/-- The frame behind a header is the frame that was sent. -/
theorem frameAt_wire (f : Frame) (rest : Text) :
    frameAt (f.wire ++ rest) (f.payload.length + 8) = f.sealed := by
  have hwire : f.wire ++ rest = f.header ++ (f.payload ++ (putU64 (crc64 f.payload) ++ rest)) := by
    simp only [Frame.wire, List.append_assoc]
  obtain ⟨-, -, htype, hflags, -⟩ :=
    f.header_fields (f.payload ++ (putU64 (crc64 f.payload) ++ rest))
  have hpayload : ((f.wire ++ rest).drop kFrameHeaderBytes).take f.payload.length = f.payload := by
    rw [hwire, ← f.length_header, List.drop_left, List.take_left]
  have hcrc : getU64 (f.wire ++ rest) (kFrameHeaderBytes + f.payload.length) = crc64 f.payload := by
    rw [hwire, ← List.append_assoc]
    exact getU64_append _ _ _ (by rw [List.length_append, f.length_header])
  rw [← hwire] at htype hflags
  simp only [frameAt, htype, hflags, Nat.add_sub_cancel, hpayload, hcrc, ofUnderlying_toUnderlying]
  rfl

/-- A frame that `encode_frame` accepts is delimited, in every buffer the decoder can have. -/
theorem delimits_wire {f : Frame} {limits : Limits}
    (hfits : f.payload.length + 8 ≤ limits.frameBytes.toNat) :
    Framing.Delimits (scan limits) (bound limits) f.wire f.sealed where
  pos := by
    rw [f.length_wire, Frame.wireSize]
    omega
  whole := by
    intro rest hcap
    have hlength : (f.wire ++ rest).length = f.wireSize + rest.length := by
      rw [List.length_append, f.length_wire]
    have hwire : f.wire ++ rest = f.header ++ (f.payload ++ putU64 (crc64 f.payload) ++ rest) := by
      simp only [Frame.wire, List.append_assoc]
    have hsize : f.wireSize = kFrameHeaderBytes + (f.payload.length + 8) := rfl
    have hread := readHeader_header hfits (by omega)
      (f.payload ++ putU64 (crc64 f.payload) ++ rest)
    rw [← hwire] at hread
    rw [scan, if_neg (by omega), hread]
    simp only [if_neg (show ¬ (f.wire ++ rest).length < f.wireSize by omega), frameAt_wire]
    rw [← f.length_wire, List.drop_left, if_neg (by simp [Frame.sealed])]
  short := by
    intro buffer hpart hshort hcap
    by_cases hheader : buffer.length < kFrameHeaderBytes
    · rw [scan, if_pos hheader]
    · -- The header is there, so the length of the frame is known.
      rw [Frame.wire] at hpart
      obtain ⟨after, rfl⟩ : f.header <+: buffer :=
        List.prefix_of_prefix_length_le (List.prefix_append _ _) hpart
          (by rw [f.length_header]; omega)
      rw [f.length_wire] at hshort
      have hread := readHeader_header hfits (by omega) after
      rw [scan, if_neg hheader, hread]
      simp only [if_pos hshort]

theorem scan_nil (limits : Limits) : scan limits [] = .ok none := by
  rw [scan, if_pos (by decide)]

/-- A frame takes its bytes off the buffer. -/
theorem scan_shrinks {limits : Limits} {buffer rest : Text} {f : Frame}
    (h : scan limits buffer = .ok (some (f, rest))) : rest.length < buffer.length := by
  unfold scan at h
  split at h
  · cases h
  · next hlong =>
      split at h
      · cases h
      · next bodyLength total hread =>
          -- The length of the frame is its header and more, by the last check of the header.
          have htotal : kFrameHeaderBytes ≤ total := by
            simp only [readHeader, seq_eq_ok] at hread
            obtain ⟨-, -, -, -, hlast⟩ := hread
            split at hlast
            · cases hlast
            · next sum hsum =>
                cases hlast
                rw [checkedAdd_eq_some (by decide)] at hsum
                omega
          split at h
          · cases h
          · next hwhole =>
              split at h
              · cases h
              · cases h
                have hheader : kFrameHeaderBytes = 24 := rfl
                rw [List.length_drop]
                omega

/-! ### The decoder as a receiver -/

/-- Between two pieces no frame is current. -/
def Idle (d : FrameDecoder) : Prop := d.haveCurrent = false

/-- The decoder after a frame was taken off its buffer. -/
def consumed (d : FrameDecoder) (rest : Text) : FrameDecoder :=
  { d with buffer := rest, cursor := 0, current := {}, framesDecoded := d.framesDecoded + 1 }

theorem next_of_scan_error {d : FrameDecoder} (hidle : Idle d) {e : Error}
    (h : scan d.limits d.buffer = .error e) :
    ∃ current, d.next = (.error e, { d with current := current }) := by
  have hidle' : d.haveCurrent = false := hidle
  unfold scan at h
  split at h
  · cases h
  · next hlong =>
      split at h
      · next e' hread =>
          cases h
          refine ⟨d.current, ?_⟩
          rw [next, if_neg (by simp [hidle']), if_neg hlong, hread]
      · next bodyLength total hread =>
          split at h
          · cases h
          · next hwhole =>
              split at h
              · next hcrc =>
                  cases h
                  refine ⟨frameAt d.buffer bodyLength, ?_⟩
                  rw [next, hidle']
                  simp only [Bool.false_eq_true, if_false, if_neg hlong, hread, if_neg hwhole,
                    if_pos hcrc]
              · cases h

theorem next_of_scan_none {d : FrameDecoder} (hidle : Idle d)
    (h : scan d.limits d.buffer = .ok none) : d.next = (.ok none, d) := by
  have hidle' : d.haveCurrent = false := hidle
  unfold scan at h
  split at h
  · next hshort =>
      rw [next, hidle']
      simp only [Bool.false_eq_true, if_false, if_pos hshort]
  · next hlong =>
      split at h
      · cases h
      · next bodyLength total hread =>
          split at h
          · next hpart =>
              rw [next, hidle']
              simp only [Bool.false_eq_true, if_false, if_neg hlong, hread, if_pos hpart]
          · split at h <;> cases h

theorem next_of_scan_some {d : FrameDecoder} (hidle : Idle d) {f : Frame} {rest : Text}
    (h : scan d.limits d.buffer = .ok (some (f, rest))) :
    ∃ d', d.next = (.ok (some f), d') ∧ d'.consume = d.consumed rest := by
  have hidle' : d.haveCurrent = false := hidle
  unfold scan at h
  split at h
  · cases h
  · next hlong =>
      split at h
      · cases h
      · next bodyLength total hread =>
          split at h
          · cases h
          · next hwhole =>
              split at h
              · cases h
              · next hcrc =>
                  cases h
                  refine ⟨{ d with
                    current := frameAt d.buffer bodyLength
                    cursor := total
                    haveCurrent := true
                    framesDecoded := d.framesDecoded + 1 }, ?_, ?_⟩
                  · rw [next, hidle']
                    simp only [Bool.false_eq_true, if_false, if_neg hlong, hread, if_neg hwhole,
                      if_neg hcrc]
                  · simp only [consume, if_true, consumed, hidle']

/-- The error of a status, if it is one. -/
def failureOf : Status → Option Error
  | .ok () => none
  | .error e => some e

/-- The loop of the decoder is the loop of the reader on its buffer. -/
theorem drainLoop_eq {d : FrameDecoder} (hidle : Idle d) (fuel : Nat) :
    ∃ status d', drainLoop fuel d
        = ((Framing.drain (scan d.limits) fuel d.buffer).1, status, d') ∧
      (Framing.drain (scan d.limits) fuel d.buffer).2 = (failureOf status, d'.buffer) ∧
      Idle d' ∧ d'.limits = d.limits := by
  induction fuel generalizing d with
  | zero => exact ⟨.ok (), d, rfl, rfl, hidle, rfl⟩
  | succ fuel ih =>
      cases hscan : scan d.limits d.buffer with
      | error e =>
          obtain ⟨current, hnext⟩ := next_of_scan_error hidle hscan
          exact ⟨.error e, { d with current := current },
            by simp only [drainLoop, hnext, Framing.drain, hscan],
            by simp only [Framing.drain, hscan, failureOf], hidle, rfl⟩
      | ok found =>
          cases found with
          | none =>
              have hnext := next_of_scan_none hidle hscan
              exact ⟨.ok (), d, by simp only [drainLoop, hnext, Framing.drain, hscan],
                by simp only [Framing.drain, hscan, failureOf], hidle, rfl⟩
          | some message =>
              obtain ⟨f, rest⟩ := message
              obtain ⟨d₁, hnext, hconsume⟩ := next_of_scan_some hidle hscan
              obtain ⟨status, d', hloop, hrest, hidle', hlimits⟩ := ih (d := d.consumed rest) hidle
              have hlimits' : (d.consumed rest).limits = d.limits := rfl
              have hbuffer : (d.consumed rest).buffer = rest := rfl
              rw [hlimits', hbuffer] at hloop hrest
              refine ⟨status, d', ?_, ?_, hidle', hlimits⟩
              · simp only [drainLoop, hnext, hconsume, hloop, Framing.drain, hscan]
              · simp only [Framing.drain, hscan, hrest]

/-- What a decoder says to a piece, in the words of the receiver. -/
def Received.abs (r : Received) : Framing.Received Error Frame :=
  { taken := (failureOf r.fed).isNone, messages := r.frames, failure := failureOf r.drained }

/-- Feeding and draining is receiving, on the buffer and with the bound of the decoder. -/
theorem receive_abs {d : FrameDecoder} (hidle : Idle d) (data : Text) :
    (d.receive data).1.abs = (Framing.receive (scan d.limits) (bound d.limits) d.buffer data).1 ∧
      (d.receive data).2.buffer
        = (Framing.receive (scan d.limits) (bound d.limits) d.buffer data).2 ∧
      Idle (d.receive data).2 ∧ (d.receive data).2.limits = d.limits := by
  have hlt : bound d.limits < kU64Values := UInt64.toNat_lt _
  by_cases hfits : d.buffer.length + data.length ≤ bound d.limits
  · have hfeed : d.feed data = (.ok (), { d with buffer := d.buffer ++ data }) := by
      have hsum : checkedAdd d.buffer.length data.length = some (d.buffer.length + data.length) := by
        rw [checkedAdd_eq_some (by omega)]
        exact ⟨rfl, by omega⟩
      simp only [feed, hsum, if_neg (Nat.not_lt.mpr hfits)]
    obtain ⟨status, d', hloop, hrest, hidle', hlimits⟩ :=
      drainLoop_eq (d := { d with buffer := d.buffer ++ data }) hidle
        ((d.buffer ++ data).length + 1)
    simp only [receive, hfeed, drain, hloop, Framing.receive, if_pos hfits, Received.abs]
    rw [List.length_append] at hrest ⊢
    simp only [hrest]
    exact ⟨rfl, trivial, hidle', hlimits⟩
  · have hrefused : ∃ e, d.feed data = (.error e, d) := by
      unfold feed
      split
      · exact ⟨_, rfl⟩
      · next sum hsum =>
          refine ⟨_, if_pos ?_⟩
          unfold checkedAdd at hsum
          split at hsum
          · cases hsum
          · cases hsum
            omega
    obtain ⟨e, hfeed⟩ := hrefused
    simp only [receive, hfeed, Framing.receive, if_neg hfits, Received.abs]
    exact ⟨rfl, trivial, hidle, trivial⟩

/-! ### Streams of frames -/

/-- A decoder in the state of a receiver. -/
structure Holds (limits : Limits) (d : FrameDecoder) (buffer : Text) : Prop where
  idle : Idle d
  limits_eq : d.limits = limits
  buffer_eq : d.buffer = buffer

/-- A run of the decoder is a run of the receiver. -/
theorem trace_receive (limits : Limits) (chunks : List Text) :
    (trace receive { limits := limits } chunks).map (fun entry => (entry.1, entry.2.abs))
        = trace (Framing.receive (scan limits) (bound limits)) [] chunks ∧
      Holds limits (run receive { limits := limits } chunks)
        (run (Framing.receive (scan limits) (bound limits)) [] chunks) := by
  apply trace_simulates (R := Holds limits)
  · rintro d buffer data ⟨hidle, rfl, rfl⟩
    obtain ⟨hreply, hbuffer, hidle', hlimits⟩ := receive_abs hidle data
    exact ⟨hreply, hidle', hlimits, hbuffer⟩
  · exact ⟨rfl, rfl, rfl⟩

/-- The frames a fresh decoder delivers from the pieces, in order. -/
def delivered (limits : Limits) (chunks : List Text) : List Frame :=
  (trace receive { limits := limits } chunks).flatMap fun entry => entry.2.frames

/-- Every piece is accepted by `feed`. -/
def Accepts (limits : Limits) (chunks : List Text) : Prop :=
  ∀ entry ∈ trace receive { limits := limits } chunks, entry.2.fed = .ok ()

instance (limits : Limits) (chunks : List Text) : Decidable (Accepts limits chunks) :=
  inferInstanceAs (Decidable (∀ entry ∈ trace receive _ chunks, _))

theorem failureOf_eq_none {status : Status} : failureOf status = none ↔ status = .ok () := by
  cases status with
  | error e => simp [failureOf]
  | ok _ => simp [failureOf]

/-- The decoder accepts what the receiver takes. -/
theorem accepts_iff {limits : Limits} {chunks : List Text} :
    Accepts limits chunks ↔
      ∀ entry ∈ trace (Framing.receive (scan limits) (bound limits)) [] chunks,
        entry.2.taken = true := by
  rw [← (trace_receive limits chunks).1, List.forall_mem_map]
  simp only [Received.abs, Option.isNone_iff_eq_none, failureOf_eq_none]
  rfl

/-- Frames that `encode_frame` accepts are a stream of delimited messages. -/
theorem inside_encodings {limits : Limits} {frames : List Frame} {encodings : List Text}
    (hencodings : List.Forall₂ (fun f bytes => encodeFrame f limits = .ok bytes) frames encodings)
    {stream : Text} (hstream : stream <+: encodings.flatten) :
    Framing.Inside (scan limits) (bound limits) encodings (frames.map Frame.sealed) [] stream := by
  have hdelimits : List.Forall₂ (Framing.Delimits (scan limits) (bound limits)) encodings
      (frames.map Frame.sealed) := by
    clear hstream
    induction hencodings with
    | nil => exact List.Forall₂.nil
    | cons hframe _ ih =>
        obtain ⟨hfits, rfl⟩ := encodeFrame_eq_ok.mp hframe
        exact List.Forall₂.cons (delimits_wire hfits) ih
  have hnone := Framing.whole_le (Framing.sizes_pos hdelimits) 0
  exact ⟨hdelimits, hstream, Nat.le_zero.mp hnone⟩

theorem sizes_encodings {limits : Limits} {frames : List Frame} {encodings : List Text}
    (hencodings : List.Forall₂ (fun f bytes => encodeFrame f limits = .ok bytes) frames encodings) :
    encodings.map List.length = frames.map Frame.wireSize := by
  induction hencodings with
  | nil => rfl
  | cons hframe _ ih =>
      obtain ⟨-, rfl⟩ := encodeFrame_eq_ok.mp hframe
      rw [List.map_cons, List.map_cons, ih, Frame.length_wire]

/-- What a decoder delivered from a part of a stream, all of it accepted: the frames that are
whole in it. -/
theorem delivered_eq {limits : Limits} {frames : List Frame} {encodings : List Text}
    (hencodings : List.Forall₂ (fun f bytes => encodeFrame f limits = .ok bytes) frames encodings)
    {chunks : List Text} (hstream : chunks.flatten <+: encodings.flatten)
    (haccepted : Accepts limits chunks) :
    (∀ entry ∈ trace receive { limits := limits } chunks, entry.2.drained = .ok ()) ∧
      delivered limits chunks = (frames.map Frame.sealed).take
        (Framing.whole (encodings.map List.length) chunks.flatten.length) ∧
      (run receive { limits := limits } chunks).buffer
        = chunks.flatten.drop
            (Framing.boundary (encodings.map List.length) chunks.flatten.length) := by
  obtain ⟨htrace, hholds⟩ := trace_receive limits chunks
  obtain ⟨hfailures, hmessages, hrun⟩ := (inside_encodings hencodings hstream).run_receive chunks
    (scan_nil limits) (accepts_iff.mp haccepted)
  rw [List.length_nil, Nat.zero_add] at hmessages hrun
  refine ⟨?_, ?_, ?_⟩
  · rw [← htrace, List.forall_mem_map] at hfailures
    intro entry hentry
    exact failureOf_eq_none.mp (hfailures entry hentry)
  · rw [← htrace, List.flatMap_map] at hmessages
    exact hmessages
  · rw [hholds.buffer_eq, hrun, List.nil_append]

/-- However a stream of frames is cut into pieces, a decoder that accepts every piece and is
drained after each delivers the frames of the stream: no `next` fails, every frame arrives once
and in order, nothing is left at the end, and after any number of pieces the frames that have
arrived are those that lie wholly in the bytes fed so far. -/
theorem frames_independent_of_chunking (limits : Limits) (frames : List Frame)
    (encodings : List Text)
    (hencodings : List.Forall₂ (fun f bytes => encodeFrame f limits = .ok bytes) frames encodings)
    (chunks : List Text) (hsplit : chunks.flatten = encodings.flatten)
    (haccepted : Accepts limits chunks) :
    (∀ entry ∈ trace receive { limits := limits } chunks, entry.2.drained = .ok ()) ∧
      delivered limits chunks = frames.map Frame.sealed ∧
      (run receive { limits := limits } chunks).buffer = [] ∧
      ∀ n, ∃ k ≤ frames.length,
        delivered limits (chunks.take n) = (frames.take k).map Frame.sealed ∧
        ∀ j ≤ frames.length,
          (encodings.take j).flatten.length ≤ (chunks.take n).flatten.length ↔ j ≤ k := by
  have hlength : encodings.length = frames.length := (List.Forall₂.length_eq hencodings).symm
  have hsum : chunks.flatten.length = (encodings.map List.length).sum := by
    rw [hsplit, List.length_flatten]
  obtain ⟨hdrained, hdelivered, hbuffer⟩ :=
    delivered_eq hencodings (hsplit ▸ List.prefix_rfl) haccepted
  refine ⟨hdrained, ?_, ?_, ?_⟩
  · rw [hdelivered, hsum, Framing.whole_sum, List.length_map, hlength]
    exact List.take_of_length_le (by rw [List.length_map])
  · rw [hbuffer, hsum, Framing.boundary_sum, ← hsum, List.drop_length]
  · -- The first pieces are a stream of their own, a part of the same frames.
    intro n
    have hpart : (chunks.take n).flatten <+: encodings.flatten := by
      rw [← hsplit]
      exact ⟨(chunks.drop n).flatten, by rw [← List.flatten_append, List.take_append_drop]⟩
    obtain ⟨-, hsome, -⟩ := delivered_eq hencodings hpart
      fun entry hentry => haccepted entry (mem_trace_of_mem_take receive hentry)
    have hle := Framing.whole_le_length (encodings.map List.length) (chunks.take n).flatten.length
    rw [List.length_map, hlength] at hle
    refine ⟨_, hle, ?_, ?_⟩
    · rw [hsome, List.map_take]
    · intro j hj
      rw [List.length_flatten, List.map_take]
      exact Framing.sum_take_le_iff _ (by rw [List.length_map, hlength]; exact hj)

/-- The encodings of frames that are within the bound. -/
theorem encodings_wire {limits : Limits} {frames : List Frame}
    (h : ∀ f ∈ frames, f.payload.length + 8 ≤ limits.frameBytes.toNat) :
    List.Forall₂ (fun f bytes => encodeFrame f limits = .ok bytes) frames
      (frames.map Frame.wire) := by
  rw [List.forall₂_map_right_iff, List.forall₂_same]
  intro f hf
  exact encodeFrame_eq_ok.mpr ⟨h f hf, rfl⟩

/-- Limits with frames of at most 256 bytes. -/
def smallFrames : Limits := { maxFrameBytes := 256 }

/-- A ping and a hello. -/
def pingHello : List Frame := [{ type := .ping }, { type := .hello, payload := ascii "hi" }]

/-- Their bytes, cut inside the first header and inside the second payload. -/
def pingHelloPieces : List Text :=
  let stream := (pingHello.map Frame.wire).flatten
  [stream.take 20, (stream.drop 20).take 37, stream.drop 57]

/-- A ping and a hello arrive, in order, from three pieces. -/
theorem pingHello_delivered :
    Accepts smallFrames pingHelloPieces ∧
      delivered smallFrames pingHelloPieces = pingHello.map Frame.sealed :=
  ⟨by decide +kernel,
    (frames_independent_of_chunking smallFrames pingHello (pingHello.map Frame.wire)
      (encodings_wire (by decide +kernel)) pingHelloPieces (by decide +kernel)
      (by decide +kernel)).2.1⟩

/-- A stream of frames is accepted piece by piece exactly when every piece ends at most the bound
of the buffer behind the start of the first frame that was not whole before it. -/
theorem accepts_iff_pieces_fit (limits : Limits) (frames : List Frame) (encodings : List Text)
    (hencodings : List.Forall₂ (fun f bytes => encodeFrame f limits = .ok bytes) frames encodings)
    (chunks : List Text) (hsplit : chunks.flatten = encodings.flatten) :
    Accepts limits chunks ↔ ∀ n < chunks.length,
      (chunks.take (n + 1)).flatten.length
        ≤ Framing.boundary (frames.map Frame.wireSize) (chunks.take n).flatten.length
          + bound limits := by
  have hstream : chunks.flatten <+: encodings.flatten := hsplit ▸ List.prefix_rfl
  have hiff := (inside_encodings hencodings hstream).taken_iff chunks (scan_nil limits)
  rw [accepts_iff, hiff, sizes_encodings hencodings]
  simp only [List.length_nil, Nat.zero_add, Framing.fed]

/-- The ping and the hello of above fit, piece by piece. -/
theorem pingHello_fits :
    Accepts smallFrames pingHelloPieces ∧ ∀ n < pingHelloPieces.length,
      (pingHelloPieces.take (n + 1)).flatten.length
        ≤ Framing.boundary (pingHello.map Frame.wireSize) (pingHelloPieces.take n).flatten.length
          + bound smallFrames :=
  ⟨by decide +kernel,
    (accepts_iff_pieces_fit smallFrames pingHello (pingHello.map Frame.wire)
      (encodings_wire (by decide +kernel)) pingHelloPieces (by decide +kernel)).mp
      (by decide +kernel)⟩

/-- Nine pings of 32 bytes each, in one piece of 288 bytes. -/
def ninePings : List Frame := List.replicate 9 { type := .ping }

/-- Nine good frames that arrive in one piece are refused, although every one of them is far below
the bound: the piece as a whole is above it. -/
theorem ninePings_refused :
    smallFrames.validate = .ok () ∧
      List.Forall₂ (fun f bytes => encodeFrame f smallFrames = .ok bytes) ninePings
        (ninePings.map Frame.wire) ∧
      (∀ chunk ∈ [(ninePings.map Frame.wire).flatten], chunk ≠ [] ∧ chunk.length ≤ 16384) ∧
      ¬ Accepts smallFrames [(ninePings.map Frame.wire).flatten] :=
  ⟨by decide +kernel, encodings_wire (by decide +kernel), by decide +kernel, by decide +kernel⟩

end FrameDecoder

end CongestionObservatory
