import CongestionObservatory.Proofs.Transport.Frame

/-!
# `CongestionObservatory.Proofs.Transport.Stream`: parts of a stream of frames

A stream may end anywhere, so a decoder may hold any part of a frame. `Begins f tail` are the
buffers that hold a part of what begins with the frame `f`. A decoder finds no other frame than `f`
in them, and only when all of its bytes are there (`Begins.scan`).

A stream may also start anywhere: a decoder that is behind a dropped part of a frame sees the rest.
A goodbye is as short as a frame can be, so a part of one is never mistaken for a frame
(`scan_bye`).
-/

set_option autoImplicit false

namespace CongestionObservatory

open Lib

namespace FrameDecoder

/-- A header that passes the checks declares a frame of at least 32 bytes. -/
theorem readHeader_ok {limits : Limits} {header : Text} {bodyLength total : Nat}
    (h : readHeader limits header = .ok (bodyLength, total)) :
    bodyLength = (getU64 header 16).toNat ∧ 8 ≤ bodyLength ∧
      total = kFrameHeaderBytes + bodyLength := by
  simp only [readHeader, seq_eq_ok, failIf_eq_ok] at h
  obtain ⟨-, -, hlength, -, hlast⟩ := h
  split at hlast
  · cases hlast
  · next sum hsum =>
      cases hlast
      rw [checkedAdd_eq_some (by decide)] at hsum
      exact ⟨rfl, by omega, hsum.1⟩

/-- What a buffer with a frame looks like. -/
theorem scan_ok {limits : Limits} {buffer rest : Text} {f : Frame}
    (h : scan limits buffer = .ok (some (f, rest))) :
    kFrameHeaderBytes + (getU64 buffer 16).toNat ≤ buffer.length ∧ 8 ≤ (getU64 buffer 16).toNat ∧
      f = frameAt buffer (getU64 buffer 16).toNat ∧
      rest = buffer.drop (kFrameHeaderBytes + (getU64 buffer 16).toNat) := by
  unfold scan at h
  split at h
  · cases h
  · split at h
    · cases h
    · next bodyLength total hread =>
        obtain ⟨rfl, hlength, rfl⟩ := readHeader_ok hread
        split at h
        · cases h
        · next hwhole =>
            split at h
            · cases h
            · cases h
              exact ⟨Nat.not_lt.mp hwhole, hlength, rfl, rfl⟩

/-- A part of a stream that begins with the frame. -/
def Begins (f : Frame) (tail buffer : Text) : Prop :=
  buffer = [] ∨ f.payload.length + 8 < kU64Values ∧ buffer <+: f.wire ++ tail

theorem Begins.nil (f : Frame) (tail : Text) : Begins f tail [] := Or.inl rfl

/-- More may follow. -/
theorem Begins.append {f : Frame} {buffer : Text} (h : Begins f [] buffer) (tail : Text) :
    Begins f tail buffer := by
  rcases h with rfl | ⟨hsize, hprefix⟩
  · exact .nil f tail
  · rw [List.append_nil] at hprefix
    exact Or.inr ⟨hsize, hprefix.trans (List.prefix_append _ _)⟩

theorem Begins.prefix_wire {f : Frame} {buffer : Text} (h : Begins f [] buffer) :
    buffer <+: f.wire := by
  rcases h with rfl | ⟨-, hprefix⟩
  · exact List.nil_prefix
  · rwa [List.append_nil] at hprefix

/-- A frame that is there as a whole is not in such a buffer unless it is small enough. -/
theorem Begins.size_of_wire {f : Frame} {tail : Text} (h : Begins f tail f.wire) :
    f.payload.length + 8 < kU64Values := by
  rcases h with hnil | ⟨hsize, -⟩
  · have hlength := f.length_wire
    rw [hnil, List.length_nil, Frame.wireSize] at hlength
    omega
  · exact hsize

theorem Begins.of_prefix {f : Frame} {tail buffer part : Text} (h : Begins f tail buffer)
    (hpart : part <+: buffer) : Begins f tail part := by
  rcases h with rfl | ⟨hsize, hprefix⟩
  · exact Or.inl (List.prefix_nil.mp hpart)
  · exact Or.inr ⟨hsize, hpart.trans hprefix⟩

/-- A reader of such a buffer finds the frame that begins it, and leaves a part of the rest. -/
theorem Begins.scan {f g : Frame} {tail buffer rest : Text} (h : Begins f tail buffer)
    {limits : Limits} (hscan : scan limits buffer = .ok (some (g, rest))) :
    g = f.sealed ∧ buffer = f.wire ++ rest ∧ rest <+: tail := by
  obtain ⟨hwhole, hlength, hframe, hrest⟩ := scan_ok hscan
  rcases h with rfl | ⟨hsize, hprefix⟩
  · rw [List.length_nil] at hwhole
    omega
  · -- The whole header is there, so it declares the length of the frame.
    have hheader : f.header <+: buffer := by
      refine List.prefix_of_prefix_length_le (List.prefix_append f.header _)
        (by rw [Frame.wire, List.append_assoc] at hprefix; exact hprefix) ?_
      rw [f.length_header]
      omega
    obtain ⟨after, rfl⟩ := hheader
    have hdeclared : (getU64 (f.header ++ after) 16).toNat = f.payload.length + 8 := by
      rw [(f.header_fields after).2.2.2.2]
      exact UInt64.toNat_ofNat_of_lt' hsize
    rw [hdeclared] at hwhole hframe hrest
    rcases Framing.prefix_append_cases hprefix with ⟨-, hshort⟩ | ⟨rest', hsplit, hrest'⟩
    · rw [f.length_wire, Frame.wireSize] at hshort
      omega
    · rw [hsplit] at hframe hrest ⊢
      have hdrop : rest = rest' := by
        rw [hrest]
        show (f.wire ++ rest').drop f.wireSize = _
        rw [← f.length_wire, List.drop_left]
      rw [hdrop]
      exact ⟨hframe.trans (frameAt_wire f rest'), rfl, hrest'⟩

/-- The bytes of a frame are enough for a reader. -/
theorem scan_wire_ne_none (limits : Limits) {f : Frame} (hsize : f.payload.length + 8 < kU64Values) :
    scan limits f.wire ≠ .ok none := by
  intro hscan
  have hdeclared : (getU64 f.wire 16).toNat = f.payload.length + 8 := by
    rw [Frame.wire, (f.header_fields _).2.2.2.2]
    exact UInt64.toNat_ofNat_of_lt' hsize
  have hlength := f.length_wire
  rw [Frame.wireSize] at hlength
  unfold scan at hscan
  split at hscan
  · omega
  · split at hscan
    · cases hscan
    · next bodyLength total hread =>
        obtain ⟨hbody, -, htotal⟩ := readHeader_ok hread
        split at hscan
        · next hshort =>
            rw [htotal, hbody, hdeclared] at hshort
            omega
        · split at hscan <;> cases hscan

/-! ### A goodbye -/

/-- The frame of a goodbye. -/
def byeFrame : Frame := { type := .bye }

/-- A reader of a part of a goodbye finds no other frame. -/
theorem scan_bye {limits : Limits} {buffer rest : Text} {f : Frame} (h : buffer <:+: byeFrame.wire)
    (hscan : scan limits buffer = .ok (some (f, rest))) : f = byeFrame.sealed := by
  have hsize : byeFrame.wire.length = 32 := byeFrame.length_wire
  obtain ⟨hlong, hbody, -⟩ := scan_ok hscan
  have hheader : kFrameHeaderBytes = 24 := rfl
  -- A proper part has fewer bytes than any frame.
  have hwhole : buffer = byeFrame.wire := h.eq_of_length (Nat.le_antisymm h.length_le (by omega))
  have hbegins : Begins byeFrame [] buffer := by
    rw [hwhole]
    exact Or.inr ⟨by decide, List.prefix_append _ _⟩
  exact (hbegins.scan hscan).1

end FrameDecoder

end CongestionObservatory
