import CongestionObservatory.Persistence.InPlace
import CongestionObservatory.Proofs.Persistence.Accepted
import Mathlib.Data.List.GetD

/-!
# `CongestionObservatory.Proofs.Persistence.InPlace`: the two readers agree

The reader by index (`Persistence.InPlace`) simulates the reader of the list
(`Persistence.Snapshot`), field by field: one `Simulates` lemma for each field and each record, and
one `Returns` lemma for each section. The places where an index could leave its memory are few.
`u8` and `extent` compare a sum with the size, `remaining` subtracts, `collectSection` takes a
slice of the payload, and `decodePayload` takes the payload.

`decodeSnapshot_result` is the refinement of the whole function. It needs no bound on the payload
size: a sum that wraps is not the size either (`payloadEnd_eq_size_iff`). What the wrap costs is
said by `safe_decodeSnapshot_iff`.
-/

set_option autoImplicit false

namespace CongestionObservatory.InPlace

open Lib MemoryReader

/-! ### The byte reader -/

section

variable {m : Memory} {p : Standing Text}

theorem simulates_fail (what : String) : Simulates (fail what) (ByteReader.fail what) :=
  Simulates.note (ascii what)

/-- The sum of the position and a length that fits 63 bits does not wrap. -/
theorem safe_sum_index (hp : p.Within m) {length : UInt64} (h : length.toNat ≤ 2 ^ 63) :
    (Access.sum p.index length).Safe := by
  have hlength := m.length_lt
  have hindex : p.index.toNat ≤ m.bytes.length := hp
  show p.index.toNat + length.toNat < 2 ^ 64
  omega

/-- The comparison with the size, for a sum that does not wrap. -/
theorem sum_gt_size_iff {length : UInt64} (h : (Access.sum p.index length).Safe) :
    p.index + length > m.size ↔ m.bytes.length < p.index.toNat + length.toNat := by
  rw [gt_iff_lt, UInt64.lt_iff_toNat_lt, Memory.toNat_size, Access.toNat_sum h]

/-- `u8` with the position and the size it looks at. -/
theorem u8_eq : u8 m p = (sum p.index 1 >>= fun next =>
    if next > m.size then (do fail "truncated snapshot: byte"; pure 0)
    else (do let byte ← byteAt (← position); advance 1; pure byte) : Reader UInt8) m p := rfl

theorem simulates_u8 : Simulates u8 ByteReader.u8 := by
  intro m p hp
  have hsum : (Access.sum p.index 1).Safe := safe_sum_index hp (by decide)
  rw [u8_eq]
  refine Tracks.step rfl hsum (by simp) rfl ?_
  by_cases h : m.bytes.length < p.index.toNat + 1
  · -- At the end of the memory there is nothing left of the list either.
    rw [if_pos ((sum_gt_size_iff hsum).mpr h)]
    have hrest : (p.cursor m).rest = [] := List.drop_eq_nil_of_le (by omega)
    have hrun : ByteReader.u8 (p.cursor m)
        = (do ByteReader.fail "truncated snapshot: byte"; pure 0 : ByteReader UInt8)
          (p.cursor m) := by
      unfold ByteReader.u8
      rw [hrest]
    rw [hrun]
    exact ((simulates_fail _).bind fun _ => Simulates.pure 0) m p hp
  · rw [if_neg fun hgt => h ((sum_gt_size_iff hsum).mp hgt)]
    have hindex : p.index.toNat < m.bytes.length := by omega
    have hrest : (p.cursor m).rest
        = m.bytes.getD p.index.toNat 0 :: m.bytes.drop (p.index + 1).toNat := by
      rw [Access.toNat_sum hsum, List.getD_eq_getElem _ _ hindex]
      exact List.drop_eq_getElem_cons hindex
    have hrun : ByteReader.u8 (p.cursor m)
        = .ok (m.bytes.getD p.index.toNat 0, (⟨p.index + 1, p.failure⟩ : Standing Text).cursor m) := by
      unfold ByteReader.u8
      rw [hrest]
      rfl
    rw [hrun]
    show Tracks m p ((do let byte ← byteAt p.index; advance 1; pure byte : Reader UInt8) m p) _
    refine Tracks.step rfl ?_ (by simp) rfl ?_
    · show p.index.toNat < m.size.toNat
      rw [Memory.toNat_size]
      exact hindex
    · refine Tracks.step rfl hsum (by simp) rfl ?_
      refine Simulates.pure _ m ⟨p.index + 1, p.failure⟩ ?_
      show (p.index + 1).toNat ≤ m.bytes.length
      rw [Access.toNat_sum hsum]
      exact hindex

theorem simulates_unsigned (width : Nat) : Simulates (unsigned width) (ByteReader.unsigned width) := by
  induction width with
  | zero => exact Simulates.pure 0
  | succ width ih => exact simulates_u8.bind fun byte => ih.bind fun high => Simulates.pure _

theorem simulates_u16 : Simulates u16 ByteReader.u16 := (simulates_unsigned 2).map _

theorem simulates_u32 : Simulates u32 ByteReader.u32 := (simulates_unsigned 4).map _

theorem simulates_u64 : Simulates u64 ByteReader.u64 := (simulates_unsigned 8).map _

theorem simulates_i64 : Simulates i64 ByteReader.i64 := simulates_u64.map _

theorem simulates_boolean : Simulates boolean ByteReader.boolean := simulates_u8.map _

theorem simulates_enum8 {E : Type} [ScopedEnum E UInt8] :
    Simulates (enum8 : Reader E) ByteReader.enum8 := simulates_u8.map _

theorem simulates_digestId {Tag : Type} :
    Simulates (digestId : Reader (DigestId Tag)) ByteReader.digestId :=
  (simulates_u64.map _).seq simulates_u64

/-- The number of the bytes that are left does not wrap below zero. -/
theorem simulates_remaining {α : Type} {k : UInt64 → Reader α} {k' : Nat → ByteReader α}
    (hk : ∀ left : UInt64, Simulates (k left) (k' left.toNat)) :
    Simulates (remaining >>= k) (ByteReader.remaining >>= k') := by
  intro m p hp
  have hdifference : (Access.difference m.size p.index).Safe := by
    show p.index.toNat ≤ m.size.toNat
    rw [Memory.toNat_size]
    exact hp
  show Tracks m p ((difference m.size p.index >>= k) m p) (k' (p.cursor m).rest.length (p.cursor m))
  refine Tracks.step rfl hdifference (by simp) rfl ?_
  rw [p.length_cursor m, ← Memory.toNat_size, ← Access.toNat_difference hdifference]
  exact hk _ m p hp

/-- What `extent` reads. -/
def takeChecked (bound : Nat) (what : String) (length : Nat) : ByteReader Text := do
  if length > bound ∨ length > (← ByteReader.remaining) then
    ByteReader.fail what
    pure []
  else ByteReader.take length

variable {bound : Nat} {what : String} {length : UInt64}

theorem extent_of_le (h : length.toNat ≤ bound) : extent bound what length m p
    = (sum p.index length >>= fun finish =>
      if finish > m.size then (do fail what; pure [])
      else (do let bytes ← bytesAt (← position) length; advance length; pure bytes) : Reader Text)
      m p := by
  unfold extent
  rw [if_neg (Nat.not_lt.mpr h)]
  rfl

/-- The bytes are read safely when the end of the extent is a number of 64 bits. A length above
its bound is not added to anything. -/
theorem tracks_extent (hp : p.Within m)
    (hsum : length.toNat ≤ bound → (Access.sum p.index length).Safe) :
    Tracks m p (extent bound what length m p)
      (takeChecked bound what length.toNat (p.cursor m)) := by
  have hrefused : Simulates (do fail what; pure [] : Reader Text) (do ByteReader.fail what; pure []) :=
    (simulates_fail what).bind fun _ => Simulates.pure []
  have hleft := p.length_cursor m
  have hindex : p.index.toNat ≤ m.bytes.length := hp
  show Tracks m p _ ((if length.toNat > bound ∨ length.toNat > (p.cursor m).rest.length then _
    else _ : ByteReader Text) (p.cursor m))
  by_cases hbound : length.toNat ≤ bound
  · -- The sum is exact, so the comparison with the size is the one with what is left.
    have hsafe := hsum hbound
    rw [extent_of_le hbound]
    refine Tracks.step rfl hsafe (by simp) rfl ?_
    by_cases h : m.bytes.length < p.index.toNat + length.toNat
    · rw [if_pos ((sum_gt_size_iff hsafe).mpr h), if_pos (Or.inr (by omega))]
      exact hrefused m p hp
    · rw [if_neg fun hgt => h ((sum_gt_size_iff hsafe).mp hgt), if_neg (by omega)]
      show Tracks m p ((do let bytes ← bytesAt p.index length; advance length; pure bytes
        : Reader Text) m p) _
      refine Tracks.step rfl ?_ (by simp) rfl (Tracks.step rfl hsafe (by simp) rfl ?_)
      · show p.index.toNat + length.toNat ≤ m.size.toNat
        rw [Memory.toNat_size]
        omega
      · have hwithin : (⟨p.index + length, p.failure⟩ : Standing Text).Within m := by
          show (p.index + length).toNat ≤ m.bytes.length
          rw [Access.toNat_sum hsafe]
          omega
        have hrun : ByteReader.take length.toNat (p.cursor m) = .ok ((m.slice p.index length).bytes,
            (⟨p.index + length, p.failure⟩ : Standing Text).cursor m) := by
          unfold ByteReader.take Standing.cursor
          rw [Access.toNat_sum hsafe, ← List.drop_drop]
          rfl
        rw [hrun]
        exact Simulates.pure _ m _ hwithin
  · rw [if_pos (Or.inl (by omega)), extent, if_pos (by omega)]
    exact hrefused m p hp

theorem simulates_text (limits : Limits) : Simulates (text limits) (ByteReader.text limits) := by
  refine simulates_u32.bind fun length => Simulates.ok.bind fun running => ?_
  cases running with
  | true =>
      intro m p hp
      refine tracks_extent hp fun _ => safe_sum_index hp ?_
      have hlength := length.toNat_lt
      rw [UInt32.toNat_toUInt64]
      omega
  | false => exact Simulates.pure []

end

section

variable (bound : Nat) (what : String) (limits : Limits)

theorem simulates_count : Simulates (count bound what) (ByteReader.count bound what) := by
  refine simulates_u32.bind fun value => Simulates.ok.bind fun running => ?_
  cases running with
  | true =>
      show Simulates (if value.toNat > bound then _ else _) (if value.toNat > bound then _ else _)
      split
      · exact (simulates_fail what).bind fun _ => Simulates.pure 0
      · exact Simulates.pure value.toNat
  | false => exact Simulates.pure 0

/-- A count is within the bound it was checked against. After a failure it is zero. -/
theorem yields_count_le : Yields (ByteReader.count bound what) (· ≤ bound) := by
  refine Yields.bind (Yields.any _) fun value _ => Yields.bind (Yields.any _) fun running _ => ?_
  split
  · split
    · exact Yields.bind (Yields.any _) fun _ _ => Yields.pure (Nat.zero_le bound)
    · exact Yields.pure (by omega)
  · exact Yields.pure (Nat.zero_le bound)

theorem simulates_times {α : Type} {n : Nat} {read : Reader α} {read' : ByteReader α}
    (h : Simulates read read') (hn : n ≤ bound) :
    Simulates (times bound n read) (ByteReader.times n read') :=
  Simulates.loop (fun _ => h.bind fun _ => Simulates.pure _) hn []

theorem simulates_list {α : Type} {read : Reader α} {read' : ByteReader α}
    (h : Simulates read read') :
    Simulates (list bound what read) (ByteReader.list bound what read') :=
  (simulates_count bound what).bindOf (yields_count_le bound what) fun _ hn =>
    simulates_times bound h hn

theorem simulates_parsed {α : Type} (parse : Text → Result α) :
    Simulates (parsed limits parse) (ByteReader.parsed limits parse) := by
  refine (simulates_text limits).bind fun value => ?_
  cases parse value with
  | error e => exact Simulates.lift_error e
  | ok a => exact Simulates.pure a

theorem simulates_readGeneration :
    Simulates readGeneration CongestionObservatory.readGeneration :=
  ((simulates_u64.map _).seq simulates_u64).seq simulates_u64

theorem simulates_readSubject :
    Simulates (readSubject limits) (CongestionObservatory.readSubject limits) := by
  refine simulates_u8.bind fun kind => (simulates_text limits).bind fun text =>
    Simulates.ok.bind fun running => ?_
  cases running with
  | true =>
      show Simulates (if kind = _ then _ else _) (if kind = _ then _ else _)
      split
      · exact Simulates.pure _
      · cases parseSubject text with
        | error e => exact (simulates_fail _).bind fun _ => Simulates.pure _
        | ok subject => exact Simulates.pure subject
  | false => exact Simulates.pure _

end

/-! ### Records -/

section

variable (limits : Limits)

theorem simulates_readMetadataEntry :
    Simulates (readMetadataEntry limits) (CongestionObservatory.readMetadataEntry limits) := by
  refine (simulates_text limits).bind fun key => (simulates_text limits).bind fun value => ?_
  split
  · exact Simulates.lift_error _
  · exact Simulates.pure (key, value)

theorem simulates_readProvenance :
    Simulates (readProvenance limits) (CongestionObservatory.readProvenance limits) :=
  ((((simulates_parsed limits _).map _).seq simulates_enum8).seq (simulates_text limits)).seq
    (simulates_text limits)

theorem simulates_readFence :
    Simulates (readFence limits) (CongestionObservatory.readFence limits) :=
  (((((simulates_parsed limits _).map _).seq simulates_u64).seq simulates_u64).seq
    simulates_readGeneration).seq simulates_u64

theorem simulates_readValue : Simulates readValue CongestionObservatory.readValue :=
  (((simulates_u64.map _).map _).seq simulates_enum8).seq simulates_enum8

theorem simulates_readEvidenceFields :
    Simulates (readEvidenceFields limits) (CongestionObservatory.readEvidenceFields limits) :=
  ((((((((((((((((simulates_digestId.map _).seq simulates_u16).seq (simulates_readSubject limits)).seq
    (simulates_readProvenance limits)).seq (simulates_readFence limits)).seq simulates_i64).seq
    simulates_i64).seq simulates_enum8).seq simulates_readValue).seq simulates_i64).seq
    simulates_enum8).seq simulates_enum8).seq simulates_boolean).seq simulates_boolean).seq
    (simulates_text limits)).seq (simulates_list _ _ (simulates_parsed limits _))).seq
    (simulates_list _ _ (simulates_readMetadataEntry limits))

theorem simulates_checkOk (message : String) :
    Simulates (checkOk message) (CongestionObservatory.checkOk message) := by
  intro m p hp
  have hfailure : (p.cursor m).failure = p.failure := rfl
  unfold checkOk CongestionObservatory.checkOk
  rw [hfailure]
  cases hcase : p.failure with
  | some what => exact .error (by simp)
  | none => exact .ok (by simp) hp fun _ => ⟨hcase, by simp⟩

/-- A record that is checked against its identity. -/
theorem simulates_readEvidence :
    Simulates (readEvidence limits) (CongestionObservatory.readEvidence limits) := by
  refine (simulates_readEvidenceFields limits).bind fun record =>
    (simulates_checkOk _).bind fun _ => ?_
  split
  · exact Simulates.lift_error _
  · exact Simulates.pure record

theorem simulates_readEpisodeKey :
    Simulates (readEpisodeKey limits) (CongestionObservatory.readEpisodeKey limits) :=
  (((((simulates_readSubject limits).map _).seq (simulates_parsed limits _)).seq
    simulates_enum8).seq simulates_readGeneration).seq (simulates_text limits)

theorem simulates_readTransition :
    Simulates (readTransition limits) (CongestionObservatory.readTransition limits) :=
  (((((((((simulates_u64.map _).seq simulates_enum8).seq simulates_i64).seq simulates_enum8).seq
    simulates_enum8).seq simulates_enum8).seq simulates_enum8).seq simulates_u32).seq
    (simulates_text limits)).seq (simulates_list _ _ simulates_digestId)

theorem simulates_readAssessmentDigest :
    Simulates readAssessmentDigest CongestionObservatory.readAssessmentDigest :=
  (((((((simulates_i64.map _).seq simulates_enum8).seq simulates_u32).seq simulates_enum8).seq
    simulates_u32).seq simulates_u32).seq simulates_boolean).seq simulates_digestId

theorem simulates_readEpisodeFields :
    Simulates (readEpisodeFields limits) (CongestionObservatory.readEpisodeFields limits) :=
  ((((((((((((((((((simulates_digestId.map _).seq (simulates_readEpisodeKey limits)).seq
    simulates_enum8).seq simulates_u64).seq simulates_enum8).seq simulates_enum8).seq
    simulates_u32).seq simulates_i64).seq simulates_i64).seq simulates_i64).seq simulates_i64).seq
    simulates_u64).seq (simulates_list _ _ simulates_digestId)).seq
    (simulates_list _ _ (simulates_parsed limits _))).seq
    (simulates_list _ _ (simulates_readTransition limits))).seq
    (simulates_list _ _ simulates_readAssessmentDigest)).seq simulates_u64).seq
    simulates_u64).seq simulates_boolean

theorem simulates_readEpisode :
    Simulates (readEpisode limits) (CongestionObservatory.readEpisode limits) := by
  refine (simulates_readEpisodeFields limits).bind fun episode =>
    (simulates_checkOk _).bind fun _ => ?_
  split
  · exact Simulates.lift_error _
  · exact Simulates.pure episode

theorem simulates_readNode : Simulates (readNode limits) (CongestionObservatory.readNode limits) :=
  (((simulates_parsed limits _).map _).seq simulates_enum8).seq
    (simulates_list _ _ (simulates_parsed limits _))

theorem simulates_readPort : Simulates (readPort limits) (CongestionObservatory.readPort limits) :=
  (((simulates_parsed limits _).map _).seq (simulates_parsed limits _)).seq simulates_u64

theorem simulates_readLink : Simulates (readLink limits) (CongestionObservatory.readLink limits) :=
  ((((simulates_parsed limits _).map _).seq (simulates_parsed limits _)).seq
    (simulates_parsed limits _)).seq simulates_u64

theorem simulates_readQueue :
    Simulates (readQueue limits) (CongestionObservatory.readQueue limits) :=
  (((((simulates_parsed limits _).map _).seq (simulates_parsed limits _)).seq simulates_u32).seq
    simulates_u32).seq simulates_u32

theorem simulates_readBuffer :
    Simulates (readBuffer limits) (CongestionObservatory.readBuffer limits) :=
  ((((simulates_parsed limits _).map _).seq (simulates_parsed limits _)).seq simulates_u32).seq
    simulates_u64

theorem simulates_readPath : Simulates (readPath limits) (CongestionObservatory.readPath limits) :=
  ((simulates_parsed limits _).map _).seq (simulates_list _ _ (simulates_parsed limits _))

theorem simulates_readFlow : Simulates (readFlow limits) (CongestionObservatory.readFlow limits) :=
  ((((simulates_parsed limits _).map _).seq (simulates_parsed limits _)).seq
    (simulates_parsed limits _)).seq (simulates_parsed limits _)

theorem simulates_addEach {α : Type} {read : Reader α} {read' : ByteReader α}
    (h : Simulates read read') (bound : Nat) (what : String)
    (add : TopologyBuilder → α → Result TopologyBuilder) (b : TopologyBuilder) :
    Simulates (addEach bound what read add b)
      (CongestionObservatory.addEach bound what read' add b) := by
  refine (simulates_count bound what).bindOf (yields_count_le bound what) fun n hn => ?_
  refine Simulates.loop (fun builder => h.bind fun object => ?_) hn b
  cases add builder object with
  | error e => exact Simulates.lift_error e
  | ok builder => exact Simulates.pure builder

theorem simulates_readTopology :
    Simulates (readTopology limits) (CongestionObservatory.readTopology limits) := by
  refine simulates_readGeneration.bind fun generation =>
    (simulates_parsed limits _).bind fun label => ?_
  refine (simulates_addEach (simulates_readNode limits) _ _ _ _).bind fun b => ?_
  refine (simulates_addEach (simulates_readPort limits) _ _ _ b).bind fun b => ?_
  refine (simulates_addEach (simulates_readLink limits) _ _ _ b).bind fun b => ?_
  refine (simulates_addEach (simulates_readQueue limits) _ _ _ b).bind fun b => ?_
  refine (simulates_addEach (simulates_readBuffer limits) _ _ _ b).bind fun b => ?_
  refine (simulates_addEach (simulates_readPath limits) _ _ _ b).bind fun b => ?_
  exact simulates_addEach (simulates_readFlow limits) _ _ _ b

theorem simulates_readSnapshotMetadata :
    Simulates (readSnapshotMetadata limits) (CongestionObservatory.readSnapshotMetadata limits) :=
  (((((((((simulates_text limits).map _).seq simulates_u64).seq simulates_u64).seq
    simulates_u64).seq simulates_i64).seq simulates_u64).seq simulates_u64).seq
    simulates_u64).seq simulates_readGeneration |>.seq (simulates_text limits)

end

/-! ### Sections -/

/-- Behind the check of `ok` no failure is noted, if the rest notes none. -/
theorem checked_checkOk {α : Type} {message : String} {d : ByteReader α}
    (h : ∀ c a c', d c = .ok (a, c') → c'.failure = c.failure) :
    Checked (do CongestionObservatory.checkOk message; d) := by
  intro c a c' hrun
  obtain ⟨u, c₁, hcheck, hrest⟩ := Decoder.bind_eq_ok.mp hrun
  obtain ⟨rfl, hnone⟩ := checkOk_eq_ok hcheck
  rw [h c₁ a c' hrest, hnone]

/-- `readWhole` as one decoder. -/
def readToEnd {α : Type} (name : String) (read : ByteReader α) : ByteReader α := do
  let a ← read
  CongestionObservatory.checkOk (name ++ " section is malformed")
  if (← ByteReader.remaining) ≠ 0 then
    throw (makeError .integrityFailure (name ++ " section has trailing bytes"))
  else pure a

theorem readWhole_eq {α : Type} (name : String) (read : ByteReader α) (bytes : Text) :
    CongestionObservatory.readWhole name read bytes
      = readToEnd name read ⟨bytes, none⟩ >>= fun r => pure r.1 := by
  let malformed := name ++ " section is malformed"
  let trailing := makeError .integrityFailure (name ++ " section has trailing bytes")
  show ((read ⟨bytes, none⟩ >>= fun r => CongestionObservatory.checkOk malformed r.2 >>= fun r' =>
      Except.ok (r.1, r'.2)) >>= fun r => failIf (r.2.rest ≠ []) trailing >>= fun _ => pure r.1)
    = (read ⟨bytes, none⟩ >>= fun r => CongestionObservatory.checkOk malformed r.2 >>= fun r' =>
      (if r'.2.rest.length ≠ 0 then throw trailing else pure r.1 : ByteReader α) r'.2)
      >>= fun r => pure r.1
  cases read ⟨bytes, none⟩ with
  | error e => rfl
  | ok r =>
      obtain ⟨a, rest, failure⟩ := r
      cases failure with
      | some what => rfl
      | none =>
          cases rest with
          | nil => rfl
          | cons byte rest => rfl

theorem checked_readToEnd {α : Type} (name : String) (read : ByteReader α) :
    Checked (readToEnd name read) := by
  refine Checked.bind fun a => checked_checkOk fun c b c' hrun => ?_
  have hlast : (if c.rest.length ≠ 0 then throw _ else pure a : ByteReader α) c = .ok (b, c') := hrun
  split at hlast
  · cases hlast
  · cases hlast
    rfl

theorem simulates_readToEnd {α : Type} {read : Reader α} {read' : ByteReader α}
    (h : Simulates read read') (name : String) : Simulates (do
      let a ← read
      checkOk (name ++ " section is malformed")
      if (← remaining) ≠ 0 then
        lift (.error (makeError .integrityFailure (name ++ " section has trailing bytes")))
      else pure a : Reader α) (readToEnd name read') := by
  refine h.bind fun a => (simulates_checkOk _).bind fun _ => simulates_remaining fun left => ?_
  by_cases hleft : left = 0
  · rw [if_neg (not_not.mpr hleft), if_neg (by simp [hleft])]
    exact Simulates.pure a
  · have hne : left.toNat ≠ 0 := fun hzero => hleft (UInt64.toNat_inj.mp hzero)
    rw [if_pos hleft, if_pos hne]
    exact Simulates.lift_error _

theorem returns_readWhole {α : Type} {read : Reader α} {read' : ByteReader α}
    (h : Simulates read read') (name : String) (bytes : Memory) :
    (readWhole name read bytes).Returns id
      (CongestionObservatory.readWhole name read' bytes.bytes) := by
  rw [readWhole_eq]
  exact ((simulates_readToEnd h name).returns (checked_readToEnd name read')
    (Standing.within_start bytes)).bind fun r _ => Traced.Returns.pure id r.1

section

variable (limits : Limits) (policy : ClassificationPolicy) (bytes : Memory)

theorem returns_decodeTopologySection : (decodeTopologySection bytes limits).Returns id
    (CongestionObservatory.decodeTopologySection bytes.bytes limits) :=
  (returns_readWhole (simulates_readTopology limits) "topology" bytes).bind fun builder _ =>
    Traced.Returns.lift (builder.build limits)

theorem returns_decodeMetadataSection : (decodeMetadataSection bytes limits policy).Returns id
    (CongestionObservatory.decodeMetadataSection bytes.bytes limits policy) := by
  have hread := (simulates_readSnapshotMetadata limits).bind fun m =>
    (simulates_checkOk "metadata section is malformed").bind fun _ => Simulates.pure m
  have hchecked : Checked (do
      let m ← CongestionObservatory.readSnapshotMetadata limits
      CongestionObservatory.checkOk "metadata section is malformed"
      pure m : ByteReader SnapshotMetadata) := by
    refine Checked.bind fun m => checked_checkOk fun c a c' hrun => ?_
    cases hrun
    rfl
  refine (hread.returns hchecked (Standing.within_start bytes)).bind fun r _ => ?_
  exact (Traced.Returns.lift _).bind fun _ _ => Traced.Returns.pure id r.1

theorem returns_decodeEpisodeSection : (decodeEpisodeSection bytes limits).Returns id
    (CongestionObservatory.decodeEpisodeSection bytes.bytes limits) :=
  returns_readWhole (simulates_list _ _ (simulates_readEpisode limits)) "episode" bytes

theorem returns_decodeEvidenceSection : (decodeEvidenceSection bytes limits).Returns id
    (CongestionObservatory.decodeEvidenceSection bytes.bytes limits) := by
  refine returns_readWhole (simulates_u32.bind fun rawCount => ?_) "evidence" bytes
  have hcount : (if decide (rawCount.toNat > limits.maxSnapshotEvidence) then 0 else rawCount.toNat)
      ≤ limits.maxSnapshotEvidence := by
    split
    · exact Nat.zero_le _
    · rename_i hle
      exact Nat.not_lt.mp (by simpa using hle)
  exact (simulates_times _ (simulates_readEvidence limits) hcount).bind fun records =>
    Simulates.pure _

/-! ### The snapshot -/

/-- The sections as texts. -/
def textsOf (sections : OrdMap UInt32 Memory) : OrdMap UInt32 Text :=
  sections.mapValues fun _ m => m.bytes

theorem returns_collectSection (payload : Memory) (sections : OrdMap UInt32 Memory)
    (s : SnapshotSection) : (collectSection payload sections s).Returns textsOf
      (CongestionObservatory.collectSection payload.bytes (textsOf sections) s) := by
  unfold collectSection CongestionObservatory.collectSection
  by_cases hsum : s.offset.toNat + s.length.toNat < 2 ^ 64
  · have hadd : checkedAdd s.offset.toNat s.length.toNat = some (s.offset.toNat + s.length.toNat) :=
      (checkedAdd_eq_some s.offset.toNat_lt).mpr ⟨rfl, hsum⟩
    have hextent : (s.offset.toNat + s.length.toNat ≥ 2 ^ 64
        ∨ s.offset.toNat + s.length.toNat > payload.bytes.length)
        ↔ s.offset.toNat + s.length.toNat > payload.size.toNat := by
      rw [Memory.toNat_size]
      omega
    have hduplicate : (textsOf sections).contains s.id = sections.contains s.id :=
      OrdMap.contains_mapValues _ sections s.id
    rw [hadd]
    simp only [hextent, hduplicate]
    refine Traced.Returns.record (.sum s.offset s.length) hsum (by simp) ?_
    refine (Traced.Returns.lift _).bind fun _ hinside => ?_
    refine Traced.Returns.record (.range s.offset s.length payload.size) ?_ (by simp) ?_
    · exact Nat.not_lt.mp (failIf_eq_ok.mp hinside)
    · refine (Traced.Returns.lift _).bind fun _ _ => (Traced.Returns.lift _).bind fun _ _ => ?_
      have hpure := Traced.Returns.pure (ε := Error) textsOf
        (sections.insert s.id (payload.slice s.offset s.length))
      rw [textsOf, OrdMap.mapValues_insert] at hpure
      exact hpure
  · have hadd : checkedAdd s.offset.toNat s.length.toNat = none := by
      cases hsome : checkedAdd s.offset.toNat s.length.toNat with
      | none => rfl
      | some sum => exact absurd ((checkedAdd_eq_some s.offset.toNat_lt).mp hsome).2 hsum
    have hextent : (s.offset.toNat + s.length.toNat ≥ 2 ^ 64
        ∨ s.offset.toNat + s.length.toNat > payload.bytes.length) ↔ True := by
      rw [iff_true]
      omega
    rw [hadd]
    simp only [hextent]
    exact Traced.Returns.error _ _

theorem returns_collectRounds (payload : Memory) (count : Nat) :
    ∀ (table : List SnapshotSection) (sections : OrdMap UInt32 Memory), table.length ≤ count →
      (collectRounds payload count table sections).Returns textsOf
        (table.foldlM (CongestionObservatory.collectSection payload.bytes) (textsOf sections)) := by
  intro table
  induction table with
  | nil => exact fun sections _ => Traced.Returns.pure textsOf sections
  | cons s rest ih =>
      intro sections hleft
      rw [List.length_cons] at hleft
      rw [List.foldlM_cons]
      refine Traced.Returns.record (.round (count - (rest.length + 1)) count) ?_ (by simp) ?_
      · show count - (rest.length + 1) < count
        omega
      · exact (returns_collectSection payload sections s).bind fun sections _ =>
          ih sections (by omega)

theorem returns_collectSections {table : List SnapshotSection}
    (htable : table.length ≤ limits.maxSnapshotSections) (payload : Memory) :
    (collectSections limits payload table).Returns textsOf
      (CongestionObservatory.collectSections payload.bytes table) :=
  Traced.Returns.record (.counted table.length limits.maxSnapshotSections) htable (by simp)
    (returns_collectRounds payload table.length table OrdMap.empty (le_refl _))

theorem returns_requireSection (sections : OrdMap UInt32 Memory) (key : UInt32)
    (message : String) : (requireSection sections key message).Returns (fun m => m.bytes)
      (CongestionObservatory.requireSection (textsOf sections) key message) := by
  unfold requireSection CongestionObservatory.requireSection
  rw [textsOf, OrdMap.find?_mapValues]
  cases sections.find? key with
  | none => exact Traced.Returns.error _ _
  | some bytes => exact Traced.Returns.pure _ bytes

theorem returns_optionalSection {α : Type} (sections : OrdMap UInt32 Memory) (key : UInt32)
    (absent : α) {decode : Memory → Traced Error α} {decode' : Text → Result α}
    (h : ∀ bytes, (decode bytes).Returns id (decode' bytes.bytes)) :
    (optionalSection sections key absent decode).Returns id
      (CongestionObservatory.optionalSection (textsOf sections) key absent decode') := by
  unfold optionalSection CongestionObservatory.optionalSection
  rw [textsOf, OrdMap.find?_mapValues]
  cases sections.find? key with
  | none => exact Traced.Returns.pure id absent
  | some bytes => exact h bytes

theorem returns_decodeContent (header : SnapshotHeader) (sections : OrdMap UInt32 Memory) :
    (decodeContent header sections limits policy).Returns id
      (CongestionObservatory.decodeContent header (textsOf sections) limits policy) := by
  refine (returns_requireSection sections _ _).bind fun bytes _ => ?_
  refine (returns_decodeMetadataSection limits policy bytes).bind fun metadata _ => ?_
  refine (returns_requireSection sections _ _).bind fun bytes _ => ?_
  refine (returns_decodeTopologySection limits bytes).bind fun topology _ => ?_
  refine (Traced.Returns.lift _).bind fun _ _ => ?_
  refine (returns_optionalSection sections _ _ (returns_decodeEpisodeSection limits)).bind
    fun episodes _ => ?_
  refine (returns_optionalSection sections _ _ (returns_decodeEvidenceSection limits)).bind
    fun evidence _ => ?_
  exact Traced.Returns.pure id _

end

/-- `decodeSnapshot` behind the section table. -/
def decodeBehind (header : SnapshotHeader) (table : List SnapshotSection) (payload : Text)
    (limits : Limits) (policy : ClassificationPolicy) : Result SnapshotContent := do
  failIf (payload.length ≠ header.payloadBytes.toNat)
    (makeError .integrityFailure "snapshot length does not match the declared payload size")
  failIf (crc64 payload ≠ header.payloadCrc)
    (makeError .integrityFailure "snapshot payload checksum mismatch")
  let sections ← CongestionObservatory.collectSections payload table
  CongestionObservatory.decodeContent header sections limits policy

/-- The sum of 64 bits is the size exactly when the bytes that are left have the declared length,
even where the sum wraps. -/
theorem payloadEnd_eq_size_iff {m : Memory} {p : Standing Text} (hp : p.Within m)
    (length : UInt64) :
    p.index + length = m.size ↔ (p.cursor m).rest.length = length.toNat := by
  have hindex : p.index.toNat ≤ m.bytes.length := hp
  have hlt := m.length_lt
  have hlength := length.toNat_lt
  rw [p.length_cursor m, ← UInt64.toNat_inj, UInt64.toNat_add, Memory.toNat_size]
  omega

theorem returns_decodePayload {m : Memory} {p : Standing Text} (hp : p.Within m)
    (header : SnapshotHeader) {table : List SnapshotSection} {limits : Limits}
    (htable : table.length ≤ limits.maxSnapshotSections) (policy : ClassificationPolicy) :
    (decodePayload header table p.index m limits policy).Returns id
      (decodeBehind header table (p.cursor m).rest limits policy) := by
  have hindex : p.index.toNat ≤ m.bytes.length := hp
  unfold decodePayload decodeBehind
  simp only [ne_eq, payloadEnd_eq_size_iff hp header.payloadBytes]
  refine (Traced.Returns.lift _).bind fun _ hlength => ?_
  have hpayload : (p.cursor m).rest.length = header.payloadBytes.toNat :=
    not_not.mp (failIf_eq_ok.mp hlength)
  have hslice : (m.slice p.index header.payloadBytes).bytes = (p.cursor m).rest :=
    List.take_of_length_le (le_of_eq hpayload)
  refine Traced.Returns.record (.range p.index header.payloadBytes m.size) ?_ (by simp) ?_
  · rw [p.length_cursor m] at hpayload
    show p.index.toNat + header.payloadBytes.toNat ≤ m.size.toNat
    rw [Memory.toNat_size]
    omega
  · rw [← hslice]
    refine (Traced.Returns.lift _).bind fun _ _ => ?_
    exact (returns_collectSections limits htable _).bind fun sections _ =>
      returns_decodeContent limits policy header sections

theorem simulates_readMagic (expected : Text) :
    Simulates (readMagic expected) (CongestionObservatory.readMagic expected) := by
  induction expected with
  | nil => exact Simulates.pure ()
  | cons byte rest ih =>
      refine simulates_u8.bind fun found => ?_
      split
      · exact Simulates.lift_error _
      · exact ih

theorem simulates_readVersion : Simulates readVersion CongestionObservatory.readVersion := by
  refine simulates_u32.bind fun major => simulates_u32.bind fun minor => ?_
  split
  · exact Simulates.lift_error _
  · split
    · exact Simulates.lift_error _
    · exact Simulates.pure ()

section

variable (limits : Limits) (policy : ClassificationPolicy)

theorem simulates_readHeader :
    Simulates (readHeader limits policy) (CongestionObservatory.readHeader limits policy) := by
  refine (simulates_readMagic _).bind fun _ => simulates_readVersion.bind fun _ => ?_
  refine Simulates.bind (((((((simulates_u64.map _).seq simulates_u64).seq simulates_u64).seq
    simulates_i64).seq (simulates_count _ _)).seq simulates_u64).seq simulates_u64)
    fun header => (simulates_checkOk _).bind fun _ => ?_
  cases checkHeader header limits policy with
  | error e => exact Simulates.lift_error e
  | ok u => exact Simulates.pure header

/-- The section count of a header is within the limit it was checked against. -/
theorem yields_readHeader : Yields (CongestionObservatory.readHeader limits policy) fun header =>
    header.sectionCount ≤ limits.maxSnapshotSections := by
  refine Yields.bind (Yields.any _) fun _ _ => Yields.bind (Yields.any _) fun _ _ => ?_
  refine Yields.bind (P := fun header => header.sectionCount ≤ limits.maxSnapshotSections)
    (Yields.seq (Yields.seq (Yields.seq (Yields.seq (Yields.seq (Yields.seq
      (Yields.map (Yields.any _) ?_) (Yields.any _)) (Yields.any _)) (Yields.any _))
      (yields_count_le _ _)) (Yields.any _)) (Yields.any _)) ?_
  · exact fun _ _ _ _ _ _ _ _ sectionCount hcount _ _ _ _ => hcount
  · intro header hheader
    refine Yields.bind (Yields.any _) fun _ _ => ?_
    split
    · exact Yields.throw _
    · exact Yields.pure hheader

theorem simulates_readTable {n : Nat} (hn : n ≤ limits.maxSnapshotSections) :
    Simulates (readTable limits n) (CongestionObservatory.readTable n) := by
  have hsection : Simulates readSection CongestionObservatory.readSection :=
    (((simulates_u32.map _).seq simulates_u64).seq simulates_u64).seq simulates_u64
  exact (simulates_times _ hsection hn).bind fun table =>
    (simulates_checkOk _).bind fun _ => Simulates.pure table

theorem yields_readTable (n : Nat) :
    Yields (CongestionObservatory.readTable n) fun table => table.length ≤ n :=
  (ByteReader.yields_times (Yields.any CongestionObservatory.readSection) n).bind fun _ htable =>
    Yields.bind (Yields.any _) fun _ _ => Yields.pure htable.1

/-- The header and the table. -/
def readFront : ByteReader (SnapshotHeader × List SnapshotSection) := do
  let header ← CongestionObservatory.readHeader limits policy
  let table ← CongestionObservatory.readTable header.sectionCount
  pure (header, table)

theorem simulates_readHead : Simulates (readHead limits policy) (readFront limits policy) :=
  (simulates_readHeader limits policy).bindOf (yields_readHeader limits policy) fun header hcount =>
    (simulates_readTable limits hcount).bind fun table => Simulates.pure (header, table)

theorem yields_readFront : Yields (readFront limits policy) fun front =>
    front.2.length ≤ limits.maxSnapshotSections :=
  (yields_readHeader limits policy).bind fun header hcount =>
    (yields_readTable header.sectionCount).bind fun _ htable => Yields.pure (htable.trans hcount)

theorem checked_readFront : Checked (readFront limits policy) := by
  refine Checked.bind fun header => ?_
  intro c a c' hrun
  obtain ⟨table, c₁, htable, hpure⟩ := Decoder.bind_eq_ok.mp hrun
  cases hpure
  obtain ⟨found, c₂, -, hrest⟩ := Decoder.bind_eq_ok.mp htable
  exact checked_checkOk (fun c a c' h => by cases h; rfl) c₂ table c' hrest

theorem decodeSnapshot_front (bytes : Text) :
    CongestionObservatory.decodeSnapshot bytes limits policy
      = (failIf (bytes.length < kSnapshotHeaderBytes)
          (makeError .integrityFailure "snapshot is shorter than its header")
        >>= fun _ => readFront limits policy ⟨bytes, none⟩
        >>= fun r => decodeBehind r.1.1 r.1.2 r.2.rest limits policy) := rfl

variable {limits policy} {bytes : Memory}

/-- What is done with the header and the table that `readHead` read. -/
theorem returns_readHead : (readHead limits policy bytes Standing.start).Returns
    (fun r => (r.1, r.2.cursor bytes)) (readFront limits policy ⟨bytes.bytes, none⟩) :=
  (simulates_readHead limits policy).returns (checked_readFront limits policy)
    (Standing.within_start bytes)

theorem within_readHead {r : (SnapshotHeader × List SnapshotSection) × Standing Text}
    (h : (readHead limits policy bytes Standing.start).result = .ok r) : r.2.Within bytes :=
  (simulates_readHead limits policy bytes _ (Standing.within_start bytes)).within h

theorem readFront_of_readHead {r : (SnapshotHeader × List SnapshotSection) × Standing Text}
    (h : (readHead limits policy bytes Standing.start).result = .ok r) :
    readFront limits policy ⟨bytes.bytes, none⟩ = .ok (r.1, r.2.cursor bytes) := by
  rw [← returns_readHead.result, h]
  rfl

theorem returns_behind {r : (SnapshotHeader × List SnapshotSection) × Standing Text}
    (h : (readHead limits policy bytes Standing.start).result = .ok r) :
    (decodePayload r.1.1 r.1.2 r.2.index bytes limits policy).Returns id
      (decodeBehind r.1.1 r.1.2 (r.2.cursor bytes).rest limits policy) :=
  returns_decodePayload (within_readHead h) r.1.1
    (yields_readFront limits policy _ _ _ (readFront_of_readHead h)) policy

/-- The reader by index returns what the reader of the list returns. -/
theorem decodeSnapshot_result : (decodeSnapshot bytes limits policy).result
    = CongestionObservatory.decodeSnapshot bytes.bytes limits policy := by
  rw [decodeSnapshot_front, decodeSnapshot, Traced.result_bind, Memory.toNat_size]
  refine bind_congr fun _ => ?_
  rw [Traced.result_bind]
  cases h : (readHead limits policy bytes Standing.start).result with
  | error e =>
      rw [← returns_readHead.result, h]
      rfl
  | ok r =>
      rw [readFront_of_readHead h]
      have hbehind := (returns_behind h).result
      rw [id_map] at hbehind
      exact hbehind

/-- A content is returned only when no reader has failed. -/
theorem clean_decodeSnapshot : (decodeSnapshot bytes limits policy).Clean := by
  refine (Traced.Sound.lift _).clean.bind fun _ _ => ?_
  refine returns_readHead.sound.clean.bind fun r hr => ?_
  exact (Traced.clean_record (by simp)).bind fun _ _ => (returns_behind hr).sound.clean

/-- The one offset that can wrap is the end of the payload. -/
theorem safe_decodeSnapshot_iff : (decodeSnapshot bytes limits policy).Safe ↔
    (kSnapshotHeaderBytes ≤ bytes.bytes.length → ∀ r,
      (readHead limits policy bytes Standing.start).result = .ok r →
        r.2.index.toNat + r.1.1.payloadBytes.toNat < 2 ^ 64) := by
  have hbehind : ∀ r, (readHead limits policy bytes Standing.start).result = .ok r →
      ((do Traced.record (.sum r.2.index r.1.1.payloadBytes)
           decodePayload r.1.1 r.1.2 r.2.index bytes limits policy : Traced Error SnapshotContent).Safe
        ↔ r.2.index.toNat + r.1.1.payloadBytes.toNat < 2 ^ 64) := by
    intro r hr
    rw [Traced.safe_bind_iff, Traced.safe_record]
    exact and_iff_left fun _ _ => (returns_behind hr).sound.safe
  have hhead : (readHead limits policy bytes Standing.start).Safe := returns_readHead.sound.safe
  rw [decodeSnapshot, Traced.safe_bind_iff, and_iff_right (Traced.Sound.lift _).safe]
  constructor
  · intro h hlength r hr
    have hrest := h () (failIf_eq_ok.mpr (by rw [Memory.toNat_size]; omega))
    exact (hbehind r hr).mp ((Traced.safe_bind_iff.mp hrest).2 r hr)
  · intro h u hu
    have hlength := failIf_eq_ok.mp hu
    rw [Memory.toNat_size, Nat.not_lt] at hlength
    exact Traced.safe_bind_iff.mpr ⟨hhead, fun r hr => (hbehind r hr).mpr (h hlength r hr)⟩

end

end CongestionObservatory.InPlace
