import CongestionObservatory.Proofs.Persistence.InPlace

/-!
# `CongestionObservatory.Proofs.Persistence.InRange`: when the reader stays in range

`core/checked.hpp` asks that a size from a snapshot header is added with `checked_add`. The extents
of the sections are. Two sums are not: the end of the payload in `decode_snapshot`, and the end of a
blob in `ByteReader::blob`. A limit on the snapshot bytes near `2 ^ 64` lets both wrap.

`reads_in_range_iff` says that nothing else can go wrong. Every byte and every range that is read
lies inside its buffer, every loop keeps to a count that was checked against a limit, and what is
returned was read without a failure, exactly when these two sums fit (`PayloadEndFits`,
`CallsFit`). Where the end of the payload wraps, the snapshot is still rejected
(`decodeSnapshot_result`). Where the end of a blob wraps, bytes outside of the buffer are read
(`end_wraps`).

The conditions are about the fields of the input. So the first part finds the fields in given bytes:
bytes that are long enough are a `RawSnapshot`.
-/

set_option autoImplicit false

namespace CongestionObservatory.InPlace

open Lib MemoryReader

/-! ### Fields of given bytes -/

section

variable {bytes : Text}

theorem exists_u32_append (h : 4 ≤ bytes.length) : ∃ value rest,
    bytes = ByteWriter.u32 value ++ rest ∧ bytes.length = 4 + rest.length := by
  obtain ⟨n, rest, hlt, hbytes⟩ := LittleEndian.exists_encode_append h
  refine ⟨UInt32.ofNat n, rest, ?_⟩
  rw [ByteWriter.u32, UInt32.toNat_ofNat', Nat.mod_eq_of_lt (show n < 2 ^ 32 from hlt)]
  exact hbytes

theorem exists_u64_append (h : 8 ≤ bytes.length) : ∃ value rest,
    bytes = ByteWriter.u64 value ++ rest ∧ bytes.length = 8 + rest.length := by
  obtain ⟨n, rest, hlt, hbytes⟩ := LittleEndian.exists_encode_append h
  refine ⟨UInt64.ofNat n, rest, ?_⟩
  rw [ByteWriter.u64, UInt64.toNat_ofNat', Nat.mod_eq_of_lt (show n < 2 ^ 64 from hlt)]
  exact hbytes

theorem exists_i64_append (h : 8 ≤ bytes.length) : ∃ value rest,
    bytes = ByteWriter.i64 value ++ rest ∧ bytes.length = 8 + rest.length := by
  obtain ⟨value, rest, hbytes⟩ := exists_u64_append h
  refine ⟨value.toInt64, rest, ?_⟩
  rw [ByteWriter.i64, UInt64.toUInt64_toInt64]
  exact hbytes

theorem exists_section_append (h : 28 ≤ bytes.length) : ∃ s rest,
    bytes = writeSection s ++ rest ∧ bytes.length = 28 + rest.length := by
  obtain ⟨id, rest₁, rfl, hid⟩ := exists_u32_append (show 4 ≤ bytes.length by omega)
  obtain ⟨offset, rest₂, rfl, hoffset⟩ := exists_u64_append (show 8 ≤ rest₁.length by omega)
  obtain ⟨length, rest₃, rfl, hlength⟩ := exists_u64_append (show 8 ≤ rest₂.length by omega)
  obtain ⟨crc, rest, rfl, hcrc⟩ := exists_u64_append (show 8 ≤ rest₃.length by omega)
  refine ⟨⟨id, offset, length, crc⟩, rest, ?_, by omega⟩
  simp [writeSection]

theorem exists_table_append {n : Nat} (h : n * 28 ≤ bytes.length) :
    ∃ (table : List SnapshotSection) (rest : Text),
      table.length = n ∧ bytes = table.flatMap writeSection ++ rest := by
  induction n generalizing bytes with
  | zero => exact ⟨[], bytes, rfl, rfl⟩
  | succ n ih =>
      obtain ⟨s, rest, rfl, hrest⟩ := exists_section_append (show 28 ≤ bytes.length by omega)
      obtain ⟨table, tail, hlength, rfl⟩ := ih (show n * 28 ≤ rest.length by omega)
      exact ⟨s :: table, tail, by simp [hlength], by simp⟩

/-- Bytes that are long enough for a header are a raw snapshot, with an empty table. -/
theorem exists_raw (h : kSnapshotHeaderBytes ≤ bytes.length) : ∃ raw : RawSnapshot,
    raw.magic.length = 8 ∧ bytes = raw.head ++ raw.payload := by
  have hheader : kSnapshotHeaderBytes = 68 := rfl
  obtain ⟨magic, rest₀, rfl, hmagic⟩ : ∃ magic rest : Text, bytes = magic ++ rest ∧
      magic.length = 8 :=
    ⟨bytes.take 8, bytes.drop 8, (List.take_append_drop 8 bytes).symm,
      List.length_take_of_le (by omega)⟩
  rw [List.length_append] at h
  -- The other fields are cut off the front, each as wide as `readHeader` reads it.
  obtain ⟨major, rest₁, rfl, h₁⟩ := exists_u32_append (show 4 ≤ rest₀.length by omega)
  obtain ⟨minor, rest₂, rfl, h₂⟩ := exists_u32_append (show 4 ≤ rest₁.length by omega)
  obtain ⟨limitsDigest, rest₃, rfl, h₃⟩ := exists_u64_append (show 8 ≤ rest₂.length by omega)
  obtain ⟨policyDigest, rest₄, rfl, h₄⟩ := exists_u64_append (show 8 ≤ rest₃.length by omega)
  obtain ⟨topologyDigest, rest₅, rfl, h₅⟩ := exists_u64_append (show 8 ≤ rest₄.length by omega)
  obtain ⟨createdAt, rest₆, rfl, h₆⟩ := exists_i64_append (show 8 ≤ rest₅.length by omega)
  obtain ⟨sectionCount, rest₇, rfl, h₇⟩ := exists_u32_append (show 4 ≤ rest₆.length by omega)
  obtain ⟨payloadBytes, rest₈, rfl, h₈⟩ := exists_u64_append (show 8 ≤ rest₇.length by omega)
  obtain ⟨payloadCrc, payload, rfl, h₉⟩ := exists_u64_append (show 8 ≤ rest₈.length by omega)
  refine ⟨⟨magic, major, minor, limitsDigest, policyDigest, topologyDigest, createdAt,
    sectionCount, payloadBytes, payloadCrc, [], payload⟩, hmagic, ?_⟩
  simp [RawSnapshot.head, RawSnapshot.numbers]

end

/-! ### Calls of the byte reader -/

section

variable {limits : Limits} {m : Memory} {p : Standing Text}

/-- The bytes ahead hold a length that `blob` may add to its position. A length above the limit is
refused before it is added. -/
def BlobFits (limits : Limits) (m : Memory) (p : Standing Text) : Prop :=
  ∀ (length : UInt64) (rest : Text), p.cursor m = ⟨ByteWriter.u64 length ++ rest, none⟩ →
    length.toNat ≤ limits.maxSnapshotBytes → p.index.toNat + 8 + length.toNat < 2 ^ 64

/-- Every call of `blob` is made where its length fits. -/
def CallsFit (limits : Limits) (m : Memory) : List ReaderCall → Standing Text → Prop
  | [], _ => True
  | call :: rest, p => (call = .blob → BlobFits limits m p) ∧
      ∀ p', (call.run limits m p).result = .ok ((), p') → CallsFit limits m rest p'

/-- Every other call has a decoder that it simulates. -/
theorem exists_simulates_call {call : ReaderCall} (h : call ≠ .blob) :
    ∃ d : ByteReader Unit, Simulates (call.run limits) d := by
  have hremaining : Simulates (remaining >>= fun _ => pure ())
      (ByteReader.remaining >>= fun _ => pure ()) := simulates_remaining fun _ => Simulates.pure ()
  have hpure := fun {α : Type} (_ : α) => Simulates.pure (φ := Text) (ε := Error) ()
  cases call with
  | u8 => exact ⟨_, simulates_u8.bind hpure⟩
  | u16 => exact ⟨_, simulates_u16.bind hpure⟩
  | u32 => exact ⟨_, simulates_u32.bind hpure⟩
  | u64 => exact ⟨_, simulates_u64.bind hpure⟩
  | i64 => exact ⟨_, simulates_i64.bind hpure⟩
  | boolean => exact ⟨_, simulates_boolean.bind hpure⟩
  | text => exact ⟨_, (simulates_text limits).bind hpure⟩
  | blob => exact absurd rfl h
  | digestId => exact ⟨_, simulates_digestId.bind hpure⟩
  | count bound what => exact ⟨_, (simulates_count bound what).bind hpure⟩
  | remaining => exact ⟨_, hremaining⟩
  | fail what => exact ⟨_, simulates_fail what⟩

/-- The length that the bytes ahead hold is read, and the reader stands behind it. -/
theorem u64_of_ahead (hp : p.Within m) {length : UInt64} {rest : Text}
    (hahead : p.cursor m = ⟨ByteWriter.u64 length ++ rest, none⟩) :
    ∃ p', (u64 m p).result = .ok (length, p') ∧ p'.failure = none ∧
      p'.index.toNat = p.index.toNat + 8 := by
  have htracks := simulates_u64 m p hp
  have hread : ByteReader.u64 (p.cursor m) = .ok (length, ⟨rest, none⟩) := by
    rw [hahead]
    exact (ByteReader.reads_u64 length).accepts trivial rest
  have hresult := htracks.result_eq
  rw [hread] at hresult
  cases h : (u64 m p).result with
  | error e =>
      rw [h] at hresult
      cases hresult
  | ok r =>
      obtain ⟨a, p'⟩ := r
      have hwithin := htracks.within h
      rw [h] at hresult
      obtain ⟨rfl, hcursor⟩ := Prod.mk.inj (Except.ok.inj hresult)
      refine ⟨p', rfl, congrArg Cursor.failure hcursor, ?_⟩
      -- Both positions are found from the bytes that are left.
      have hbefore := p.length_cursor m
      have hafter := p'.length_cursor m
      have hindex : p.index.toNat ≤ m.bytes.length := hp
      have hindex' : p'.index.toNat ≤ m.bytes.length := hwithin
      rw [hahead, List.length_append, ByteWriter.u64, LittleEndian.length_encode] at hbefore
      rw [show p'.cursor m = ⟨rest, none⟩ from hcursor] at hafter
      simp only at hbefore hafter
      omega

/-- A number that was read without a failure was ahead. -/
theorem ahead_of_u64 (hp : p.Within m) {length : UInt64} {p' : Standing Text}
    (h : (u64 m p).result = .ok (length, p')) (hnone : p'.failure = none) :
    ∃ rest, p.cursor m = ⟨ByteWriter.u64 length ++ rest, none⟩ := by
  have hresult := (simulates_u64 m p hp).result_eq
  rw [h] at hresult
  have hread : ByteReader.u64 (p.cursor m) = .ok (length, p'.cursor m) := hresult.symm
  have hfailure : (p.cursor m).failure = none := by
    -- A failure from before would still be noted.
    by_contra hsome
    exact ByteReader.sticky_u64 _ hsome _ _ hread hnone
  have hused := ((consumes_unsigned 8).map UInt64.ofNat) _ _ _ hread hnone
  obtain ⟨value, rest, hrest, -⟩ := exists_u64_append
    (show 8 ≤ (p.cursor m).rest.length by omega)
  have hcursor : p.cursor m = ⟨ByteWriter.u64 value ++ rest, none⟩ := by
    rw [← hrest, ← hfailure]
  have haccepts := (ByteReader.reads_u64 value).accepts trivial rest
  rw [← hcursor, hread] at haccepts
  obtain ⟨rfl, -⟩ := Prod.mk.inj (Except.ok.inj haccepts)
  exact ⟨rest, hcursor⟩

/-- The end of the extent is computed for a length within its bound, and nothing else can wrap. -/
theorem safe_extent_iff (hp : p.Within m) {bound : Nat} {what : String} {length : UInt64} :
    (extent bound what length m p).Safe ↔
      (length.toNat ≤ bound → p.index.toNat + length.toNat < 2 ^ 64) := by
  constructor
  · intro h hle
    rw [extent_of_le hle] at h
    have hsum : (sum p.index length m p).Safe := (safe_bind_iff.mp h).1
    exact hsum (.sum p.index length) List.mem_cons_self
  · intro h
    exact (tracks_extent hp h).safe

/-- What `blob` reads where its length fits. -/
def readBlob (limits : Limits) : ByteReader Text := do
  let length ← ByteReader.u64
  if ← Decoder.ok then
    takeChecked limits.maxSnapshotBytes "snapshot blob exceeds the configured bound" length.toNat
  else pure []

theorem tracks_blob (hp : p.Within m) (h : BlobFits limits m p) :
    Tracks m p (blob limits m p) (readBlob limits (p.cursor m)) := by
  refine (simulates_u64 m p hp).bind fun length p' hlength _ hwithin => ?_
  refine (Simulates.ok m p' hwithin).bind fun running p'' hrunning _ _ => ?_
  cases hrunning
  cases hfailure : p'.failure with
  | some what => exact Simulates.pure [] m p' hwithin
  | none =>
      refine tracks_extent hwithin fun hle => ?_
      obtain ⟨rest, hahead⟩ := ahead_of_u64 hp hlength hfailure
      obtain ⟨q, hq, -, hindex⟩ := u64_of_ahead hp hahead
      rw [hlength] at hq
      cases hq
      show p'.index.toNat + length.toNat < 2 ^ 64
      rw [hindex]
      exact h length rest hahead hle

theorem safe_blob_iff (hp : p.Within m) : (blob limits m p).Safe ↔ BlobFits limits m p := by
  constructor
  · intro h length rest hahead hle
    obtain ⟨p', hlength, hnone, hindex⟩ := u64_of_ahead hp hahead
    have hextent : ((if p'.failure.isNone then
        extent limits.maxSnapshotBytes "snapshot blob exceeds the configured bound" length
      else pure [] : Reader Text) m p').Safe := (safe_bind_iff.mp h).2 _ _ hlength
    rw [hnone] at hextent
    have hfits := (safe_extent_iff ((simulates_u64 m p hp).within hlength)).mp hextent hle
    rwa [hindex] at hfits
  · intro h
    exact (tracks_blob hp h).safe

/-- A call that fits runs as some decoder runs. -/
theorem exists_tracks_call (hp : p.Within m) {call : ReaderCall}
    (h : call = .blob → BlobFits limits m p) : ∃ r, Tracks m p (call.run limits m p) r := by
  by_cases hblob : call = .blob
  · subst hblob
    exact ⟨_, (tracks_blob hp (h rfl)).bind fun _ p' _ _ hp' => Simulates.pure () m p' hp'⟩
  · obtain ⟨d, hd⟩ : ∃ d : ByteReader Unit, Simulates (call.run limits) d :=
      exists_simulates_call hblob
    exact ⟨_, hd m p hp⟩

theorem safe_call_iff (hp : p.Within m) {call : ReaderCall} :
    (call.run limits m p).Safe ↔ (call = .blob → BlobFits limits m p) := by
  constructor
  · rintro h rfl
    exact (safe_blob_iff hp).mp (safe_bind_iff.mp h).1
  · intro h
    obtain ⟨r, hr⟩ := exists_tracks_call hp h
    exact hr.safe

/-- A sequence of calls stays in range exactly when each `blob` is called where its length fits. -/
theorem safe_runCalls_iff (calls : List ReaderCall) (hp : p.Within m) :
    (runCalls limits calls m p).Safe ↔ CallsFit limits m calls p := by
  induction calls generalizing p with
  | nil =>
      refine iff_of_true ?_ trivial
      exact (Simulates.pure () m p hp).safe
  | cons call rest ih =>
      -- Only a call that fits is known to end inside the memory.
      have hnext : (call = .blob → BlobFits limits m p) → ∀ p',
          (call.run limits m p).result = .ok ((), p') → p'.Within m := by
        intro hfits p' hresult
        obtain ⟨r, hr⟩ := exists_tracks_call hp hfits
        exact hr.within hresult
      rw [runCalls, safe_bind_iff]
      constructor
      · rintro ⟨hcall, hrest⟩
        have hfits := (safe_call_iff hp).mp hcall
        exact ⟨hfits, fun p' hresult => (ih (hnext hfits p' hresult)).mp (hrest () p' hresult)⟩
      · rintro ⟨hfits, hrest⟩
        refine ⟨(safe_call_iff hp).mpr hfits, fun _ p' hresult => ?_⟩
        exact (ih (hnext hfits p' hresult)).mpr (hrest p' hresult)

end

/-! ### The end of the payload -/

section

variable {limits : Limits} {policy : ClassificationPolicy}

/-- In a file whose header is accepted and whose table is complete, the end of the payload is a
number of 64 bits. -/
def PayloadEndFits (bytes : Text) (limits : Limits) (policy : ClassificationPolicy) : Prop :=
  ∀ raw : RawSnapshot, raw.bytes = bytes → raw.HeaderAccepted limits policy →
    raw.table.length = raw.sectionCount.toNat →
      kSnapshotHeaderBytes + raw.table.length * 28 + raw.payloadBytes.toNat < 2 ^ 64

/-- The header and the table of a raw snapshot are read as its fields. -/
theorem readFront_raw {raw : RawSnapshot} (hheader : raw.HeaderAccepted limits policy)
    (hcount : raw.table.length = raw.sectionCount.toNat) :
    readFront limits policy ⟨raw.bytes, none⟩
      = .ok ((raw.header, raw.table), ⟨raw.payload, none⟩) := by
  have hhead := (reads_readHeader limits policy hheader.length_magic).accepts hheader
    (raw.table.flatMap writeSection ++ raw.payload)
  have htable := (reads_readTable raw.table).accepts trivial raw.payload
  rw [hcount] at htable
  exact Decoder.bind_eq_ok.mpr ⟨raw.header, _, hhead,
    Decoder.bind_eq_ok.mpr ⟨raw.table, _, htable, rfl⟩⟩

/-- Bytes whose header and table were read are a raw snapshot. -/
theorem exists_raw_of_readFront {bytes : Text} (hlength : kSnapshotHeaderBytes ≤ bytes.length)
    {front : SnapshotHeader × List SnapshotSection} {c : Cursor Text}
    (h : readFront limits policy ⟨bytes, none⟩ = .ok (front, c)) :
    ∃ raw : RawSnapshot, raw.bytes = bytes ∧ raw.HeaderAccepted limits policy ∧
      raw.table.length = raw.sectionCount.toNat := by
  obtain ⟨raw, hmagic, rfl⟩ := exists_raw hlength
  have hnone := checked_readFront limits policy _ _ _ h
  obtain ⟨header, c₁, hheader, hrest⟩ := Decoder.bind_eq_ok.mp h
  have hnone₁ : c₁.failure = none := by
    by_contra hfailure
    exact ((sticky_readTable _).bind fun table => Sticky.pure (header, table)) c₁ hfailure _ _
      hrest hnone
  have hreads := reads_readHeader limits policy hmagic
  have haccepted : raw.HeaderAccepted limits policy := by
    by_contra hnot
    exact hreads.rejects hnot raw.payload _ _ hheader hnone₁
  rw [hreads.accepts haccepted raw.payload] at hheader
  cases hheader
  obtain ⟨table, c₂, htable, -⟩ := Decoder.bind_eq_ok.mp hrest
  have hused := readTable_length htable
  obtain ⟨sections, payload, hcount, hpayload⟩ := exists_table_append
    (show raw.sectionCount.toNat * 28 ≤ raw.payload.length from by
      rw [show raw.payload.length = _ from hused]
      exact Nat.le_add_left _ _)
  refine ⟨{ raw with table := sections, payload := payload }, ?_, ?_, hcount⟩
  · rw [hpayload]
    rfl
  · exact ⟨haccepted.magic, haccepted.major, haccepted.minor, haccepted.sectionCount,
      haccepted.header⟩

/-- The reader by index stands at the payload of a raw snapshot. -/
theorem readHead_raw {bytes : Memory} {raw : RawSnapshot} (hbytes : raw.bytes = bytes.bytes)
    (hheader : raw.HeaderAccepted limits policy)
    (hcount : raw.table.length = raw.sectionCount.toNat) :
    ∃ p, (readHead limits policy bytes Standing.start).result = .ok ((raw.header, raw.table), p) ∧
      p.index.toNat = kSnapshotHeaderBytes + raw.table.length * 28 := by
  have hfront := readFront_raw hheader hcount
  rw [hbytes, ← returns_readHead.result] at hfront
  cases h : (readHead limits policy bytes Standing.start).result with
  | error e =>
      rw [h] at hfront
      cases hfront
  | ok r =>
      have hwithin : r.2.index.toNat ≤ bytes.bytes.length := within_readHead h
      rw [h] at hfront
      obtain ⟨hvalue, hcursor⟩ := Prod.mk.inj (Except.ok.inj hfront)
      refine ⟨r.2, by rw [← hvalue], ?_⟩
      have hrest := r.2.length_cursor bytes
      rw [hcursor] at hrest
      have hsize := congrArg List.length hbytes
      rw [RawSnapshot.bytes, List.length_append, List.length_append, length_tableBytes,
        RawSnapshot.length_head hheader.length_magic] at hsize
      simp only at hrest
      omega

theorem safe_decodeSnapshot_iff_fits {bytes : Memory} :
    (decodeSnapshot bytes limits policy).Safe ↔ PayloadEndFits bytes.bytes limits policy := by
  rw [safe_decodeSnapshot_iff]
  constructor
  · intro h raw hbytes hheader hcount
    obtain ⟨p, hread, hindex⟩ := readHead_raw hbytes hheader hcount
    have hlength : kSnapshotHeaderBytes ≤ bytes.bytes.length := by
      rw [← hbytes, RawSnapshot.bytes, List.length_append,
        RawSnapshot.length_head hheader.length_magic]
      exact Nat.le_add_right _ _
    have hend := h hlength _ hread
    rwa [hindex] at hend
  · intro h hlength r hread
    obtain ⟨raw, hbytes, hheader, hcount⟩ :=
      exists_raw_of_readFront hlength (readFront_of_readHead hread)
    obtain ⟨p, hraw, hindex⟩ := readHead_raw hbytes hheader hcount
    rw [hread] at hraw
    cases hraw
    rw [hindex]
    exact h raw hbytes hheader hcount

/-- The reader by index returns what the reader of the list returns. What is said of its reads
holds of a buffer, limits, a policy and calls exactly when the end of the payload and the end of
every blob are numbers of 64 bits. -/
theorem reads_in_range_iff (bytes : Memory) (limits : Limits) (policy : ClassificationPolicy)
    (calls : List ReaderCall) :
    (decodeSnapshot bytes limits policy).result
        = CongestionObservatory.decodeSnapshot bytes.bytes limits policy ∧
      (((decodeSnapshot bytes limits policy).Sound ∧ (decodeTopologySection bytes limits).Sound ∧
          (runCalls limits calls bytes Standing.start).Safe) ↔
        (PayloadEndFits bytes.bytes limits policy ∧ CallsFit limits bytes calls Standing.start)) := by
  refine ⟨decodeSnapshot_result, ?_⟩
  rw [← safe_decodeSnapshot_iff_fits, ← safe_runCalls_iff calls (Standing.within_start bytes)]
  constructor
  · rintro ⟨hsnapshot, -, hcalls⟩
    exact ⟨hsnapshot.safe, hcalls⟩
  · rintro ⟨hsnapshot, hcalls⟩
    exact ⟨⟨hsnapshot, clean_decodeSnapshot⟩, (returns_decodeTopologySection limits bytes).sound,
      hcalls⟩

/-- The largest bound there is on the bytes of a snapshot. -/
def unboundedSnapshots : Limits := { maxSnapshotBytes := 2 ^ 64 - 1 }

/-- A header and nothing else, with the largest payload size there is. -/
def endlessPayload : RawSnapshot where
  magic := kSnapshotMagic
  major := kSnapshotFormatMajor
  minor := kSnapshotFormatMinor
  limitsDigest := unboundedSnapshots.digest
  policyDigest := ({} : ClassificationPolicy).digest
  topologyDigest := 0
  createdAt := 0
  sectionCount := 0
  payloadBytes := 18446744073709551615
  payloadCrc := 0
  table := []
  payload := []

/-- The largest length there is, and nothing else. -/
def endlessBlob : Memory := ⟨ByteWriter.u64 18446744073709551615, by decide⟩

theorem end_wraps : unboundedSnapshots.validate = .ok () ∧
    ¬ (decodeSnapshot ⟨endlessPayload.bytes, by decide⟩ unboundedSnapshots {}).Sound ∧
    ¬ (runCalls unboundedSnapshots [.blob] endlessBlob Standing.start).Safe := by
  refine ⟨by decide +kernel, fun h => ?_, fun h => ?_⟩
  · have hsum := h.safe (.sum 68 18446744073709551615) (by decide +kernel)
    exact absurd hsum (show ¬ (68 + 18446744073709551615 < 2 ^ 64) by decide)
  · -- The sum is seven, so the range passes its check, and it ends far outside of the bytes.
    have hrange := h (.range 8 18446744073709551615 8) (by decide +kernel)
    exact absurd hrange (show ¬ (8 + 18446744073709551615 ≤ 8) by decide)

end

end CongestionObservatory.InPlace
