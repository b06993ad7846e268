import CongestionObservatory.Persistence.Snapshot
import CongestionObservatory.Proofs.Persistence.Fields

/-!
# `CongestionObservatory.Proofs.Persistence.Frame`: the header, the table and the payload

`RawSnapshot` is a snapshot file as its fields, whatever they hold. `decodeSnapshot_raw` says what
`decodeSnapshot` checks of them: it accepts the bytes exactly when every field passes its check,
the sections can be collected and their contents decode. `encodeSnapshot_raw` is the raw snapshot
that `encodeSnapshot` writes.

`collectSections_ok_iff` is the same for the section table: every extent is in range, every
checksum fits and no identity occurs twice.
-/

set_option autoImplicit false

namespace CongestionObservatory

open Lib ByteReader

/-- The fields of a snapshot file. -/
structure RawSnapshot where
  magic : Text
  major : UInt32
  minor : UInt32
  limitsDigest : UInt64
  policyDigest : UInt64
  topologyDigest : UInt64
  createdAt : Int64
  sectionCount : UInt32
  payloadBytes : UInt64
  payloadCrc : UInt64
  table : List SnapshotSection
  payload : Text

namespace RawSnapshot

/-- The numbers of the header after the version. -/
def numbers (raw : RawSnapshot) : Text :=
  ByteWriter.u64 raw.limitsDigest ++ ByteWriter.u64 raw.policyDigest
    ++ ByteWriter.u64 raw.topologyDigest ++ ByteWriter.i64 raw.createdAt
    ++ ByteWriter.u32 raw.sectionCount ++ ByteWriter.u64 raw.payloadBytes
    ++ ByteWriter.u64 raw.payloadCrc

/-- The bytes before the section table. -/
def head (raw : RawSnapshot) : Text :=
  raw.magic ++ ((ByteWriter.u32 raw.major ++ ByteWriter.u32 raw.minor) ++ raw.numbers)

/-- The bytes of the file. -/
def bytes (raw : RawSnapshot) : Text :=
  raw.head ++ (raw.table.flatMap writeSection ++ raw.payload)

/-- The header, as the reader sees it. -/
def header (raw : RawSnapshot) : SnapshotHeader :=
  { limitsDigest := raw.limitsDigest, policyDigest := raw.policyDigest
    topologyDigest := raw.topologyDigest, createdAt := raw.createdAt
    sectionCount := raw.sectionCount.toNat, payloadBytes := raw.payloadBytes
    payloadCrc := raw.payloadCrc }

/-- The checks of the header. -/
structure HeaderAccepted (raw : RawSnapshot) (limits : Limits) (policy : ClassificationPolicy) :
    Prop where
  magic : raw.magic = kSnapshotMagic
  major : raw.major = kSnapshotFormatMajor
  minor : ¬ raw.minor > kSnapshotFormatMinor
  sectionCount : raw.sectionCount.toNat ≤ limits.maxSnapshotSections
  header : checkHeader raw.header limits policy = .ok ()

/-- Everything `decode_snapshot` checks before it returns the content. -/
structure Accepted (raw : RawSnapshot) (limits : Limits) (policy : ClassificationPolicy)
    (content : SnapshotContent) : Prop where
  header : raw.HeaderAccepted limits policy
  length : raw.payload.length = raw.payloadBytes.toNat
  crc : crc64 raw.payload = raw.payloadCrc
  sections : ∃ sections, collectSections raw.payload raw.table = .ok sections ∧
    decodeContent raw.header sections limits policy = .ok content

end RawSnapshot

/-! ### The header -/

theorem sticky_check {α : Type} {condition : Prop} [Decidable condition] {error : Error}
    {d : ByteReader α} (h : Sticky d) : Sticky (if condition then throw error else d) := by
  split
  · exact Sticky.throw error
  · exact h

theorem reads_check {α : Type} {condition : Prop} [Decidable condition] {error : Error}
    {d : ByteReader α} {bytes : Text} {fits : Prop} {a : α} (h : Reads d bytes fits a) :
    Reads (if condition then throw error else d) bytes (¬ condition ∧ fits) a := by
  by_cases hc : condition
  · rw [if_pos hc]
    exact ⟨fun hfits => absurd hc hfits.1, fun _ _ => rejected_error error⟩
  · rw [if_neg hc]
    exact h.congr (by simp [hc])

theorem sticky_readMagic (expected : Text) : Sticky (readMagic expected) := by
  induction expected with
  | nil => exact Sticky.pure ()
  | cons byte rest ih => exact sticky_u8.bind fun found => sticky_check ih

theorem reads_readMagic {expected magic : Text} (h : magic.length = expected.length) :
    Reads (readMagic expected) magic (magic = expected) () := by
  induction expected generalizing magic with
  | nil =>
      rw [List.eq_nil_of_length_eq_zero h]
      exact (Reads.pure ()).congr (by simp)
  | cons byte rest ih =>
      cases magic with
      | nil => simp at h
      | cons found magic =>
          have hboth : Reads (readMagic (byte :: rest)) (ByteWriter.u8 found ++ magic)
              (True ∧ (¬ found ≠ byte ∧ magic = rest)) () := by
            refine (reads_u8 found).bind (fun found => ?_) ?_
            · exact sticky_check (sticky_readMagic rest)
            · exact reads_check (ih (by simpa using h))
          exact hboth.congr (by simp)

theorem sticky_readVersion : Sticky readVersion :=
  sticky_u32.bind fun _ => sticky_u32.bind fun _ => sticky_check (sticky_check (Sticky.pure ()))

theorem reads_readVersion (major minor : UInt32) :
    Reads readVersion (ByteWriter.u32 major ++ ByteWriter.u32 minor)
      (major = kSnapshotFormatMajor ∧ ¬ minor > kSnapshotFormatMinor) () := by
  have hboth : Reads readVersion (ByteWriter.u32 major ++ (ByteWriter.u32 minor ++ []))
      (True ∧ (True ∧ (¬ major ≠ kSnapshotFormatMajor ∧ (¬ minor > kSnapshotFormatMinor ∧ True))))
      () := by
    refine (reads_u32 major).bind (fun _ => ?_) ((reads_u32 minor).bind (fun _ => ?_) ?_)
    · exact sticky_u32.bind fun _ => sticky_check (sticky_check (Sticky.pure ()))
    · exact sticky_check (sticky_check (Sticky.pure ()))
    · exact reads_check (reads_check (Reads.pure ()))
  rw [List.append_nil] at hboth
  exact hboth.congr (by simp)

theorem sticky_checkOk (message : String) : Sticky (checkOk message) := by
  intro c hc
  unfold checkOk
  split
  · exact rejected_error _
  · rename_i hnone
    exact absurd hnone hc

theorem reads_checkOk (message : String) : Reads (checkOk message) [] True () :=
  ⟨fun _ _ => rfl, fun h => absurd trivial h⟩

/-- After a check of `ok` that passes, no failure is noted. -/
theorem checkOk_eq_ok {message : String} {c c' : Cursor Text} {u : Unit}
    (h : checkOk message c = .ok (u, c')) : c' = c ∧ c.failure = none := by
  unfold checkOk at h
  split at h
  · cases h
  · rename_i hnone
    cases h
    exact ⟨rfl, hnone⟩

/-- A section is read when its reader uses all of its bytes and notes no failure. -/
theorem readWhole_eq_ok {α : Type} {name : String} {read : ByteReader α} {bytes : Text} {a : α} :
    readWhole name read bytes = .ok a ↔ read ⟨bytes, none⟩ = .ok (a, ⟨[], none⟩) := by
  unfold readWhole
  rw [bind_eq_ok]
  constructor
  · rintro ⟨⟨b, c⟩, hrun, h⟩
    obtain ⟨hrest, hpure⟩ := seq_eq_ok.mp h
    cases hpure
    obtain ⟨b, c₁, hread, htail⟩ := Decoder.bind_eq_ok.mp hrun
    obtain ⟨u, c₂, hcheck, hlast⟩ := Decoder.bind_eq_ok.mp htail
    obtain ⟨rfl, hnone⟩ := checkOk_eq_ok hcheck
    cases hlast
    rw [failIf_eq_ok, not_not] at hrest
    rw [hread, ← hrest, ← hnone]
  · intro hread
    refine ⟨(a, ⟨[], none⟩), Decoder.bind_eq_ok.mpr ⟨a, _, hread, rfl⟩, ?_⟩
    exact seq_eq_ok.mpr ⟨failIf_eq_ok.mpr (by simp), rfl⟩

theorem sticky_header (limits : Limits) :
    Sticky (SnapshotHeader.mk <$> u64 <*> u64 <*> u64 <*> i64
      <*> count limits.maxSnapshotSections "section count exceeds the limit" <*> u64 <*> u64) :=
  ((((((sticky_u64.map _).seq sticky_u64).seq sticky_u64).seq sticky_i64).seq
    (sticky_count _ _)).seq sticky_u64).seq sticky_u64

/-- A number of 32 bits, read as a checked count. -/
theorem reads_count_u32 (bound : Nat) (what : String) (n : UInt32) :
    Reads (count bound what) (ByteWriter.u32 n) (n.toNat ≤ bound) n.toNat := by
  have h := reads_count bound what (show n.toNat < 2 ^ 32 from n.toNat_lt)
  rw [ByteWriter.size, UInt32.ofNat_toNat] at h
  exact h

theorem sticky_readHeader_tail (limits : Limits) (policy : ClassificationPolicy)
    (header : SnapshotHeader) :
    Sticky (checkOk "snapshot header is malformed" >>= fun _ =>
      match checkHeader header limits policy with
      | .error e => throw e
      | .ok () => pure header : ByteReader SnapshotHeader) := by
  refine (sticky_checkOk _).bind fun _ => ?_
  split
  · exact Sticky.throw _
  · exact Sticky.pure header

/-- The header of a raw snapshot is read exactly when it passes its checks. -/
theorem reads_readHeader {raw : RawSnapshot} (limits : Limits) (policy : ClassificationPolicy)
    (hmagic : raw.magic.length = 8) :
    Reads (readHeader limits policy) raw.head (raw.HeaderAccepted limits policy) raw.header := by
  have hnumbers : Reads (SnapshotHeader.mk <$> u64 <*> u64 <*> u64 <*> i64
      <*> count limits.maxSnapshotSections "section count exceeds the limit" <*> u64 <*> u64)
      raw.numbers (raw.sectionCount.toNat ≤ limits.maxSnapshotSections) raw.header :=
    ((((((((reads_u64 raw.limitsDigest).map SnapshotHeader.mk).seq (reads_u64 raw.policyDigest)
      sticky_u64).seq (reads_u64 raw.topologyDigest) sticky_u64).seq (reads_i64 raw.createdAt)
      sticky_i64).seq (reads_count_u32 _ _ raw.sectionCount) (sticky_count _ _)).seq
      (reads_u64 raw.payloadBytes) sticky_u64).seq (reads_u64 raw.payloadCrc) sticky_u64).congr
      (by simp)
  -- The two empty pieces at the end are the check and the result: neither consumes a byte.
  have hall : Reads (readHeader limits policy)
      (raw.magic ++ ((ByteWriter.u32 raw.major ++ ByteWriter.u32 raw.minor)
        ++ (raw.numbers ++ ([] ++ []))))
      (raw.magic = kSnapshotMagic ∧ ((raw.major = kSnapshotFormatMajor ∧
        ¬ raw.minor > kSnapshotFormatMinor) ∧
        (raw.sectionCount.toNat ≤ limits.maxSnapshotSections ∧
          (True ∧ checkHeader raw.header limits policy = .ok ())))) raw.header := by
    refine (reads_readMagic hmagic).bind (fun _ => ?_)
      ((reads_readVersion raw.major raw.minor).bind (fun _ => ?_)
        (hnumbers.bind (fun h => ?_) ((reads_checkOk _).bind (fun _ => ?_) ?_)))
    · exact sticky_readVersion.bind fun _ => (sticky_header limits).bind fun header =>
        sticky_readHeader_tail limits policy header
    · exact (sticky_header limits).bind fun header => sticky_readHeader_tail limits policy header
    · exact sticky_readHeader_tail limits policy h
    · split
      · exact Sticky.throw _
      · exact Sticky.pure _
    · cases hcheck : checkHeader raw.header limits policy with
      | error e => exact ⟨fun h => (by cases h), fun _ _ => rejected_error e⟩
      | ok u => exact (Reads.pure raw.header).congr (by simp)
  rw [List.append_nil, List.append_nil] at hall
  refine hall.congr ?_
  constructor
  · rintro ⟨hmagic, ⟨hmajor, hminor⟩, hcount, -, hheader⟩
    exact ⟨hmagic, hmajor, hminor, hcount, hheader⟩
  · rintro ⟨hmagic, hmajor, hminor, hcount, hheader⟩
    exact ⟨hmagic, ⟨hmajor, hminor⟩, hcount, trivial, hheader⟩

/-! ### The table and the whole file -/

theorem reads_readSection (s : SnapshotSection) : Reads readSection (writeSection s) True s :=
  (((((reads_u32 s.id).map SnapshotSection.mk).seq (reads_u64 s.offset) sticky_u64).seq
    (reads_u64 s.length) sticky_u64).seq (reads_u64 s.crc64) sticky_u64).congr (by simp)

theorem reads_table (table : List SnapshotSection) :
    Reads (times table.length readSection) (table.flatMap writeSection) True table := by
  have h : Reads (times table.length readSection) (table.flatMap writeSection)
      (∀ s ∈ table, True) (table.map id) := reads_times fun s _ => reads_readSection s
  rw [List.map_id] at h
  exact h.congr (by simp)

theorem sticky_readTable (n : Nat) : Sticky (readTable n) :=
  (sticky_times n readSection).bind fun table => (sticky_checkOk _).bind fun _ => Sticky.pure table

theorem reads_readTable (table : List SnapshotSection) :
    Reads (readTable table.length) (table.flatMap writeSection) True table := by
  have hall : Reads (readTable table.length) (table.flatMap writeSection ++ ([] ++ []))
      (True ∧ (True ∧ True)) table := by
    refine (reads_table table).bind (fun found => ?_) ((reads_checkOk _).bind (fun _ => ?_) ?_)
    · exact (sticky_checkOk _).bind fun _ => Sticky.pure found
    · exact Sticky.pure table
    · exact Reads.pure table
  rw [List.append_nil, List.append_nil] at hall
  exact hall.congr (by simp)

theorem consumes_u8 : Consumes u8 1 := by
  intro c a c' h hnone
  unfold u8 at h
  split at h
  · cases h
    simp at hnone
  · rename_i byte rest hrest
    cases h
    rw [hrest]
    rfl

theorem consumes_unsigned (width : Nat) : Consumes (unsigned width) width := by
  induction width with
  | zero => exact Consumes.pure 0
  | succ width ih =>
      have h : Consumes (unsigned (width + 1)) (1 + width) := by
        refine consumes_u8.bind (fun byte => ?_) fun byte => ?_
        · exact ih.map fun high => byte.toNat + 256 * high
        · exact (sticky_unsigned width).map fun high => byte.toNat + 256 * high
      intro c a c' hrun hnone
      rw [h c a c' hrun hnone, Nat.add_comm 1 width]

theorem consumes_readSection : Consumes readSection 28 :=
  ((((consumes_unsigned 4).map _).map _ |>.seq ((consumes_unsigned 8).map _) sticky_u64).seq
    ((consumes_unsigned 8).map _) sticky_u64).seq ((consumes_unsigned 8).map _) sticky_u64

/-- What a table that was read without a failure has used. -/
theorem readTable_length {n : Nat} {table : List SnapshotSection} {c c' : Cursor Text}
    (h : readTable n c = .ok (table, c')) : c.rest.length = c'.rest.length + n * 28 := by
  obtain ⟨found, c₁, hfound, hrest⟩ := Decoder.bind_eq_ok.mp h
  obtain ⟨u, c₂, hcheck, hpure⟩ := Decoder.bind_eq_ok.mp hrest
  obtain ⟨rfl, hnone⟩ := checkOk_eq_ok hcheck
  cases hpure
  have hbody : ∀ elements : List SnapshotSection, Consumes (do
      let element ← readSection
      pure (elements ++ [element])) 28 :=
    fun elements => consumes_readSection.map fun element => elements ++ [element]
  exact Consumes.loop hbody n [] c _ _ hfound hnone

@[simp] theorem length_writeSection (s : SnapshotSection) : (writeSection s).length = 28 := by
  simp [writeSection, ByteWriter.u32, ByteWriter.u64]

theorem length_tableBytes (table : List SnapshotSection) :
    (table.flatMap writeSection).length = table.length * 28 := by
  induction table with
  | nil => rfl
  | cons s rest ih =>
      rw [List.flatMap_cons, List.length_append, length_writeSection, ih, List.length_cons]
      omega

namespace RawSnapshot

variable {raw : RawSnapshot} {limits : Limits} {policy : ClassificationPolicy}
  {content : SnapshotContent}

theorem length_head (hmagic : raw.magic.length = 8) : raw.head.length = kSnapshotHeaderBytes := by
  simp [head, numbers, ByteWriter.u32, ByteWriter.u64, ByteWriter.i64, hmagic,
    kSnapshotHeaderBytes]

theorem HeaderAccepted.length_magic (h : raw.HeaderAccepted limits policy) :
    raw.magic.length = 8 := by
  rw [h.magic]
  rfl

/-- A snapshot that is decoded passed its header checks, its table was read, and what is left is
the payload. -/
theorem decodeSnapshot_cases (hmagic : raw.magic.length = 8)
    (h : decodeSnapshot raw.bytes limits policy = .ok content) :
    raw.HeaderAccepted limits policy ∧ ∃ table rest,
      readTable raw.sectionCount.toNat ⟨raw.table.flatMap writeSection ++ raw.payload, none⟩
        = .ok (table, rest) ∧
      rest.rest.length = raw.payloadBytes.toNat ∧ crc64 rest.rest = raw.payloadCrc ∧
      ∃ sections, collectSections rest.rest table = .ok sections ∧
        decodeContent raw.header sections limits policy = .ok content := by
  obtain ⟨-, h⟩ := seq_eq_ok.mp h
  obtain ⟨⟨⟨header, table⟩, rest⟩, hread, h⟩ := bind_eq_ok.mp h
  obtain ⟨hlength, h⟩ := seq_eq_ok.mp h
  obtain ⟨hcrc, h⟩ := seq_eq_ok.mp h
  obtain ⟨sections, hsections, hcontent⟩ := bind_eq_ok.mp h
  rw [failIf_eq_ok] at hlength hcrc
  obtain ⟨header', c, hheader, htail⟩ := Decoder.bind_eq_ok.mp hread
  obtain ⟨table', c', htable, hpure⟩ := Decoder.bind_eq_ok.mp htail
  cases hpure
  have hreads := reads_readHeader limits policy hmagic
  -- The failure a rejected header notes would have stopped the table.
  have haccepted : raw.HeaderAccepted limits policy := by
    by_contra hnot
    have hfailure := hreads.rejects hnot _ header c hheader
    have hsticky := sticky_readTable header.sectionCount c hfailure table rest htable
    obtain ⟨found, c₁, -, hrest⟩ := Decoder.bind_eq_ok.mp htable
    obtain ⟨u, c₂, hcheck, hpure⟩ := Decoder.bind_eq_ok.mp hrest
    obtain ⟨rfl, hnone⟩ := checkOk_eq_ok hcheck
    cases hpure
    exact hsticky hnone
  have hheader' := hreads.accepts haccepted (raw.table.flatMap writeSection ++ raw.payload)
  rw [bytes] at hheader
  rw [hheader] at hheader'
  cases hheader'
  refine ⟨haccepted, table, rest, htable, ?_, ?_, sections, hsections, hcontent⟩
  · simpa [header] using hlength
  · simpa [header] using hcrc

/-- The bytes of a raw snapshot are accepted exactly when its fields are, provided that the table
has as many entries as the header says. -/
theorem decodeSnapshot_raw (hmagic : raw.magic.length = 8)
    (hcount : raw.table.length = raw.sectionCount.toNat) :
    decodeSnapshot raw.bytes limits policy = .ok content ↔
      raw.Accepted limits policy content := by
  have htable := (reads_readTable raw.table).accepts trivial raw.payload
  rw [hcount] at htable
  constructor
  · intro h
    obtain ⟨haccepted, table, rest, hread, hlength, hcrc, hsections⟩ := decodeSnapshot_cases hmagic h
    rw [htable] at hread
    cases hread
    exact ⟨haccepted, hlength, hcrc, hsections⟩
  · rintro ⟨haccepted, hlength, hcrc, sections, hsections, hcontent⟩
    have hheader := (reads_readHeader limits policy hmagic).accepts haccepted
      (raw.table.flatMap writeSection ++ raw.payload)
    have hlong : ¬ raw.bytes.length < kSnapshotHeaderBytes := by
      rw [bytes, List.length_append, length_head hmagic]
      omega
    refine seq_eq_ok.mpr ⟨failIf_eq_ok.mpr hlong, ?_⟩
    refine bind_eq_ok.mpr ⟨((raw.header, raw.table), ⟨raw.payload, none⟩), ?_, ?_⟩
    · refine Decoder.bind_eq_ok.mpr ⟨raw.header, _, hheader, ?_⟩
      exact Decoder.bind_eq_ok.mpr ⟨raw.table, _, htable, rfl⟩
    · refine seq_eq_ok.mpr ⟨failIf_eq_ok.mpr (not_not.mpr hlength), ?_⟩
      refine seq_eq_ok.mpr ⟨failIf_eq_ok.mpr (not_not.mpr hcrc), ?_⟩
      exact bind_eq_ok.mpr ⟨sections, hsections, hcontent⟩

/-- With the payload length in place, only the true number of table entries is accepted. -/
theorem sectionCount_of_decode (h : decodeSnapshot raw.bytes limits policy = .ok content)
    (hmagic : raw.magic.length = 8) (hlength : raw.payload.length = raw.payloadBytes.toNat) :
    raw.table.length = raw.sectionCount.toNat := by
  obtain ⟨-, table, rest, hread, hrest, -⟩ := decodeSnapshot_cases hmagic h
  have hused := readTable_length hread
  simp only [List.length_append, length_tableBytes] at hused
  omega

end RawSnapshot

/-! ### The sections of the payload -/

/-- The extent of the entry lies in the payload and the bytes there have its checksum. -/
def SectionFits (payload : Text) (s : SnapshotSection) : Prop :=
  (s.offset.toNat + s.length.toNat < 2 ^ 64 ∧ s.offset.toNat + s.length.toNat ≤ payload.length) ∧
    crc64 (sliceOf payload s) = s.crc64

/-- The sections of a table that is collected. -/
def sectionsFrom (payload : Text) (sections : OrdMap UInt32 Text) (table : List SnapshotSection) :
    OrdMap UInt32 Text :=
  table.foldl (fun sections s => sections.insert s.id (sliceOf payload s)) sections

theorem collectSection_eq_ok {payload : Text} {sections sections' : OrdMap UInt32 Text}
    {s : SnapshotSection} : collectSection payload sections s = .ok sections' ↔
      SectionFits payload s ∧ sections.find? s.id = none ∧
        sections' = sections.insert s.id (sliceOf payload s) := by
  unfold collectSection
  rw [seq_eq_ok, seq_eq_ok, seq_eq_ok, failIf_eq_ok, failIf_eq_ok, failIf_eq_ok, OrdMap.contains]
  constructor
  · rintro ⟨hextent, hcrc, hnew, hsections⟩
    refine ⟨⟨⟨by omega, by omega⟩, by simpa using hcrc⟩, by simpa using hnew, ?_⟩
    cases hsections
    rfl
  · rintro ⟨⟨⟨hsum, hextent⟩, hcrc⟩, hnew, rfl⟩
    exact ⟨by omega, by simpa using hcrc, by simpa using hnew, rfl⟩

theorem collectFrom_eq_ok {payload : Text} {table : List SnapshotSection}
    {sections sections' : OrdMap UInt32 Text} :
    table.foldlM (collectSection payload) sections = .ok sections' ↔
      (∀ s ∈ table, SectionFits payload s) ∧ (∀ s ∈ table, sections.find? s.id = none) ∧
        (table.map (·.id)).Nodup ∧ sections' = sectionsFrom payload sections table := by
  induction table generalizing sections with
  | nil =>
      simp only [List.foldlM_nil, sectionsFrom, List.foldl_nil]
      constructor
      · intro h
        cases h
        simp
      · rintro ⟨-, -, -, rfl⟩
        rfl
  | cons s rest ih =>
      rw [List.foldlM_cons, bind_eq_ok]
      simp only [collectSection_eq_ok, ih]
      constructor
      · rintro ⟨_, ⟨hfits, hnew, rfl⟩, hrest, hfresh, hnodup, hsections⟩
        -- An identity of the rest that was new after the insertion is not the inserted one.
        have hother : ∀ r ∈ rest, r.id ≠ s.id ∧ sections.find? r.id = none := by
          intro r hr
          have hfind := hfresh r hr
          rw [OrdMap.find?_insert] at hfind
          split at hfind
          · cases hfind
          · rename_i hne
            exact ⟨hne, hfind⟩
        refine ⟨List.forall_mem_cons.mpr ⟨hfits, hrest⟩, ?_, ?_, hsections⟩
        · exact List.forall_mem_cons.mpr ⟨hnew, fun r hr => (hother r hr).2⟩
        · rw [List.map_cons, List.nodup_cons]
          refine ⟨fun hmem => ?_, hnodup⟩
          obtain ⟨r, hr, heq⟩ := List.mem_map.mp hmem
          exact (hother r hr).1 heq
      · rintro ⟨hfits, hfresh, hnodup, hsections⟩
        rw [List.map_cons, List.nodup_cons] at hnodup
        obtain ⟨hfits, hrest⟩ := List.forall_mem_cons.mp hfits
        obtain ⟨hnew, hfresh⟩ := List.forall_mem_cons.mp hfresh
        refine ⟨_, ⟨hfits, hnew, rfl⟩, hrest, fun r hr => ?_, hnodup.2, hsections⟩
        have hne : r.id ≠ s.id := fun heq => hnodup.1 (List.mem_map.mpr ⟨r, hr, heq⟩)
        rw [OrdMap.find?_insert, if_neg hne]
        exact hfresh r hr

/-- What the collected sections hold under an identity. -/
theorem find?_sectionsFrom {payload : Text} {table : List SnapshotSection}
    (sections : OrdMap UInt32 Text) (hnodup : (table.map (·.id)).Nodup) (id : UInt32) :
    (sectionsFrom payload sections table).find? id
      = ((table.find? (·.id == id)).map (sliceOf payload)).or (sections.find? id) := by
  induction table generalizing sections with
  | nil => simp [sectionsFrom]
  | cons s rest ih =>
      rw [List.map_cons, List.nodup_cons] at hnodup
      have hrest := ih (sections.insert s.id (sliceOf payload s)) hnodup.2
      have hunfold : sectionsFrom payload sections (s :: rest)
          = sectionsFrom payload (sections.insert s.id (sliceOf payload s)) rest := rfl
      rw [hunfold, hrest, List.find?_cons, OrdMap.find?_insert]
      by_cases hid : s.id = id
      · have hnone : rest.find? (·.id == id) = none := by
          rw [List.find?_eq_none]
          intro r hr heq
          refine hnodup.1 (List.mem_map.mpr ⟨r, hr, ?_⟩)
          rw [hid]
          exact eq_of_beq heq
        rw [hnone, if_pos hid.symm, show (s.id == id) = true by simpa using hid]
        rfl
      · rw [if_neg (Ne.symm hid), show (s.id == id) = false by simpa using hid]

/-- The bytes of a section, by its identity. -/
def sectionOf (payload : Text) (table : List SnapshotSection) (id : UInt32) : Option Text :=
  (table.find? (·.id == id)).map (sliceOf payload)

/-- The sections are collected exactly when every entry fits and no identity occurs twice. -/
theorem collectSections_ok_iff {payload : Text} {table : List SnapshotSection}
    {sections : OrdMap UInt32 Text} : collectSections payload table = .ok sections ↔
      (∀ s ∈ table, SectionFits payload s) ∧ (table.map (·.id)).Nodup ∧
        ∀ id, sections.find? id = sectionOf payload table id := by
  unfold collectSections
  rw [collectFrom_eq_ok]
  constructor
  · rintro ⟨hfits, -, hnodup, rfl⟩
    refine ⟨hfits, hnodup, fun id => ?_⟩
    rw [find?_sectionsFrom _ hnodup]
    simp [sectionOf]
  · rintro ⟨hfits, hnodup, hfind⟩
    refine ⟨hfits, by simp, hnodup, OrdMap.ext fun id => ?_⟩
    rw [hfind, find?_sectionsFrom _ hnodup]
    simp [sectionOf]

/-! ### What the encoder writes -/

/-- The raw snapshot of a content. -/
def rawOf (content : SnapshotContent) (limits : Limits) : RawSnapshot :=
  let payload := payloadOf (pendingSections content limits)
  { magic := kSnapshotMagic, major := kSnapshotFormatMajor, minor := kSnapshotFormatMinor
    limitsDigest := limits.digest, policyDigest := content.metadata.policyDigest
    topologyDigest := content.topology.digest, createdAt := content.metadata.createdAt.nanos
    sectionCount := 4, payloadBytes := UInt64.ofNat payload.length, payloadCrc := crc64 payload
    table := layoutSections 0 (pendingSections content limits), payload := payload }

theorem encodeSnapshot_raw {content : SnapshotContent} {limits : Limits} {bytes : Text} :
    encodeSnapshot content limits = .ok bytes ↔
      limits.validate = .ok () ∧ (rawOf content limits).payload.length < 2 ^ 64 ∧
        (rawOf content limits).payload.length ≤ limits.maxSnapshotBytes ∧
        bytes = (rawOf content limits).bytes := by
  have hbytes : writeHeader (stagedMetadata content limits)
      (pendingSections content limits).length (payloadOf (pendingSections content limits))
      ++ (layoutSections 0 (pendingSections content limits)).flatMap writeSection
      ++ payloadOf (pendingSections content limits) = (rawOf content limits).bytes := by
    simp only [writeHeader, RawSnapshot.bytes, RawSnapshot.head, RawSnapshot.numbers,
      List.append_assoc]
    rfl
  unfold encodeSnapshot
  rw [seq_eq_ok, seq_eq_ok, seq_eq_ok, failIf_eq_ok, failIf_eq_ok, hbytes]
  show _ ∧ _ ∧ _ ∧ Except.ok _ = Except.ok bytes ↔ _
  simp only [rawOf, Except.ok.injEq, not_le, ge_iff_le, gt_iff_lt, eq_comm, not_lt]

/-- Sections that are laid out one after the other are found where the table says. -/
theorem layoutSections_slices (sections : List (UInt32 × Text)) (before : Text)
    (h : (before ++ payloadOf sections).length < 2 ^ 64) :
    (∀ s ∈ layoutSections before.length sections,
      SectionFits (before ++ payloadOf sections) s) ∧
    (layoutSections before.length sections).map
      (fun s => (s.id, sliceOf (before ++ payloadOf sections) s)) = sections := by
  -- The induction is on the sections to come, and `before` are the bytes already laid out.
  induction sections generalizing before with
  | nil => simp [layoutSections]
  | cons s rest ih =>
      obtain ⟨id, bytes⟩ := s
      have hpayload : before ++ payloadOf ((id, bytes) :: rest)
          = (before ++ bytes) ++ payloadOf rest := by
        simp [payloadOf]
      rw [hpayload] at h ⊢
      obtain ⟨hfits, hslices⟩ := ih (before ++ bytes) h
      rw [List.length_append] at hfits hslices
      simp only [List.length_append] at h
      have hoffset : (UInt64.ofNat before.length).toNat = before.length := by
        rw [UInt64.toNat_ofNat']
        exact Nat.mod_eq_of_lt (by omega)
      have hlength : (UInt64.ofNat bytes.length).toNat = bytes.length := by
        rw [UInt64.toNat_ofNat']
        exact Nat.mod_eq_of_lt (by omega)
      have hslice : sliceOf (before ++ bytes ++ payloadOf rest)
          { id := id, offset := UInt64.ofNat before.length, length := UInt64.ofNat bytes.length
            crc64 := crc64 bytes } = bytes := by
        simp only [sliceOf, hoffset, hlength, List.append_assoc, List.drop_left, List.take_left]
      rw [layoutSections]
      constructor
      · refine List.forall_mem_cons.mpr ⟨⟨⟨?_, ?_⟩, ?_⟩, hfits⟩
        · simp only [hoffset, hlength]
          omega
        · simp only [hoffset, hlength, List.length_append]
          omega
        · rw [hslice]
      · rw [List.map_cons, hslice, hslices]

/-- The sections of the encoder's payload. -/
theorem sectionOf_rawOf {content : SnapshotContent} {limits : Limits}
    (h : (rawOf content limits).payload.length < 2 ^ 64) (id : UInt32) :
    sectionOf (rawOf content limits).payload (rawOf content limits).table id
      = ((pendingSections content limits).find? (·.1 == id)).map Prod.snd := by
  obtain ⟨-, hslices⟩ := layoutSections_slices (pendingSections content limits) [] h
  rw [List.nil_append] at hslices
  rw [← hslices, List.find?_map, Option.map_map]
  rfl

/-- Every entry of the encoder's table fits its payload. -/
theorem sectionFits_rawOf {content : SnapshotContent} {limits : Limits}
    (h : (rawOf content limits).payload.length < 2 ^ 64) :
    ∀ s ∈ (rawOf content limits).table, SectionFits (rawOf content limits).payload s :=
  (layoutSections_slices (pendingSections content limits) [] h).1

theorem length_table_rawOf {content : SnapshotContent} {limits : Limits} :
    (rawOf content limits).table.length = 4 := rfl

theorem ids_rawOf (content : SnapshotContent) (limits : Limits) :
    (rawOf content limits).table.map (·.id) = [SnapshotSectionId.metadata,
      SnapshotSectionId.topology, SnapshotSectionId.episodes, SnapshotSectionId.evidence] := rfl

/-! ### What the decoder reads -/

/-- The sections, as `decode_snapshot` reads them. -/
structure ContentRead (digest : UInt64) (limits : Limits) (policy : ClassificationPolicy)
    (section? : UInt32 → Option Text) (content : SnapshotContent) : Prop where
  metadata : ∃ bytes m, section? SnapshotSectionId.metadata = some bytes ∧
    decodeMetadataSection bytes limits policy = .ok m ∧
    content.metadata = { m with generation := content.topology.generation }
  topology : ∃ bytes, section? SnapshotSectionId.topology = some bytes ∧
    decodeTopologySection bytes limits = .ok content.topology
  digest : content.topology.digest = digest
  episodes : (section? SnapshotSectionId.episodes).elim (.ok []) (decodeEpisodeSection · limits)
    = .ok content.episodes
  evidence : (section? SnapshotSectionId.evidence).elim (.ok (false, []))
    (decodeEvidenceSection · limits) = .ok (content.evidenceTruncated, content.evidence)

theorem requireSection_eq_ok {sections : OrdMap UInt32 Text} {id : UInt32} {message : String}
    {bytes : Text} :
    requireSection sections id message = .ok bytes ↔ sections.find? id = some bytes := by
  unfold requireSection
  cases sections.find? id with
  | none => simp
  | some found => simp

theorem optionalSection_eq {α : Type} (sections : OrdMap UInt32 Text) (id : UInt32) (absent : α)
    (decode : Text → Result α) :
    optionalSection sections id absent decode = (sections.find? id).elim (.ok absent) decode := by
  unfold optionalSection
  cases sections.find? id with
  | none => rfl
  | some bytes => rfl

theorem decodeContent_eq_ok_iff {header : SnapshotHeader} {sections : OrdMap UInt32 Text}
    {limits : Limits} {policy : ClassificationPolicy} {content : SnapshotContent} :
    decodeContent header sections limits policy = .ok content ↔
      ContentRead header.topologyDigest limits policy sections.find? content := by
  unfold decodeContent
  rw [optionalSection_eq, optionalSection_eq]
  constructor
  · -- One step of the source after the other, in its order.
    intro h
    obtain ⟨mbytes, hmbytes, h⟩ := bind_eq_ok.mp h
    obtain ⟨m, hmetadata, h⟩ := bind_eq_ok.mp h
    obtain ⟨tbytes, htbytes, h⟩ := bind_eq_ok.mp h
    obtain ⟨t, htopology, h⟩ := bind_eq_ok.mp h
    obtain ⟨hdigest, h⟩ := seq_eq_ok.mp h
    obtain ⟨episodes, hepisodes, h⟩ := bind_eq_ok.mp h
    obtain ⟨⟨truncated, evidence⟩, hevidence, h⟩ := bind_eq_ok.mp h
    cases h
    exact ⟨⟨mbytes, m, requireSection_eq_ok.mp hmbytes, hmetadata, rfl⟩,
      ⟨tbytes, requireSection_eq_ok.mp htbytes, htopology⟩,
      not_not.mp (failIf_eq_ok.mp hdigest), hepisodes, hevidence⟩
  · rintro ⟨⟨mbytes, m, hmbytes, hm, hmetadata⟩, ⟨tbytes, htbytes, ht⟩, hdigest, hepisodes,
      hevidence⟩
    refine bind_eq_ok.mpr ⟨mbytes, requireSection_eq_ok.mpr hmbytes, ?_⟩
    refine bind_eq_ok.mpr ⟨m, hm, ?_⟩
    refine bind_eq_ok.mpr ⟨tbytes, requireSection_eq_ok.mpr htbytes, ?_⟩
    refine bind_eq_ok.mpr ⟨content.topology, ht, ?_⟩
    refine seq_eq_ok.mpr ⟨failIf_eq_ok.mpr (not_not.mpr hdigest), ?_⟩
    refine bind_eq_ok.mpr ⟨content.episodes, hepisodes, ?_⟩
    refine bind_eq_ok.mpr ⟨(content.evidenceTruncated, content.evidence), hevidence, ?_⟩
    rw [← hmetadata]
    rfl

/-- Everything `decode_snapshot` looks at, in terms of the fields of the file. -/
structure RawSnapshot.Decodes (raw : RawSnapshot) (limits : Limits) (policy : ClassificationPolicy)
    (content : SnapshotContent) : Prop where
  header : raw.HeaderAccepted limits policy
  length : raw.payload.length = raw.payloadBytes.toNat
  crc : crc64 raw.payload = raw.payloadCrc
  fits : ∀ s ∈ raw.table, SectionFits raw.payload s
  nodup : (raw.table.map (·.id)).Nodup
  content : ContentRead raw.topologyDigest limits policy (sectionOf raw.payload raw.table) content

theorem RawSnapshot.decodeSnapshot_iff {raw : RawSnapshot} {limits : Limits}
    {policy : ClassificationPolicy} {content : SnapshotContent} (hmagic : raw.magic.length = 8)
    (hcount : raw.table.length = raw.sectionCount.toNat) :
    decodeSnapshot raw.bytes limits policy = .ok content ↔ raw.Decodes limits policy content := by
  rw [decodeSnapshot_raw hmagic hcount]
  constructor
  · rintro ⟨hheader, hlength, hcrc, sections, hsections, hcontent⟩
    obtain ⟨hfits, hnodup, hfind⟩ := collectSections_ok_iff.mp hsections
    have hread := decodeContent_eq_ok_iff.mp hcontent
    rw [funext hfind] at hread
    exact ⟨hheader, hlength, hcrc, hfits, hnodup, hread⟩
  · rintro ⟨hheader, hlength, hcrc, hfits, hnodup, hread⟩
    have hfind : ∀ id, (sectionsFrom raw.payload OrdMap.empty raw.table).find? id
        = sectionOf raw.payload raw.table id := by
      intro id
      rw [find?_sectionsFrom _ hnodup]
      simp [sectionOf]
    refine ⟨hheader, hlength, hcrc, _, collectSections_ok_iff.mpr ⟨hfits, hnodup, hfind⟩, ?_⟩
    rw [decodeContent_eq_ok_iff, funext hfind]
    exact hread

theorem RawSnapshot.decodes_of_decode {raw : RawSnapshot} {limits : Limits}
    {policy : ClassificationPolicy} {content : SnapshotContent}
    (hdecode : decodeSnapshot raw.bytes limits policy = .ok content)
    (hmagic : raw.magic.length = 8) (hcount : raw.table.length = raw.sectionCount.toNat) :
    raw.Decodes limits policy content := (decodeSnapshot_iff hmagic hcount).mp hdecode

end CongestionObservatory
