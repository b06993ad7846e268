import CongestionObservatory.Proofs.Core.Iso8601
import CongestionObservatory.Proofs.Core.Json
import CongestionObservatory.Proofs.Persistence.Decoded
import CongestionObservatory.Transport.Message
import Mathlib.Data.UInt

/-!
# `CongestionObservatory.Proofs.Transport.Message`: observations read back from the wire

A client writes an observation with `encode_ingest_json` and the server reads it with
`decode_ingest_json`. The members of the document are read back one by one: `shown` is what the
parser makes of them, and `readRecord_shown` is what `readRecord` makes of that.

Most fields of a valid record always come back. `decode_encode_iff` says exactly when the whole
record does: the counters must be below `2 ^ 63`, the subject must name an object, the timestamps
must not lie below the first whole second that fits in 64 bits, and the scalar must not be the
negative zero.
-/

set_option autoImplicit false

namespace CongestionObservatory

theorem ok_bind {ε α β : Type} (a : α) (f : α → Except ε β) : (Except.ok a >>= f) = f a := rfl

/-! ### Names of enumerators -/

theorem evidenceKindFromString_toText {kind : EvidenceKind} (h : declared kind = true) :
    evidenceKindFromString kind.toText = .ok kind := by
  refine fromName_nameOf (by decide) ?_
  cases kind with
  | undeclared raw hraw => cases h
  | _ => decide

theorem authorityFromString_toText {level : AuthorityLevel} (h : declared level = true) :
    authorityFromString level.toText = .ok level := by
  rw [AuthorityLevel.toText_eq]
  refine fromName_nameOf (by decide) ?_
  cases level with
  | undeclared raw hraw => cases h
  | _ => decide

theorem clockDomainFromString_toText {domain : ClockDomain} (h : declared domain = true) :
    clockDomainFromString domain.toText = .ok domain := by
  refine fromName_nameOf (by decide) ?_
  cases domain with
  | undeclared raw hraw => cases h
  | _ => decide

theorem observationUnitFromString_toText {unit : ObservationUnit} (h : declared unit = true) :
    observationUnitFromString unit.toText = .ok unit := by
  refine fromName_nameOf (by decide) ?_
  cases unit with
  | undeclared raw hraw => cases h
  | _ => decide

theorem valueSemanticsFromString_toText {semantics : ValueSemantics} (h : declared semantics = true) :
    valueSemanticsFromString semantics.toText = .ok semantics := by
  refine fromName_nameOf (by decide) ?_
  cases semantics with
  | undeclared raw hraw => cases h
  | _ => decide

theorem completenessFromString_toText {completeness : Completeness} (h : declared completeness = true) :
    completenessFromString completeness.toText = .ok completeness := by
  refine fromName_nameOf (by decide) ?_
  cases completeness with
  | undeclared raw hraw => cases h
  | _ => decide

theorem supportFromString_toText {support : Support} (h : declared support = true) :
    supportFromString support.toText = .ok support := by
  refine fromName_nameOf (by decide) ?_
  cases support with
  | undeclared raw hraw => cases h
  | _ => decide

/-! ### Counters -/

/-- A counter is read back when it fits in a signed number. -/
theorem jsonU64_ofU64 {value v : UInt64} {what : String} :
    jsonU64 (some (jsonOfU64 value)) what = .ok v ↔ value.toNat < 2 ^ 63 ∧ v = value := by
  have hnegative : value.toInt64 < 0 ↔ 2 ^ 63 ≤ value.toNat := by
    rw [Int64.lt_iff_toInt_lt]
    show value.toBitVec.toInt < 0 ↔ 2 ^ 63 ≤ value.toBitVec.toNat
    rw [BitVec.toInt_neg_iff]
    omega
  show (failIf (value.toInt64 < 0) _ >>= fun _ => Except.ok value.toInt64.toUInt64) = _ ↔ _
  rw [seq_eq_ok, failIf_eq_ok, hnegative, Nat.not_le, UInt64.toUInt64_toInt64]
  exact and_congr_right fun _ => ⟨fun h => (Except.ok.inj h).symm, fun h => congrArg _ h.symm⟩

/-- Each counter of an address fits in a signed number. -/
structure FenceVector.Signed (fence : FenceVector) : Prop where
  boot : fence.boot.toNat < 2 ^ 63
  incarnation : fence.incarnation.toNat < 2 ^ 63
  epoch : fence.gen.epoch.toNat < 2 ^ 63
  generation : fence.gen.generation.toNat < 2 ^ 63
  revision : fence.gen.revision.toNat < 2 ^ 63
  sequence : fence.sequence.toNat < 2 ^ 63

/-- What the members of the address are read as. -/
structure ShowsFence (root : JsonValue) (fence : FenceVector) : Prop where
  boot : root.member (ascii "boot") = some (jsonOfU64 fence.boot)
  incarnation : root.member (ascii "incarnation") = some (jsonOfU64 fence.incarnation)
  epoch : root.member (ascii "epoch") = some (jsonOfU64 fence.gen.epoch)
  generation : root.member (ascii "generation") = some (jsonOfU64 fence.gen.generation)
  revision : root.member (ascii "revision") = some (jsonOfU64 fence.gen.revision)
  sequence : root.member (ascii "sequence") = some (jsonOfU64 fence.sequence)

/-- An address is read back when all its counters are. -/
theorem ShowsFence.readFence_iff {root : JsonValue} {fence found : FenceVector}
    (h : ShowsFence root fence) :
    IngestJson.readFence root fence.source = .ok found ↔ fence.Signed ∧ found = fence := by
  rw [IngestJson.readFence]
  simp only [bind_eq_ok, h.boot, h.incarnation, h.epoch, h.generation, h.revision, h.sequence,
    jsonU64_ofU64, pure_eq_ok]
  constructor
  · rintro ⟨_, ⟨hboot, rfl⟩, _, ⟨hincarnation, rfl⟩, _, ⟨hepoch, rfl⟩, _, ⟨hgeneration, rfl⟩, _,
      ⟨hrevision, rfl⟩, _, ⟨hsequence, rfl⟩, rfl⟩
    exact ⟨⟨hboot, hincarnation, hepoch, hgeneration, hrevision, hsequence⟩, rfl⟩
  · rintro ⟨hsigned, rfl⟩
    exact ⟨_, ⟨hsigned.boot, rfl⟩, _, ⟨hsigned.incarnation, rfl⟩, _, ⟨hsigned.epoch, rfl⟩, _,
      ⟨hsigned.generation, rfl⟩, _, ⟨hsigned.revision, rfl⟩, _, ⟨hsigned.sequence, rfl⟩, rfl⟩

/-! ### Lists -/

namespace IngestJson

variable {limits : Limits}

/-- Valid labels are read back, when there is room for them. -/
theorem readLabels_str {labels : List Name} (done : List Name)
    (hvalid : ∀ label ∈ labels, label.valid = true)
    (hroom : done.length + labels.length ≤ limits.maxLabels) :
    readLabels limits done (labels.map fun label => .string label.str) = .ok (done ++ labels) := by
  induction labels generalizing done with
  | nil => rw [List.append_nil]; rfl
  | cons label labels ih =>
      rw [List.length_cons] at hroom
      rw [List.map_cons, readLabels]
      refine bind_eq_ok.mpr ⟨label, Name.parse_str (hvalid label List.mem_cons_self), ?_⟩
      refine seq_eq_ok.mpr ⟨failIf_eq_ok.mpr (by omega), ?_⟩
      rw [ih (done ++ [label]) (fun other hmem => hvalid other (List.mem_cons_of_mem _ hmem))
        (by rw [List.length_append, List.length_singleton]; omega), List.append_assoc]
      rfl

/-- Entries within the bounds are read back, when there is room for them. -/
theorem readMetadata_string {metadata : List (Text × Text)} (done : List (Text × Text))
    (hbounds : ∀ entry ∈ metadata, entry.1.length ≤ limits.maxMetadataKeyBytes ∧
      entry.2.length ≤ limits.maxMetadataValueBytes)
    (hroom : done.length + metadata.length ≤ limits.maxMetadataEntries) :
    readMetadata limits done (metadata.map fun entry => (entry.1, .string entry.2))
      = .ok (done ++ metadata) := by
  induction metadata generalizing done with
  | nil => rw [List.append_nil]; rfl
  | cons entry metadata ih =>
      obtain ⟨hkey, hvalue⟩ := hbounds entry List.mem_cons_self
      rw [List.length_cons] at hroom
      rw [List.map_cons, readMetadata]
      refine seq_eq_ok.mpr ⟨failIf_eq_ok.mpr (by omega), seq_eq_ok.mpr ⟨failIf_eq_ok.mpr ?_, ?_⟩⟩
      · rintro (hlong | hlong)
        · exact absurd hkey (Nat.not_le.mpr hlong)
        · exact absurd hvalue (Nat.not_le.mpr hlong)
      · show readMetadata limits (done ++ [(entry.1, entry.2)]) _ = _
        rw [ih (done ++ [(entry.1, entry.2)])
          (fun other hmem => hbounds other (List.mem_cons_of_mem _ hmem))
          (by rw [List.length_append, List.length_singleton]; omega), List.append_assoc]
        rfl

end IngestJson

/-! ### The document -/

namespace EvidenceRecord

variable (record : EvidenceRecord)

/-- The document of an observation. -/
def document : JsonValue :=
  .ofObject (JsonObject.ofMembers
    ((ingestMembers record).map fun member => (ascii member.1, member.2)))

/-- What the parser makes of the members of the document, when it makes `w` of the scalar. -/
def shown (w : JsonValue) : List (Text × JsonValue) :=
  (ingestMembers record).map fun member =>
    (ascii member.1, if member.1 = "value" then w else member.2)

/-- The names of the members do not depend on the record, and they are different. -/
theorem nodup_ingestMembers : ((ingestMembers record).map fun member => ascii member.1).Nodup := by
  have hnames : (ingestMembers record).map Prod.fst = (ingestMembers {}).map Prod.fst := by
    simp only [ingestMembers, List.map_cons, List.map_nil]
  have hdistinct : (((ingestMembers {}).map Prod.fst).map ascii).Nodup := by decide +kernel
  rwa [← hnames, List.map_map] at hdistinct

theorem nodup_keys_shown (w : JsonValue) : (JsonObject.keys (record.shown w)).Nodup := by
  rw [shown, JsonObject.keys, List.map_map]
  exact nodup_ingestMembers record

variable {record}

/-- The metadata is an object with its entries, as their keys are different. -/
theorem ofMembers_metadata (hmetadata : (record.metadata.map Prod.fst).Nodup) :
    JsonValue.ofObject (JsonObject.ofMembers
      (record.metadata.map fun entry => (entry.1, .string entry.2)))
      = .object (record.metadata.map fun entry => (entry.1, .string entry.2)) := by
  refine congrArg JsonValue.object (JsonObject.ofMembers_spec ?_).1
  rw [JsonObject.keys, List.map_map]
  exact hmetadata

/-- Every member but the scalar is plain, so it is read as it was written. -/
theorem plain_ingestMembers (hmetadata : (record.metadata.map Prod.fst).Nodup) :
    ∀ member ∈ ingestMembers record, member = ("value", .double record.value.scalar) ∨
      member.1 ≠ "value" ∧ member.2.Plain := by
  have hlabels : (JsonValue.array (record.labels.map fun label => .string label.str)).Plain := by
    rw [JsonValue.Plain, JsonValue.plainItems_iff, List.forall_mem_map]
    exact fun _ _ => trivial
  have hentries : (JsonValue.object
      (record.metadata.map fun entry => (entry.1, .string entry.2))).Plain := by
    rw [JsonValue.Plain, JsonValue.plainMembers_iff, JsonObject.keys, List.map_map,
      List.forall_mem_map]
    exact ⟨hmetadata, fun _ _ => trivial⟩
  simp only [ingestMembers, ofMembers_metadata hmetadata, List.forall_mem_cons]
  and_intros
  all_goals first
    | exact Or.inl trivial
    | exact Or.inr ⟨by decide, trivial⟩
    | exact Or.inr ⟨by decide, hlabels⟩
    | exact Or.inr ⟨by decide, hentries⟩
    | exact fun member hmem => absurd hmem List.not_mem_nil

section

variable {indent : Int} {limits : Limits} {total : Nat} {w : JsonValue}

/-- The document is read as the object of the members that are shown. -/
theorem reads_document (hmetadata : (record.metadata.map Prod.fst).Nodup)
    (hscalar : Json.Reads indent limits total (.double record.value.scalar) w) :
    Json.Reads indent limits total record.document (.object (record.shown w)) := by
  have hkeys : (JsonObject.keys
      ((ingestMembers record).map fun member => (ascii member.1, member.2))).Nodup := by
    rw [JsonObject.keys, List.map_map]
    exact nodup_ingestMembers record
  have hdocument : record.document
      = .object ((ingestMembers record).map fun member => (ascii member.1, member.2)) :=
    congrArg JsonValue.object (JsonObject.ofMembers_spec hkeys).1
  rw [hdocument]
  refine Json.Reads.object ?_ hkeys
  rw [shown, List.forall₂_map_left_iff, List.forall₂_map_right_iff, List.forall₂_same]
  intro member hmem
  refine ⟨rfl, ?_⟩
  rcases plain_ingestMembers hmetadata member hmem with rfl | ⟨hname, hplain⟩
  · rwa [if_pos rfl]
  · rw [if_neg hname]
    exact Json.Reads.plain hplain

/-- Each member is found in what the parser made. -/
theorem member_shown : ∀ member ∈ ingestMembers record,
    (JsonValue.object (record.shown w)).member (ascii member.1)
      = some (if member.1 = "value" then w else member.2) := fun _ hmem =>
  JsonValue.member_of_mem (record.nodup_keys_shown w) (List.mem_map.mpr ⟨_, hmem, rfl⟩)

theorem showsFence_shown : ShowsFence (.object (record.shown w)) record.fence := by
  have hmember := @member_shown record w
  simp only [ingestMembers, List.forall_mem_cons, String.reduceEq, if_false] at hmember
  obtain ⟨-, -, -, -, -, -, hboot, hincarnation, hepoch, hgeneration, hrevision, hsequence, -⟩ :=
    hmember
  exact ⟨hboot, hincarnation, hepoch, hgeneration, hrevision, hsequence⟩

/-- Of a valid record, all but the subject, the fence, the timestamps and the scalar is read back
without a condition. -/
theorem readRecord_shown (hvalid : validateEvidence record limits = .ok ())
    (hdeclared : record.Declared) (hmetadata : (record.metadata.map Prod.fst).Nodup) :
    IngestJson.readRecord (.object (record.shown w)) limits = (do
      let subject ← parseSubject record.subject.str
      let fence ← IngestJson.readFence (.object (record.shown w)) record.provenance.source
      let observedAt ← Timestamp.fromIso8601 record.observedAt.toIso8601
      let receivedAt ← Timestamp.fromIso8601 record.receivedAt.toIso8601
      let scalar ← jsonNumber (some w) "value"
      pure
        { record with
          id := DigestId.default
          subject := subject
          fence := fence
          observedAt := observedAt
          receivedAt := receivedAt
          value := { record.value with scalar := scalar }
          recoveredFromSnapshot := false
          retired := false
          insertionIndex := 0 }) := by
  unfold validateEvidence at hvalid
  simp only [seq_eq_ok, failIf_eq_ok, checkAll_eq_ok, not_not] at hvalid
  obtain ⟨-, -, hsource, -, -, -, hvalidity, hlabelCount, hlabels, hmetadataCount, hentries, -⟩ :=
    hvalid
  have hmember := @member_shown record w
  simp only [ingestMembers, List.forall_mem_cons, String.reduceEq, if_false, if_true,
    ofMembers_metadata hmetadata] at hmember
  obtain ⟨hkind, hsubject, hsourceText, hauthority, htransport, hcollector, -, -, -, -, -, -,
    hobserved, hreceived, hclock, hvalue, hunit, hsemantics, hduration, hcompleteness, hsupport,
    hnote, hlabelItems, hmetadataItems, -⟩ := hmember
  have hreadLabels := IngestJson.readLabels_str [] hlabels
    (by rw [List.length_nil, Nat.zero_add]; exact Nat.not_lt.mp hlabelCount)
  have hreadMetadata := IngestJson.readMetadata_string []
    (fun entry hentry => ⟨Nat.not_lt.mp (hentries entry hentry).1,
      Nat.not_lt.mp (hentries entry hentry).2⟩)
    (by rw [List.length_nil, Nat.zero_add]; exact Nat.not_lt.mp hmetadataCount)
  have hreadValidity : IngestJson.readValidity (some (.int record.validity.nanos))
      = .ok record.validity := by
    rw [IngestJson.readValidity, if_neg]
    · rfl
    · show ¬ record.validity.nanos < 0
      simpa [Duration.isNegative] using hvalidity
  rw [IngestJson.readRecord]
  -- The texts of the document stand in the places of its members.
  simp only [hkind, hsubject, hsourceText, hauthority, htransport, hcollector, hobserved, hreceived,
    hclock, hvalue, hunit, hsemantics, hduration, hcompleteness, hsupport, hnote, hlabelItems,
    hmetadataItems, jsonString]
  -- Each reader that has to succeed gives the record's own field.
  simp only [evidenceKindFromString_toText hdeclared.kind, EntityId.parse_str hsource,
    authorityFromString_toText hdeclared.authority, clockDomainFromString_toText hdeclared.clock,
    observationUnitFromString_toText hdeclared.unit,
    valueSemanticsFromString_toText hdeclared.semantics, hreadValidity,
    completenessFromString_toText hdeclared.completeness,
    supportFromString_toText hdeclared.support, hreadLabels, hreadMetadata, List.nil_append, ok_bind]

end

/-! ### The round trip -/

/-- An observation that a client can send: it is valid and new, its scalar is a whole number of 64
bits, and its document is within the bounds of the parser. -/
structure Outgoing (record : EvidenceRecord) (limits : Limits) : Prop where
  valid : validateEvidence record limits = .ok ()
  declared : record.Declared
  recovered : record.recoveredFromSnapshot = false
  retired : record.retired = false
  id : record.id = computeEvidenceId record
  insertionIndex : record.insertionIndex = 0
  metadata : (record.metadata.map Prod.fst).Nodup
  whole : record.value.scalar.toRat.den = 1
  low : -2 ^ 63 ≤ record.value.scalar.toRat.num
  high : record.value.scalar.toRat.num < 2 ^ 63
  bytes : (encodeIngestJson record).length ≤ limits.maxDocumentBytes
  depth : record.document.depth < limits.jsonLevels
  nodes : record.document.nodes ≤ limits.maxJsonNodes

/-- The fields whose texts or numbers are not always read back: here each of them is. -/
structure Transmissible (record : EvidenceRecord) : Prop where
  subject : record.subject.nameText ≠ []
  fence : record.fence.Signed
  observedAt : -9223372036000000000 ≤ record.observedAt.nanos.toInt
  receivedAt : -9223372036000000000 ≤ record.receivedAt.nanos.toInt
  scalar : record.value.scalar.toRat = 0 → record.value.scalar.negative = false

variable {limits : Limits}

theorem Outgoing.finite (h : record.Outgoing limits) : record.value.scalar.isFinite = true := by
  have hvalid := h.valid
  unfold validateEvidence at hvalid
  simp only [seq_eq_ok, failIf_eq_ok, not_not] at hvalid
  exact hvalid.2.2.2.2.2.1

/-- The scalar is read as a number: its own one, unless it is the negative zero. -/
theorem Outgoing.scalar (h : record.Outgoing limits) : ∃ w x,
    Json.Reads 0 limits (encodeIngestJson record).length (.double record.value.scalar) w ∧
      jsonNumber (some w) "value" = .ok x ∧
      (x = record.value.scalar ↔ (record.value.scalar.toRat = 0 → record.value.scalar.negative = false)) := by
  rcases Json.Reads.double h.finite h.whole h.low h.high with hread | ⟨hne, hread⟩
  · refine ⟨_, Double.ofInt record.value.scalar.toRat.num, hread, ?_, ?_⟩
    · have hint : (Int64.ofInt record.value.scalar.toRat.num).toInt = record.value.scalar.toRat.num :=
        Int64.toInt_ofInt_of_le h.low h.high
      show Except.ok (Double.ofInt (Int64.ofInt record.value.scalar.toRat.num).toInt) = _
      rw [hint]
    · constructor
      · intro hsame hzero
        rw [← hsame, hzero]
        decide
      · intro hpositive
        refine Double.ofInt_num h.finite h.whole fun hnum => hpositive ?_
        exact Rat.num_eq_zero.mp hnum
  · refine ⟨_, _, hread, rfl, iff_of_true rfl fun hzero => absurd ?_ hne⟩
    show record.value.scalar.toRat.num = 0
    rw [hzero]
    rfl

/-- What is not sent of a new record is set again by the reader. -/
theorem Outgoing.completed (h : record.Outgoing limits) :
    { record with
      id := computeEvidenceId record
      recoveredFromSnapshot := false
      retired := false
      insertionIndex := 0 } = record := by
  obtain ⟨-, -, hrecovered, hretired, hid, hindex, -⟩ := h
  rw [← hid]
  cases record
  cases hrecovered
  cases hretired
  cases hindex
  rfl

/-- **An observation survives the wire exactly when it is transmissible.** -/
theorem decode_encode_iff (h : record.Outgoing limits) :
    decodeIngestJson (encodeIngestJson record) limits = .ok record ↔ record.Transmissible := by
  obtain ⟨w, x, hread, hnumber, hscalar⟩ := h.scalar
  have hparse : parseJson (encodeIngestJson record) limits = .ok (.object (record.shown w)) :=
    parseJson_dump (reads_document h.metadata hread) h.bytes h.depth h.nodes
  have hdecode : decodeIngestJson (encodeIngestJson record) limits
      = (do
          let found ← IngestJson.readRecord (.object (record.shown w)) limits
          validateEvidence { found with id := computeEvidenceId found } limits
          pure { found with id := computeEvidenceId found }) := by
    rw [decodeIngestJson, hparse, ok_bind, failIf, if_neg (by simp [JsonValue.isObject]), ok_bind]
  rw [hdecode, readRecord_shown h.valid h.declared h.metadata, hnumber,
    ← validateEvidence_source h.valid]
  simp only [bind_eq_ok, pure_eq_ok, showsFence_shown.readFence_iff]
  constructor
  · rintro ⟨found, ⟨subject, hsubject, fence, ⟨hsigned, -⟩, observed, hobserved, received, hreceived,
      scalar, hx, rfl⟩, -, -, hsame⟩
    -- The record that was read is the one that was sent, so each reader gave the field back.
    have hsubject' : record.subject = subject := congrArg EvidenceRecord.subject hsame
    have hobserved' : record.observedAt = observed := congrArg EvidenceRecord.observedAt hsame
    have hreceived' : record.receivedAt = received := congrArg EvidenceRecord.receivedAt hsame
    have hscalar' : record.value.scalar = scalar :=
      congrArg (fun r : EvidenceRecord => r.value.scalar) hsame
    rw [← hsubject'] at hsubject
    rw [← hobserved'] at hobserved
    rw [← hreceived'] at hreceived
    rw [← hscalar'] at hx
    exact ⟨nameText_of_parseSubject hsubject, hsigned,
      (Timestamp.fromIso8601_toIso8601 _).mp hobserved,
      (Timestamp.fromIso8601_toIso8601 _).mp hreceived, hscalar.mp (Except.ok.inj hx)⟩
  · intro htransmissible
    have hx := hscalar.mpr htransmissible.scalar
    refine ⟨_, ⟨_, parseSubject_str htransmissible.subject, _, ⟨htransmissible.fence, rfl⟩, _,
      (Timestamp.fromIso8601_toIso8601 _).mpr htransmissible.observedAt, _,
      (Timestamp.fromIso8601_toIso8601 _).mpr htransmissible.receivedAt, x, rfl, rfl⟩, (), ?_, ?_⟩
    · rw [hx]
      refine Eq.trans (congrArg (fun r => validateEvidence r limits) ?_) h.valid
      exact h.completed
    · rw [hx]
      exact h.completed.symm

/-- A heartbeat of a source after a boot. -/
def heartbeat (boot : UInt64) : EvidenceRecord :=
  let source : SourceId := EntityId.unchecked (ascii "s")
  let record : EvidenceRecord :=
    { kind := .sourceHeartbeat
      subject := .source source
      provenance := { source := source }
      fence := { source := source, boot := boot, incarnation := 1, sequence := 1 }
      value := { unit := .count } }
  { record with id := computeEvidenceId record }

/-- A client can send it, whether the boot counter fits in a signed number or not. -/
theorem outgoing_heartbeat : ∀ boot ∈ [1, 2 ^ 63], (heartbeat boot).Outgoing {} := by
  intro boot hboot
  have hcases : boot = 1 ∨ boot = 2 ^ 63 := by simpa using hboot
  rcases hcases with rfl | rfl
  all_goals exact ⟨by decide +kernel, ⟨rfl, rfl, rfl, rfl, rfl, rfl, rfl⟩, rfl, rfl,
    by decide +kernel, rfl, List.nodup_nil, by decide +kernel, by decide +kernel, by decide +kernel,
    by decide +kernel, by decide +kernel, by decide +kernel⟩

theorem heartbeat_survives :
    decodeIngestJson (encodeIngestJson (heartbeat 1)) {} = .ok (heartbeat 1) :=
  (decode_encode_iff (outgoing_heartbeat 1 (by simp))).mpr
    ⟨by decide +kernel, ⟨by decide, by decide, by decide, by decide, by decide, by decide⟩,
      by decide +kernel, by decide +kernel, fun _ => by decide +kernel⟩

/-- The first boot counter that does not fit is written as a negative number and refused. -/
theorem heartbeat_refused : (heartbeat (2 ^ 63)).Outgoing {} ∧
    decodeIngestJson (encodeIngestJson (heartbeat (2 ^ 63))) {}
      = .error (makeError .outOfRange "field must not be negative: boot") :=
  ⟨outgoing_heartbeat _ (by simp), by decide +kernel⟩

end EvidenceRecord

end CongestionObservatory
