import CongestionObservatory.Proofs.Model.Subjects
import CongestionObservatory.Proofs.Model.Topology
import CongestionObservatory.Proofs.Persistence.Frame

/-!
# `CongestionObservatory.Proofs.Persistence.RoundTrip`: reading back what was written

One `Reads` lemma for each record of the snapshot, from the fields up: subjects, evidence,
episodes, the topology and the metadata. A record that the program made is `Canonical`: its names
are canonical and its identity is derived from its content. Its counts are `Within` the limits.

Two things then decide whether it is read back. Every length has to fit the 32 bits of its prefix
(`Prefixed`), or the reader sees another length than the writer meant. And every text has to be
within the bound on documents, and every metadata entry within its own bounds (`Fits`): the reader
checks these bounds and the writer does not.
-/

set_option autoImplicit false

namespace CongestionObservatory

open Lib ByteReader

/-! ### Names and subjects -/

theorem Name.length_str_le (n : Name) : n.str.length ≤ kMaxLength := by
  rcases n.canonical with hnil | hok
  · rw [hnil]
    exact Nat.zero_le _
  · unfold validateName at hok
    split at hok
    · cases hok
    · split at hok
      · cases hok
      · rename_i hle
        exact Nat.not_lt.mp hle

theorem Name.length_str_lt (n : Name) : n.str.length < 2 ^ 32 :=
  lt_of_le_of_lt n.length_str_le (by decide)

section

variable (limits : Limits)

/-- A text is read back as a name when it parses to it, and rejected when it does not parse. -/
theorem reads_parsed_iff {α : Type} {parse : Text → Result α} {value : Text} {a : α} {valid : Prop}
    (h : value.length < 2 ^ 32) (hvalid : valid → parse value = .ok a)
    (hinvalid : ∀ b, parse value = .ok b → valid) :
    Reads (parsed limits parse) (ByteWriter.text value)
      (valid ∧ value.length ≤ limits.maxDocumentBytes) a := by
  cases hparse : parse value with
  | ok b =>
      have hok := hvalid (hinvalid b hparse)
      exact (reads_parsed limits h hok).congr (and_iff_right (hinvalid b hparse)).symm
  | error e =>
      have hnot : ¬ valid := by
        intro hv
        rw [hvalid hv] at hparse
        cases hparse
      have hreads : Reads (parsed limits parse) (ByteWriter.text value ++ [])
          (value.length ≤ limits.maxDocumentBytes ∧ False) a := by
        refine (reads_text limits h).bind (fun value => ?_) ?_
        · cases parse value with
          | error e => exact Sticky.throw e
          | ok a => exact Sticky.pure a
        · rw [hparse]
          exact ⟨False.elim, fun _ _ => rejected_error e⟩
      rw [List.append_nil] at hreads
      exact hreads.congr (by simp [hnot])

/-- An empty name is written but not read back. -/
theorem reads_name_iff (n : Name) : Reads (parsed limits Name.parse) (ByteWriter.text n.str)
    (n.valid = true ∧ n.str.length ≤ limits.maxDocumentBytes) n := by
  refine reads_parsed_iff limits n.length_str_lt Name.parse_str fun m hm => ?_
  rw [← Name.str_injective (Name.parse_ok_str hm)]
  exact Name.parse_ok_valid hm

theorem reads_entityId_iff {Tag : Type} (id : EntityId Tag) :
    Reads (parsed limits EntityId.parse) (ByteWriter.text id.str)
      (id.valid = true ∧ id.str.length ≤ limits.maxDocumentBytes) id := by
  refine reads_parsed_iff limits id.name.length_str_lt EntityId.parse_str fun id' hid => ?_
  obtain ⟨hstr, hvalid⟩ := EntityId.parse_ok hid
  rw [← EntityId.name_injective (Name.str_injective hstr)]
  exact hvalid

theorem reads_name {n : Name} (h : n.valid = true) :
    Reads (parsed limits Name.parse) (ByteWriter.text n.str)
      (n.str.length ≤ limits.maxDocumentBytes) n :=
  (reads_name_iff limits n).congr (and_iff_right h)

theorem reads_entityId {Tag : Type} {id : EntityId Tag} (h : id.valid = true) :
    Reads (parsed limits EntityId.parse) (ByteWriter.text id.str)
      (id.str.length ≤ limits.maxDocumentBytes) id :=
  (reads_entityId_iff limits id).congr (and_iff_right h)

end

theorem sticky_readSubject (limits : Limits) : Sticky (readSubject limits) :=
  sticky_u8.bind fun _ => (sticky_text limits).bind fun _ => sticky_ok (Sticky.pure _)

theorem EvidenceSubject.length_str_lt (s : EvidenceSubject) : s.str.length < 2 ^ 32 := by
  have hname : s.nameText.length ≤ kMaxLength := by
    cases s with
    | none => exact Nat.zero_le _
    | _ id => exact id.name.length_str_le
  have hkind := s.kind.toText_shape.2.2
  have hlength : s.str.length = s.kind.toText.length + 1 + s.nameText.length := by
    rw [str, List.length_append, List.length_append]
    rfl
  have hmax : kMaxLength = 96 := rfl
  omega

theorem reads_readSubject (limits : Limits) {s : EvidenceSubject} (h : s.Named) :
    Reads (readSubject limits) (writeSubject s) (s.str.length ≤ limits.maxDocumentBytes) s := by
  have hall : Reads (readSubject limits)
      (ByteWriter.u8 s.kind.toUInt8 ++ (ByteWriter.text s.str ++ []))
      (True ∧ (s.str.length ≤ limits.maxDocumentBytes ∧ True)) s := by
    refine (reads_u8 _).bind (fun _ => ?_) ((reads_text limits s.length_str_lt).bind
      (fun _ => ?_) (reads_ok ?_))
    · exact (sticky_text limits).bind fun _ => sticky_ok (Sticky.pure _)
    · exact sticky_ok (Sticky.pure _)
    · rw [if_pos rfl]
      rcases h with rfl | hname
      · exact Reads.pure _
      · rw [if_neg, parseSubject_str hname]
        · exact Reads.pure s
        · intro hnone
          have hkind := EvidenceSubject.toUInt8_injective hnone
          cases s with
          | none => exact hname rfl
          | _ id => cases hkind
  rw [List.append_nil] at hall
  exact hall.congr (by simp)

theorem sticky_readGeneration : Sticky readGeneration :=
  ((sticky_u64.map _).seq sticky_u64).seq sticky_u64

theorem reads_readGeneration (g : GenerationVector) :
    Reads readGeneration (writeGeneration g) True g :=
  ((((reads_u64 g.epoch).map GenerationVector.mk).seq (reads_u64 g.generation) sticky_u64).seq
    (reads_u64 g.revision) sticky_u64).congr (by simp)

/-! ### Evidence -/

namespace EvidenceRecord

/-- The texts that are written for a record. -/
def texts (r : EvidenceRecord) : List Text :=
  [r.subject.str, r.provenance.source.str, r.provenance.transport, r.provenance.collector,
    r.fence.source.str, r.note] ++ r.labels.map Name.str
    ++ r.metadata.flatMap fun entry => [entry.1, entry.2]

theorem forall_texts {r : EvidenceRecord} {P : Text → Prop} : (∀ text ∈ r.texts, P text) ↔
    P r.subject.str ∧ P r.provenance.source.str ∧ P r.provenance.transport ∧
      P r.provenance.collector ∧ P r.fence.source.str ∧ P r.note ∧
      (∀ label ∈ r.labels, P label.str) ∧ ∀ entry ∈ r.metadata, P entry.1 ∧ P entry.2 := by
  simp only [texts, List.forall_mem_append, List.forall_mem_cons, List.forall_mem_map,
    List.forall_mem_flatMap, List.not_mem_nil, false_imp_iff, implies_true, and_true, and_assoc]

/-- The names are canonical and the identity is the derived one. -/
structure Canonical (r : EvidenceRecord) : Prop where
  subject : r.subject.Named
  source : r.provenance.source.valid = true
  fenceSource : r.fence.source.valid = true
  labels : ∀ label ∈ r.labels, label.valid = true
  id : computeEvidenceId r = r.id

/-- The counts are within the limits. -/
structure Within (r : EvidenceRecord) (limits : Limits) : Prop where
  labels : r.labels.length ≤ limits.maxLabels
  metadata : r.metadata.length ≤ limits.maxMetadataEntries

/-- Every length fits its prefix. -/
structure Prefixed (r : EvidenceRecord) : Prop where
  texts : ∀ text ∈ r.texts, text.length < 2 ^ 32
  labels : r.labels.length < 2 ^ 32
  metadata : r.metadata.length < 2 ^ 32

/-- Every text is within the bounds of the reader. -/
@[mk_iff] structure Fits (r : EvidenceRecord) (limits : Limits) : Prop where
  texts : ∀ text ∈ r.texts, text.length ≤ limits.maxDocumentBytes
  metadata : ∀ entry ∈ r.metadata, entry.1.length ≤ limits.maxMetadataKeyBytes ∧
    entry.2.length ≤ limits.maxMetadataValueBytes

end EvidenceRecord

section

variable (limits : Limits)

theorem reads_readMetadataEntry {entry : Text × Text} (hkey : entry.1.length < 2 ^ 32)
    (hvalue : entry.2.length < 2 ^ 32) :
    Reads (readMetadataEntry limits) (ByteWriter.text entry.1 ++ ByteWriter.text entry.2)
      ((entry.1.length ≤ limits.maxDocumentBytes ∧ entry.2.length ≤ limits.maxDocumentBytes) ∧
        (entry.1.length ≤ limits.maxMetadataKeyBytes ∧
          entry.2.length ≤ limits.maxMetadataValueBytes)) entry := by
  have hall : Reads (readMetadataEntry limits)
      (ByteWriter.text entry.1 ++ (ByteWriter.text entry.2 ++ []))
      (entry.1.length ≤ limits.maxDocumentBytes ∧ (entry.2.length ≤ limits.maxDocumentBytes ∧
        (¬ (entry.1.length > limits.maxMetadataKeyBytes ∨
          entry.2.length > limits.maxMetadataValueBytes) ∧ True))) entry := by
    refine (reads_text limits hkey).bind (fun _ => ?_) ((reads_text limits hvalue).bind
      (fun _ => ?_) (reads_check (Reads.pure _)))
    · exact (sticky_text limits).bind fun _ => sticky_check (Sticky.pure _)
    · exact sticky_check (Sticky.pure _)
  rw [List.append_nil] at hall
  exact hall.congr (by simp [and_assoc])

theorem sticky_readProvenance : Sticky (readProvenance limits) :=
  ((((sticky_parsed limits _).map _).seq sticky_enum8).seq (sticky_text limits)).seq
    (sticky_text limits)

theorem sticky_readFence : Sticky (readFence limits) :=
  (((((sticky_parsed limits _).map _).seq sticky_u64).seq sticky_u64).seq
    sticky_readGeneration).seq sticky_u64

theorem sticky_readValue : Sticky readValue :=
  ((((sticky_u64.map _).map _).seq sticky_enum8).seq sticky_enum8)

theorem reads_readValue (v : EvidenceValue) : Reads readValue (writeValue v) True v :=
  (((((reads_u64 v.scalar.bits).map Double.mk).map EvidenceValue.mk).seq (reads_enum8 v.unit)
    sticky_enum8).seq (reads_enum8 v.semantics) sticky_enum8).congr (by simp)

theorem reads_readFence {f : FenceVector} (h : f.source.valid = true) :
    Reads (readFence limits) (writeFence f) (f.source.str.length ≤ limits.maxDocumentBytes) f :=
  ((((((reads_entityId limits h).map FenceVector.mk).seq (reads_u64 f.boot) sticky_u64).seq
    (reads_u64 f.incarnation) sticky_u64).seq (reads_readGeneration f.gen)
    sticky_readGeneration).seq (reads_u64 f.sequence) sticky_u64).congr (by simp)

theorem reads_readProvenance {p : Provenance} (h : p.source.valid = true)
    (htransport : p.transport.length < 2 ^ 32) (hcollector : p.collector.length < 2 ^ 32) :
    Reads (readProvenance limits) (writeProvenance p)
      (p.source.str.length ≤ limits.maxDocumentBytes ∧
        p.transport.length ≤ limits.maxDocumentBytes ∧
        p.collector.length ≤ limits.maxDocumentBytes) p :=
  (((((reads_entityId limits h).map Provenance.mk).seq (reads_enum8 p.authority)
    sticky_enum8).seq (reads_text limits htransport) (sticky_text limits)).seq
    (reads_text limits hcollector) (sticky_text limits)).congr (by simp [and_assoc])

theorem reads_readEvidenceFields {r : EvidenceRecord} (hcanonical : r.Canonical)
    (hprefixed : r.Prefixed) (hwithin : r.Within limits) :
    Reads (readEvidenceFields limits) (writeEvidence r) (r.Fits limits)
      { r with insertionIndex := 0 } := by
  obtain ⟨-, -, htransport, hcollector, -, hnote, -, hentry⟩ :=
    EvidenceRecord.forall_texts.mp hprefixed.texts
  have hlabels := reads_list_self limits.maxLabels "label count exceeds the limit" hprefixed.labels
    fun label hlabel => reads_name limits (hcanonical.labels label hlabel)
  have hentries := reads_list_self limits.maxMetadataEntries "metadata count exceeds the limit"
    hprefixed.metadata fun entry hmem =>
      reads_readMetadataEntry limits (hentry entry hmem).1 (hentry entry hmem).2
  have hall : Reads (readEvidenceFields limits) (writeEvidence r) _
      { r with kind := ofUnderlying (toUnderlying r.kind), insertionIndex := 0 } :=
    (((((((((((((((((reads_digestId r.id).map _).seq (reads_u16 _) sticky_u16).seq
      (reads_readSubject limits hcanonical.subject) (sticky_readSubject limits)).seq
      (reads_readProvenance limits hcanonical.source htransport hcollector)
      (sticky_readProvenance limits)).seq
      (reads_readFence limits hcanonical.fenceSource) (sticky_readFence limits)).seq
      (reads_i64 r.observedAt.nanos) sticky_i64).seq (reads_i64 r.receivedAt.nanos) sticky_i64).seq
      (reads_enum8 r.clock) sticky_enum8).seq (reads_readValue r.value) sticky_readValue).seq
      (reads_i64 r.validity.nanos) sticky_i64).seq (reads_enum8 r.completeness) sticky_enum8).seq
      (reads_enum8 r.support) sticky_enum8).seq (reads_boolean r.recoveredFromSnapshot)
      sticky_boolean).seq (reads_boolean r.retired) sticky_boolean).seq
      (reads_text limits hnote) (sticky_text limits)).seq hlabels (sticky_list _ _ _)).seq
      hentries (sticky_list _ _ _)
  rw [ofUnderlying_toUnderlying] at hall
  refine hall.congr ?_
  rw [EvidenceRecord.fits_iff, EvidenceRecord.forall_texts]
  simp only [hwithin.labels, hwithin.metadata, true_and, and_true, and_assoc, imp_and, forall_and]

/-- A record is read back without its insertion index, which is not written. -/
theorem reads_readEvidence {r : EvidenceRecord} (hcanonical : r.Canonical)
    (hprefixed : r.Prefixed) (hwithin : r.Within limits) :
    Reads (readEvidence limits) (writeEvidence r) (r.Fits limits)
      { r with insertionIndex := 0 } := by
  have hall : Reads (readEvidence limits) (writeEvidence r ++ ([] ++ []))
      (r.Fits limits ∧ (True ∧ (¬ computeEvidenceId r ≠ r.id ∧ True)))
      { r with insertionIndex := 0 } := by
    refine (reads_readEvidenceFields limits hcanonical hprefixed hwithin).bind (fun _ => ?_)
      ((reads_checkOk _).bind (fun _ => ?_) (reads_check (Reads.pure _)))
    · exact (sticky_checkOk _).bind fun _ => sticky_check (Sticky.pure _)
    · exact sticky_check (Sticky.pure _)
  rw [List.append_nil, List.append_nil] at hall
  exact hall.congr (by simp [hcanonical.id])

end

/-- A section is accepted exactly when its bytes fit its reader. -/
theorem readWhole_iff_of_reads {α : Type} {name : String} {read : ByteReader α} {bytes : Text}
    {fits : Prop} {a b : α} (h : Reads read bytes fits a) :
    readWhole name read bytes = .ok b ↔ fits ∧ b = a := by
  rw [readWhole_eq_ok]
  by_cases hfits : fits
  · have hread := h.accepts hfits []
    rw [List.append_nil] at hread
    rw [hread]
    simp [hfits, eq_comm]
  · have hrejected := h.rejects hfits []
    rw [List.append_nil] at hrejected
    constructor
    · intro hread
      exact absurd rfl (hrejected b _ hread)
    · rintro ⟨hfits', -⟩
      exact absurd hfits' hfits

theorem decodeEvidenceSection_iff {limits : Limits} {evidence : List EvidenceRecord}
    (hlength : (evidence.take limits.maxSnapshotEvidence).length < 2 ^ 32)
    (hrecords : ∀ r ∈ evidence.take limits.maxSnapshotEvidence,
      r.Canonical ∧ r.Prefixed ∧ r.Within limits) (result : Bool × List EvidenceRecord) :
    decodeEvidenceSection (encodeEvidenceSection evidence limits) limits = .ok result ↔
      (∀ r ∈ evidence.take limits.maxSnapshotEvidence, r.Fits limits) ∧
        result = (false, (evidence.take limits.maxSnapshotEvidence).map fun r =>
          { r with insertionIndex := 0 }) := by
  refine readWhole_iff_of_reads ?_
  have hbound : (evidence.take limits.maxSnapshotEvidence).length ≤ limits.maxSnapshotEvidence :=
    List.length_take_le _ _
  have htimes := reads_times fun r hr => reads_readEvidence limits (hrecords r hr).1
    (hrecords r hr).2.1 (hrecords r hr).2.2
  refine reads_size (fun _ => (sticky_times _ _).bind fun _ => Sticky.pure _) ?_
  -- The count is within the limit, since the writer stops there.
  rw [toNat_size hlength, decide_eq_false (by omega)]
  exact htimes.map fun records => (false, records)

/-! ### Episodes -/

namespace Episode

/-- The texts that are written for an episode. -/
def texts (e : Episode) : List Text :=
  [e.key.scope.str, e.key.tenant.str, e.key.policyVersion] ++ e.sources.map EntityId.str
    ++ e.transitions.map EpisodeTransition.cause

theorem forall_texts {e : Episode} {P : Text → Prop} : (∀ text ∈ e.texts, P text) ↔
    P e.key.scope.str ∧ P e.key.tenant.str ∧ P e.key.policyVersion ∧
      (∀ source ∈ e.sources, P source.str) ∧ ∀ t ∈ e.transitions, P t.cause := by
  simp only [texts, List.forall_mem_append, List.forall_mem_cons, List.forall_mem_map,
    List.not_mem_nil, false_imp_iff, implies_true, and_true, and_assoc]

/-- The names are canonical and the identity is the derived one. An episode need not be
attributed to a tenant. -/
structure Canonical (e : Episode) : Prop where
  scope : e.key.scope.Named
  sources : ∀ source ∈ e.sources, source.valid = true
  id : computeEpisodeId e.key = e.id

/-- The counts are within the limits. -/
structure Within (e : Episode) (limits : Limits) : Prop where
  citations : e.citations.length ≤ limits.maxCitations
  sources : e.sources.length ≤ limits.maxSources
  transitions : e.transitions.length ≤ limits.maxEpisodeTransitions
  assessments : e.assessments.length ≤ limits.maxEpisodeAssessments
  transitionCitations : ∀ t ∈ e.transitions, t.citations.length ≤ limits.maxCitations

/-- Every length fits its prefix. -/
structure Prefixed (e : Episode) : Prop where
  texts : ∀ text ∈ e.texts, text.length < 2 ^ 32
  citations : e.citations.length < 2 ^ 32
  sources : e.sources.length < 2 ^ 32
  transitions : e.transitions.length < 2 ^ 32
  assessments : e.assessments.length < 2 ^ 32
  transitionCitations : ∀ t ∈ e.transitions, t.citations.length < 2 ^ 32

/-- Every text is within the bound of the reader. -/
def Fits (e : Episode) (limits : Limits) : Prop :=
  ∀ text ∈ e.texts, text.length ≤ limits.maxDocumentBytes

/-- An episode as it is read back: the number of citations of an assessment is stored in 32
bits. -/
def stored (e : Episode) : Episode :=
  { e with assessments := e.assessments.map fun d =>
      { d with citationCount := (UInt32.ofNat d.citationCount).toNat } }

end Episode

section

variable (limits : Limits)

theorem sticky_readTenant : Sticky (readTenant limits) := sticky_parsed limits _

theorem reads_readTenant (id : TenantId) :
    Reads (readTenant limits) (ByteWriter.text id.str)
      (id.str.length ≤ limits.maxDocumentBytes) id := by
  refine reads_parsed limits id.name.length_str_lt ?_
  by_cases hnil : id.str = []
  · rw [if_pos hnil]
    congr 1
    exact EntityId.name_injective (Name.str_injective hnil.symm)
  · rw [if_neg hnil]
    exact EntityId.parse_str (by simpa [EntityId.valid, Name.valid, EntityId.str] using hnil)

theorem sticky_readEpisodeKey : Sticky (readEpisodeKey limits) :=
  (((((sticky_readSubject limits).map _).seq (sticky_readTenant limits)).seq sticky_enum8).seq
    sticky_readGeneration).seq (sticky_text limits)

theorem reads_readEpisodeKey {k : EpisodeKey} (h : k.scope.Named)
    (hversion : k.policyVersion.length < 2 ^ 32) :
    Reads (readEpisodeKey limits) (writeEpisodeKey k)
      (k.scope.str.length ≤ limits.maxDocumentBytes ∧
        k.tenant.str.length ≤ limits.maxDocumentBytes ∧
        k.policyVersion.length ≤ limits.maxDocumentBytes) k :=
  ((((((reads_readSubject limits h).map EpisodeKey.mk).seq (reads_readTenant limits k.tenant)
    (sticky_readTenant limits)).seq (reads_enum8 k.mechanism) sticky_enum8).seq
    (reads_readGeneration k.generation) sticky_readGeneration).seq
    (reads_text limits hversion) (sticky_text limits)).congr (by simp [and_assoc])

theorem reads_readTransition {t : EpisodeTransition} (hcause : t.cause.length < 2 ^ 32)
    (hcitations : t.citations.length < 2 ^ 32) :
    Reads (readTransition limits) (writeTransition t)
      (t.cause.length ≤ limits.maxDocumentBytes ∧ t.citations.length ≤ limits.maxCitations) t := by
  have hlist := reads_list_self limits.maxCitations "transition citation count exceeds limit"
    hcitations fun citation _ => reads_digestId citation
  have hall : Reads (readTransition limits) (writeTransition t) _ t :=
    ((((((((((reads_u64 t.revision).map _).seq (reads_enum8 t.kind) sticky_enum8).seq
      (reads_i64 t.at_.nanos) sticky_i64).seq (reads_enum8 t.severityBefore) sticky_enum8).seq
      (reads_enum8 t.severityAfter) sticky_enum8).seq (reads_enum8 t.verdictBefore)
      sticky_enum8).seq (reads_enum8 t.verdictAfter) sticky_enum8).seq (reads_u32 t.confidence)
      sticky_u32).seq (reads_text limits hcause) (sticky_text limits)).seq hlist
      (sticky_list _ _ _)
  exact hall.congr (by simp)

theorem reads_readAssessmentDigest (d : AssessmentDigest) :
    Reads readAssessmentDigest (writeAssessmentDigest d) True
      { d with citationCount := (UInt32.ofNat d.citationCount).toNat } :=
  ((((((((reads_i64 d.at_.nanos).map _).seq (reads_enum8 d.verdict) sticky_enum8).seq
    (reads_u32 d.mechanisms) sticky_u32).seq (reads_enum8 d.severity) sticky_enum8).seq
    (reads_u32 d.confidence) sticky_u32).seq (reads_u32 (UInt32.ofNat d.citationCount))
    sticky_u32).seq (reads_boolean d.freshConfirmingEvidence) sticky_boolean).seq
    (reads_digestId d.representativeCitation) sticky_digestId |>.congr (by simp)

theorem reads_readEpisodeFields {e : Episode} (hcanonical : e.Canonical) (hprefixed : e.Prefixed)
    (hwithin : e.Within limits) :
    Reads (readEpisodeFields limits) (writeEpisode e) (e.Fits limits) e.stored := by
  obtain ⟨-, -, hversion, -, hcauses⟩ := Episode.forall_texts.mp hprefixed.texts
  have hcitations := reads_list_self limits.maxCitations "citation count exceeds the limit"
    hprefixed.citations fun citation _ => reads_digestId citation
  have hsources := reads_list_self limits.maxSources "source count exceeds the limit"
    hprefixed.sources fun source hsource =>
      reads_entityId limits (hcanonical.sources source hsource)
  have htransitions := reads_list_self limits.maxEpisodeTransitions
    "transition count exceeds the limit" hprefixed.transitions fun t ht =>
      reads_readTransition limits (hcauses t ht) (hprefixed.transitionCitations t ht)
  have hassessments := reads_list limits.maxEpisodeAssessments "assessment count exceeds limit"
    hprefixed.assessments fun d _ => reads_readAssessmentDigest d
  have hall : Reads (readEpisodeFields limits) (writeEpisode e) _ e.stored :=
    (((((((((((((((((((reads_digestId e.id).map _).seq
      (reads_readEpisodeKey limits hcanonical.scope hversion) (sticky_readEpisodeKey limits)).seq
      (reads_enum8 e.state) sticky_enum8).seq (reads_u64 e.revision) sticky_u64).seq
      (reads_enum8 e.currentSeverity) sticky_enum8).seq (reads_enum8 e.peakSeverity)
      sticky_enum8).seq (reads_u32 e.confidence) sticky_u32).seq (reads_i64 e.firstSeen.nanos)
      sticky_i64).seq (reads_i64 e.lastSeen.nanos) sticky_i64).seq
      (reads_i64 e.lastUpdated.nanos) sticky_i64).seq (reads_i64 e.resolvedAt.nanos)
      sticky_i64).seq (reads_u64 e.observations) sticky_u64).seq hcitations
      (sticky_list _ _ _)).seq hsources (sticky_list _ _ _)).seq htransitions
      (sticky_list _ _ _)).seq hassessments (sticky_list _ _ _)).seq
      (reads_u64 e.transitionsDropped) sticky_u64).seq (reads_u64 e.assessmentsDropped)
      sticky_u64).seq (reads_boolean e.historyTruncated) sticky_boolean
  -- What is left of the conditions are the lengths of the texts: the lists are within their bounds
  -- because the episode is.
  refine hall.congr ?_
  rw [Episode.Fits, Episode.forall_texts]
  have htransition : ∀ t ∈ e.transitions, (t.cause.length ≤ limits.maxDocumentBytes ∧
      t.citations.length ≤ limits.maxCitations) ↔ t.cause.length ≤ limits.maxDocumentBytes :=
    fun t ht => and_iff_left (hwithin.transitionCitations t ht)
  simp only [hwithin.citations, hwithin.sources, hwithin.transitions, hwithin.assessments,
    forall₂_congr htransition, true_and, and_true, and_assoc, implies_true]

theorem reads_readEpisode {e : Episode} (hcanonical : e.Canonical) (hprefixed : e.Prefixed)
    (hwithin : e.Within limits) :
    Reads (readEpisode limits) (writeEpisode e) (e.Fits limits) e.stored := by
  have hall : Reads (readEpisode limits) (writeEpisode e ++ ([] ++ []))
      (e.Fits limits ∧ (True ∧ (¬ computeEpisodeId e.key ≠ e.id ∧ True))) e.stored := by
    refine (reads_readEpisodeFields limits hcanonical hprefixed hwithin).bind (fun _ => ?_)
      ((reads_checkOk _).bind (fun _ => ?_) (reads_check (Reads.pure _)))
    · exact (sticky_checkOk _).bind fun _ => sticky_check (Sticky.pure _)
    · exact sticky_check (Sticky.pure _)
  rw [List.append_nil, List.append_nil] at hall
  exact hall.congr (by simp [hcanonical.id])

end

theorem decodeEpisodeSection_iff {limits : Limits} {episodes : List Episode}
    (hlength : (episodes.take limits.maxSnapshotEpisodes).length < 2 ^ 32)
    (hepisodes : ∀ e ∈ episodes.take limits.maxSnapshotEpisodes,
      e.Canonical ∧ e.Prefixed ∧ e.Within limits) (result : List Episode) :
    decodeEpisodeSection (encodeEpisodeSection episodes limits) limits = .ok result ↔
      (∀ e ∈ episodes.take limits.maxSnapshotEpisodes, e.Fits limits) ∧
        result = (episodes.take limits.maxSnapshotEpisodes).map Episode.stored := by
  have hbound : (episodes.take limits.maxSnapshotEpisodes).length ≤ limits.maxSnapshotEpisodes :=
    List.length_take_le _ _
  have hlist := reads_list limits.maxSnapshotEpisodes "episode count exceeds the limit" hlength
    fun e he => reads_readEpisode limits (hepisodes e he).1 (hepisodes e he).2.1 (hepisodes e he).2.2
  exact readWhole_iff_of_reads (hlist.congr (and_iff_right hbound))

/-! ### Metadata -/

/-- The texts of the metadata. -/
def SnapshotMetadata.texts (m : SnapshotMetadata) : List Text := [m.policyVersion, m.producerVersion]

theorem reads_readSnapshotMetadata (limits : Limits) {m : SnapshotMetadata}
    (hversion : m.policyVersion.length < 2 ^ 32) (hproducer : m.producerVersion.length < 2 ^ 32) :
    Reads (readSnapshotMetadata limits) (encodeMetadataSection m)
      (m.policyVersion.length ≤ limits.maxDocumentBytes ∧
        m.producerVersion.length ≤ limits.maxDocumentBytes) m := by
  have hall : Reads (readSnapshotMetadata limits) (encodeMetadataSection m) _ m :=
    ((((((((((reads_text limits hversion).map _).seq (reads_u64 m.policyDigest) sticky_u64).seq
      (reads_u64 m.limitsDigest) sticky_u64).seq (reads_u64 m.topologyDigest) sticky_u64).seq
      (reads_i64 m.createdAt.nanos) sticky_i64).seq (reads_u64 m.runtimeInstance) sticky_u64).seq
      (reads_u64 m.acceptedTotal) sticky_u64).seq (reads_u64 m.rejectedTotal) sticky_u64).seq
      (reads_readGeneration m.generation) sticky_readGeneration).seq
      (reads_text limits hproducer) (sticky_text limits)
  exact hall.congr (by simp)

/-- The metadata of the active policy are accepted when their texts are within the bound. -/
theorem decodeMetadataSection_iff {limits : Limits} {policy : ClassificationPolicy}
    {m : SnapshotMetadata} (hprefixed : ∀ text ∈ m.texts, text.length < 2 ^ 32)
    (hversion : m.policyVersion = policy.version) (result : SnapshotMetadata) :
    decodeMetadataSection (encodeMetadataSection m) limits policy = .ok result ↔
      (∀ text ∈ m.texts, text.length ≤ limits.maxDocumentBytes) ∧ result = m := by
  have hfits : (∀ text ∈ m.texts, text.length ≤ limits.maxDocumentBytes) ↔
      m.policyVersion.length ≤ limits.maxDocumentBytes ∧
        m.producerVersion.length ≤ limits.maxDocumentBytes := by
    simp [SnapshotMetadata.texts]
  have hreads := reads_readSnapshotMetadata limits
    (hprefixed m.policyVersion (by simp [SnapshotMetadata.texts]))
    (hprefixed m.producerVersion (by simp [SnapshotMetadata.texts]))
  unfold decodeMetadataSection
  rw [hfits, bind_eq_ok]
  constructor
  · rintro ⟨⟨m', c⟩, hrun, h⟩
    obtain ⟨-, hpure⟩ := seq_eq_ok.mp h
    cases hpure
    obtain ⟨m', c₁, hread, htail⟩ := Decoder.bind_eq_ok.mp hrun
    obtain ⟨u, c₂, hcheck, hlast⟩ := Decoder.bind_eq_ok.mp htail
    obtain ⟨rfl, hnone⟩ := checkOk_eq_ok hcheck
    cases hlast
    rw [← List.append_nil (encodeMetadataSection m)] at hread
    -- A text beyond the bound leaves the reader with a note, which the check at the end would have
    -- seen.
    by_contra hnot
    by_cases hwithin : m.policyVersion.length ≤ limits.maxDocumentBytes ∧
        m.producerVersion.length ≤ limits.maxDocumentBytes
    · rw [hreads.accepts hwithin] at hread
      cases hread
      exact hnot ⟨hwithin, rfl⟩
    · exact hreads.rejects hwithin [] _ _ hread hnone
  · rintro ⟨hwithin, rfl⟩
    have hread := hreads.accepts hwithin []
    rw [List.append_nil] at hread
    refine ⟨(result, ⟨[], none⟩), ?_, ?_⟩
    · exact Decoder.bind_eq_ok.mpr ⟨result, _, hread, rfl⟩
    · exact seq_eq_ok.mpr ⟨failIf_eq_ok.mpr (not_not.mpr hversion), rfl⟩

/-! ### Topology -/

namespace Topology

/-- The texts that are written for a topology. -/
def texts (t : Topology) : List Text :=
  [t.revisionLabel.str]
    ++ (t.nodes.values.flatMap fun node => node.id.str :: node.labels.map Name.str)
    ++ (t.ports.values.flatMap fun port => [port.id.str, port.node.str])
    ++ (t.links.values.flatMap fun link =>
      [link.id.str, link.endpointA.str, link.endpointB.str])
    ++ (t.queues.values.flatMap fun queue => [queue.id.str, queue.link.str])
    ++ (t.buffers.values.flatMap fun buffer => [buffer.id.str, buffer.port.str])
    ++ (t.paths.values.flatMap fun path => path.id.str :: path.hops.map EntityId.str)
    ++ (t.flows.values.flatMap fun flow =>
      [flow.id.str, flow.path.str, flow.tenant.str, flow.trafficClass.str])

theorem forall_texts {t : Topology} {P : Text → Prop} : (∀ text ∈ t.texts, P text) ↔
    P t.revisionLabel.str ∧
      (∀ node ∈ t.nodes.values, P node.id.str ∧ ∀ label ∈ node.labels, P label.str) ∧
      (∀ port ∈ t.ports.values, P port.id.str ∧ P port.node.str) ∧
      (∀ link ∈ t.links.values, P link.id.str ∧ P link.endpointA.str ∧ P link.endpointB.str) ∧
      (∀ queue ∈ t.queues.values, P queue.id.str ∧ P queue.link.str) ∧
      (∀ buffer ∈ t.buffers.values, P buffer.id.str ∧ P buffer.port.str) ∧
      (∀ path ∈ t.paths.values, P path.id.str ∧ ∀ hop ∈ path.hops, P hop.str) ∧
      ∀ flow ∈ t.flows.values, P flow.id.str ∧ P flow.path.str ∧ P flow.tenant.str ∧
        P flow.trafficClass.str := by
  simp only [texts, List.forall_mem_append, List.forall_mem_cons, List.forall_mem_map,
    List.forall_mem_flatMap, List.not_mem_nil, false_imp_iff, implies_true, and_true, and_assoc]

/-- The labels are canonical and at most 64 for each node, and every flow is attributed. -/
structure Canonical (t : Topology) : Prop where
  labels : ∀ node ∈ t.nodes.values, ∀ label ∈ node.labels, label.valid = true
  labelCount : ∀ node ∈ t.nodes.values, node.labels.length ≤ 64
  attributed : ∀ flow ∈ t.flows.values, flow.tenant.valid = true ∧ flow.trafficClass.valid = true

/-- Every length fits its prefix. -/
structure Prefixed (t : Topology) : Prop where
  nodes : t.nodes.size < 2 ^ 32
  ports : t.ports.size < 2 ^ 32
  links : t.links.size < 2 ^ 32
  queues : t.queues.size < 2 ^ 32
  buffers : t.buffers.size < 2 ^ 32
  paths : t.paths.size < 2 ^ 32
  flows : t.flows.size < 2 ^ 32
  hops : ∀ path ∈ t.paths.values, path.hops.length < 2 ^ 32

/-- Every text is within the bound of the reader. -/
def Fits (t : Topology) (limits : Limits) : Prop :=
  ∀ text ∈ t.texts, text.length ≤ limits.maxDocumentBytes

/-- What the reader asks of a topology: non-empty labels, flows with a tenant and a class, and
texts within the bound. -/
structure Accepted (t : Topology) (limits : Limits) : Prop where
  labels : ∀ node ∈ t.nodes.values, ∀ label ∈ node.labels, label.valid = true
  attributed : ∀ flow ∈ t.flows.values, flow.tenant.valid = true ∧ flow.trafficClass.valid = true
  fits : t.Fits limits

end Topology

section

variable (limits : Limits)

theorem reads_readNode {node : Node} (hid : node.id.valid = true)
    (hcount : node.labels.length ≤ 64) :
    Reads (readNode limits) (writeNode node) (node.id.str.length ≤ limits.maxDocumentBytes ∧
      node.labels.length ≤ limits.maxLabels ∧
      ∀ label ∈ node.labels, label.valid = true ∧ label.str.length ≤ limits.maxDocumentBytes)
      node := by
  have hlist := reads_list_self limits.maxLabels "label count exceeds the limit"
    (show node.labels.length < 2 ^ 32 by omega) fun label _ => reads_name_iff limits label
  have htake : node.labels.take 64 = node.labels := List.take_of_length_le hcount
  rw [writeNode, writeNameList, htake]
  exact ((((reads_entityId limits hid).map Node.mk).seq (reads_enum8 node.kind)
    sticky_enum8).seq hlist (sticky_list _ _ _)).congr (by simp)

theorem reads_readPort {port : Port} (hid : port.id.valid = true) (hnode : port.node.valid = true) :
    Reads (readPort limits) (writePort port) (port.id.str.length ≤ limits.maxDocumentBytes ∧
      port.node.str.length ≤ limits.maxDocumentBytes) port :=
  ((((reads_entityId limits hid).map Port.mk).seq (reads_entityId limits hnode)
    (sticky_parsed limits _)).seq (reads_u64 port.speedBps) sticky_u64).congr (by simp)

theorem reads_readLink {link : Link} (hid : link.id.valid = true)
    (hA : link.endpointA.valid = true) (hB : link.endpointB.valid = true) :
    Reads (readLink limits) (writeLink link) (link.id.str.length ≤ limits.maxDocumentBytes ∧
      link.endpointA.str.length ≤ limits.maxDocumentBytes ∧
      link.endpointB.str.length ≤ limits.maxDocumentBytes) link :=
  (((((reads_entityId limits hid).map Link.mk).seq (reads_entityId limits hA)
    (sticky_parsed limits _)).seq (reads_entityId limits hB) (sticky_parsed limits _)).seq
    (reads_u64 link.capacityBps) sticky_u64).congr (by simp [and_assoc])

theorem reads_readQueue {queue : Queue} (hid : queue.id.valid = true)
    (hlink : queue.link.valid = true) :
    Reads (readQueue limits) (writeQueue queue) (queue.id.str.length ≤ limits.maxDocumentBytes ∧
      queue.link.str.length ≤ limits.maxDocumentBytes) queue :=
  ((((((reads_entityId limits hid).map Queue.mk).seq (reads_entityId limits hlink)
    (sticky_parsed limits _)).seq (reads_u32 queue.index) sticky_u32).seq
    (reads_u32 queue.minShareBp) sticky_u32).seq (reads_u32 queue.maxShareBp) sticky_u32).congr
    (by simp)

theorem reads_readBuffer {buffer : Buffer} (hid : buffer.id.valid = true)
    (hport : buffer.port.valid = true) :
    Reads (readBuffer limits) (writeBuffer buffer)
      (buffer.id.str.length ≤ limits.maxDocumentBytes ∧
        buffer.port.str.length ≤ limits.maxDocumentBytes) buffer :=
  (((((reads_entityId limits hid).map Buffer.mk).seq (reads_entityId limits hport)
    (sticky_parsed limits _)).seq (reads_u32 buffer.pool) sticky_u32).seq
    (reads_u64 buffer.cells) sticky_u64).congr (by simp)

theorem reads_readPath {path : Path} (hid : path.id.valid = true)
    (hhops : ∀ hop ∈ path.hops, hop.valid = true) (hcount : path.hops.length < 2 ^ 32) :
    Reads (readPath limits) (writePath path) (path.id.str.length ≤ limits.maxDocumentBytes ∧
      path.hops.length ≤ limits.maxPathHops ∧
      ∀ hop ∈ path.hops, hop.str.length ≤ limits.maxDocumentBytes) path :=
  ((reads_entityId limits hid).map Path.mk).seq
    (reads_list_self limits.maxPathHops "hop count exceeds the limit" hcount fun hop hhop =>
      reads_entityId limits (hhops hop hhop)) (sticky_list _ _ _)

theorem reads_readFlow {flow : Flow} (hid : flow.id.valid = true)
    (hpath : flow.path.valid = true) :
    Reads (readFlow limits) (writeFlow flow) (flow.id.str.length ≤ limits.maxDocumentBytes ∧
      flow.path.str.length ≤ limits.maxDocumentBytes ∧
      (flow.tenant.valid = true ∧ flow.tenant.str.length ≤ limits.maxDocumentBytes) ∧
      (flow.trafficClass.valid = true ∧
        flow.trafficClass.str.length ≤ limits.maxDocumentBytes)) flow :=
  (((((reads_entityId limits hid).map Flow.mk).seq (reads_entityId limits hpath)
    (sticky_parsed limits _)).seq (reads_entityId_iff limits flow.tenant)
    (sticky_parsed limits _)).seq (reads_entityId_iff limits flow.trafficClass)
    (sticky_parsed limits _)).congr (by simp [and_assoc])

theorem sticky_readRevisionLabel : Sticky (readRevisionLabel limits) := sticky_parsed limits _

theorem reads_readRevisionLabel (label : Name) :
    Reads (readRevisionLabel limits) (ByteWriter.text label.str)
      (label.str.length ≤ limits.maxDocumentBytes) label := by
  refine reads_parsed limits label.length_str_lt ?_
  by_cases hnil : label.str = []
  · rw [if_pos hnil]
    exact congrArg Except.ok (Name.str_injective hnil.symm)
  · rw [if_neg hnil]
    exact Name.parse_str (by simpa [Name.valid] using hnil)

end

section

variable {α : Type} (bound : Nat) (what : String) {read : ByteReader α} {write : α → Text}
  {fits : α → Prop} {add : TopologyBuilder → α → Result TopologyBuilder}

theorem sticky_addEach (read : ByteReader α) (add : TopologyBuilder → α → Result TopologyBuilder)
    (b : TopologyBuilder) : Sticky (addEach bound what read add b) :=
  (sticky_count bound what).bind fun n => Sticky.loop _ n b

/-- A value that is read and added, when the addition does not fail. -/
theorem reads_addOne {b b' : TopologyBuilder} {a : α} (hread : Reads read (write a) (fits a) a)
    (hadd : add b a = .ok b') :
    Reads (do
      let object ← read
      match add b object with
      | .error e => throw e
      | .ok b => pure b) (write a) (fits a) b' := by
  have hboth : Reads (do
      let object ← read
      match add b object with
      | .error e => throw e
      | .ok b => pure b) (write a ++ []) (fits a ∧ True) b' := by
    refine hread.bind (fun object => ?_) ?_
    · split
      · exact Sticky.throw _
      · exact Sticky.pure _
    · rw [hadd]
      exact Reads.pure b'
  rw [List.append_nil] at hboth
  exact hboth.congr (and_iff_left trivial)

/-- A collection that is read and added value by value, when no addition fails. `acc` is the
builder after some of the values. -/
theorem reads_addEach (acc : List α → TopologyBuilder) {l : List α} (hlength : l.length < 2 ^ 32)
    (hread : ∀ a ∈ l, Reads read (write a) (fits a) a)
    (hadd : ∀ before a after, l = before ++ a :: after →
      add (acc before) a = .ok (acc (before ++ [a]))) :
    Reads (addEach bound what read add (acc [])) (ByteWriter.list write l)
      (l.length ≤ bound ∧ ∀ a ∈ l, fits a) (acc l) := by
  refine (reads_count bound what hlength).bind (fun n => Sticky.loop _ n _)
    (Reads.loop acc l [] fun before a after hsplit => ?_)
  rw [List.nil_append] at hsplit
  exact reads_addOne (hread a (TopologyBuilder.mem_of_split hsplit)) (hadd before a after hsplit)

/-- A collection within its bound. `put` is the builder with the collection in its place. -/
theorem reads_collection {m : OrdMap Name α} {key : α → Name} {P : α → Prop}
    (hkeyed : Keyed m key P) (put : OrdMap Name α → TopologyBuilder) (hsize : m.size < 2 ^ 32)
    (hbound : m.size ≤ bound) (hread : ∀ a ∈ m.values, Reads read (write a) (fits a) a)
    (hadd : ∀ before a after, m.values = before ++ a :: after →
      add (put (OrdMap.ofValues key before)) a = .ok (put (OrdMap.ofValues key (before ++ [a])))) :
    Reads (addEach bound what read add (put OrdMap.empty)) (ByteWriter.list write m.values)
      (∀ a ∈ m.values, fits a) (put m) := by
  have hlength : m.values.length = m.size := List.length_map _
  have h := reads_addEach bound what (fun l => put (OrdMap.ofValues key l))
    (by rw [hlength]; exact hsize) hread hadd
  rw [hkeyed.ofValues_values, hlength] at h
  exact h.congr (and_iff_right hbound)

end

/-- The collections of a topology, read and added one after the other. -/
theorem reads_readTopology {t : Topology} {limits : Limits}
    (hwell : (t.toBuilder limits).WellFormed)
    (hcount : ∀ node ∈ t.nodes.values, node.labels.length ≤ 64) (hprefixed : t.Prefixed)
    (hwithin : (t.toBuilder limits).Within limits) :
    Reads (readTopology limits) (encodeTopologySection t) (t.Accepted limits)
      (t.toBuilder limits) := by
  -- The builder after the label, and after each collection but the last.
  let b₀ : TopologyBuilder :=
    { limits := limits, generation := t.generation, revisionLabel := t.revisionLabel }
  let b₁ : TopologyBuilder := { b₀ with nodes := t.nodes }
  let b₂ : TopologyBuilder := { b₁ with ports := t.ports }
  let b₃ : TopologyBuilder := { b₂ with links := t.links }
  let b₄ : TopologyBuilder := { b₃ with queues := t.queues }
  let b₅ : TopologyBuilder := { b₄ with buffers := t.buffers }
  let b₆ : TopologyBuilder := { b₅ with paths := t.paths }
  have hnodes := reads_collection limits.maxNodes "node count exceeds the limit" hwell.nodes
    (fun m => { b₀ with nodes := m }) hprefixed.nodes hwithin.nodes
    (fun node hmem => (reads_readNode limits (hwell.nodes.of_mem_values hmem).1
      (hcount node hmem)).congr
        (and_congr_right fun _ => and_iff_right (hwithin.labels node hmem)))
    fun _ _ _ hsplit => TopologyBuilder.addNode_again b₀ hwell hwithin hsplit
  have hports := reads_collection limits.maxPorts "port count exceeds the limit" hwell.ports
    (fun m => { b₁ with ports := m }) hprefixed.ports hwithin.ports
    (fun port hmem => reads_readPort limits (hwell.ports.of_mem_values hmem).1
      (hwell.nodes.valid_of_contains (hwell.ports.of_mem_values hmem).2))
    fun _ _ _ hsplit => TopologyBuilder.addPort_again b₁ hwell hwithin rfl hsplit
  have hlinks := reads_collection limits.maxLinks "link count exceeds the limit" hwell.links
    (fun m => { b₂ with links := m }) hprefixed.links hwithin.links
    (fun link hmem => reads_readLink limits (hwell.links.of_mem_values hmem).1
      (hwell.ports.valid_of_contains (hwell.links.of_mem_values hmem).2.2.1)
      (hwell.ports.valid_of_contains (hwell.links.of_mem_values hmem).2.2.2))
    fun _ _ _ hsplit => TopologyBuilder.addLink_again b₂ hwell hwithin rfl hsplit
  have hqueues := reads_collection limits.maxQueues "queue count exceeds the limit" hwell.queues
    (fun m => { b₃ with queues := m }) hprefixed.queues hwithin.queues
    (fun queue hmem => reads_readQueue limits (hwell.queues.of_mem_values hmem).1
      (hwell.links.valid_of_contains (hwell.queues.of_mem_values hmem).2.1))
    fun _ _ _ hsplit => TopologyBuilder.addQueue_again b₃ hwell hwithin rfl hsplit
  have hbuffers := reads_collection limits.maxBuffers "buffer count exceeds the limit"
    hwell.buffers (fun m => { b₄ with buffers := m }) hprefixed.buffers hwithin.buffers
    (fun buffer hmem => reads_readBuffer limits (hwell.buffers.of_mem_values hmem).1
      (hwell.ports.valid_of_contains (hwell.buffers.of_mem_values hmem).2))
    fun _ _ _ hsplit => TopologyBuilder.addBuffer_again b₄ hwell hwithin rfl hsplit
  have hpaths := reads_collection limits.maxPaths "path count exceeds the limit" hwell.paths
    (fun m => { b₅ with paths := m }) hprefixed.paths hwithin.paths
    (fun path hmem => (reads_readPath limits (hwell.paths.of_mem_values hmem).1
      (fun hop hhop => hwell.links.valid_of_contains
        ((hwell.paths.of_mem_values hmem).2.2 hop hhop)) (hprefixed.hops path hmem)).congr
        (and_congr_right fun _ => and_iff_right (hwithin.hops path hmem)))
    fun _ _ _ hsplit => TopologyBuilder.addPath_again b₅ hwell hwithin rfl hsplit
  have hflows := reads_collection limits.maxFlows "flow count exceeds the limit" hwell.flows
    (fun m => { b₆ with flows := m }) hprefixed.flows hwithin.flows
    (fun flow hmem => reads_readFlow limits (hwell.flows.of_mem_values hmem).1
      (hwell.paths.valid_of_contains (hwell.flows.of_mem_values hmem).2))
    fun _ _ _ hsplit => TopologyBuilder.addFlow_again b₆ hwell hwithin rfl hsplit
  -- A failure of one collection is not cleared by the next ones.
  have sflows := fun b => sticky_addEach limits.maxFlows "flow count exceeds the limit"
    (readFlow limits) TopologyBuilder.addFlow b
  have spaths := fun b => (sticky_addEach limits.maxPaths "path count exceeds the limit"
    (readPath limits) TopologyBuilder.addPath b).bind sflows
  have sbuffers := fun b => (sticky_addEach limits.maxBuffers "buffer count exceeds the limit"
    (readBuffer limits) TopologyBuilder.addBuffer b).bind spaths
  have squeues := fun b => (sticky_addEach limits.maxQueues "queue count exceeds the limit"
    (readQueue limits) TopologyBuilder.addQueue b).bind sbuffers
  have slinks := fun b => (sticky_addEach limits.maxLinks "link count exceeds the limit"
    (readLink limits) TopologyBuilder.addLink b).bind squeues
  have sports := fun b => (sticky_addEach limits.maxPorts "port count exceeds the limit"
    (readPort limits) TopologyBuilder.addPort b).bind slinks
  have snodes := fun b => (sticky_addEach limits.maxNodes "node count exceeds the limit"
    (readNode limits) TopologyBuilder.addNode b).bind sports
  have hcollections := hnodes.bind sports (hports.bind slinks (hlinks.bind squeues
    (hqueues.bind sbuffers (hbuffers.bind spaths (hpaths.bind sflows hflows)))))
  have hbytes : encodeTopologySection t = writeGeneration t.generation
      ++ (ByteWriter.text t.revisionLabel.str ++ (ByteWriter.list writeNode t.nodes.values
      ++ (ByteWriter.list writePort t.ports.values ++ (ByteWriter.list writeLink t.links.values
      ++ (ByteWriter.list writeQueue t.queues.values ++ (ByteWriter.list writeBuffer t.buffers.values
      ++ (ByteWriter.list writePath t.paths.values
      ++ ByteWriter.list writeFlow t.flows.values))))))) := by
    simp only [encodeTopologySection, List.append_assoc]
  rw [hbytes]
  refine Reads.congr ((reads_readGeneration t.generation).bind (fun _ => ?_)
    ((reads_readRevisionLabel limits t.revisionLabel).bind (fun _ => ?_) hcollections)) ?_
  · exact (sticky_readRevisionLabel limits).bind fun _ => snodes _
  · exact snodes _
  · constructor
    · rintro ⟨-, hlabel, hnodes, hports, hlinks, hqueues, hbuffers, hpaths, hflows⟩
      refine ⟨fun node hnode label hmem => ((hnodes node hnode).2 label hmem).1,
        fun flow hflow => ⟨(hflows flow hflow).2.2.1.1, (hflows flow hflow).2.2.2.1⟩,
        Topology.forall_texts.mpr ⟨hlabel, ?_, hports, hlinks, hqueues, hbuffers, hpaths, ?_⟩⟩
      · exact fun node hnode => ⟨(hnodes node hnode).1,
          fun label hmem => ((hnodes node hnode).2 label hmem).2⟩
      · exact fun flow hflow => ⟨(hflows flow hflow).1, (hflows flow hflow).2.1,
          (hflows flow hflow).2.2.1.2, (hflows flow hflow).2.2.2.2⟩
    · rintro ⟨hlabels, hattributed, hfits⟩
      obtain ⟨hlabel, hnodes, hports, hlinks, hqueues, hbuffers, hpaths, hflows⟩ :=
        Topology.forall_texts.mp hfits
      refine ⟨trivial, hlabel, ?_, hports, hlinks, hqueues, hbuffers, hpaths, ?_⟩
      · exact fun node hnode => ⟨(hnodes node hnode).1,
          fun label hmem => ⟨hlabels node hnode label hmem, (hnodes node hnode).2 label hmem⟩⟩
      · exact fun flow hflow => ⟨(hflows flow hflow).1, (hflows flow hflow).2.1,
          ⟨(hattributed flow hflow).1, (hflows flow hflow).2.2.1⟩,
          ⟨(hattributed flow hflow).2, (hflows flow hflow).2.2.2⟩⟩

/-- The section of a well-formed topology is accepted when the topology is, and the topology with
its collections is built from it. -/
theorem decodeTopologySection_wellFormed {t : Topology} {limits : Limits}
    (hwell : (t.toBuilder limits).WellFormed)
    (hcount : ∀ node ∈ t.nodes.values, node.labels.length ≤ 64) (hprefixed : t.Prefixed)
    (hwithin : (t.toBuilder limits).Within limits) (result : Topology) :
    decodeTopologySection (encodeTopologySection t) limits = .ok result ↔
      t.Accepted limits ∧ result = (t.toBuilder limits).assemble := by
  have hreads := reads_readTopology hwell hcount hprefixed hwithin
  have hbuild : (t.toBuilder limits).build limits = .ok (t.toBuilder limits).assemble :=
    seq_eq_ok.mpr ⟨TopologyBuilder.buildCheck_eq_ok hwell hwithin, rfl⟩
  unfold decodeTopologySection
  rw [bind_eq_ok]
  simp only [readWhole_iff_of_reads hreads]
  constructor
  · rintro ⟨b, ⟨haccepted, rfl⟩, hresult⟩
    rw [hbuild] at hresult
    exact ⟨haccepted, (Except.ok.inj hresult).symm⟩
  · rintro ⟨haccepted, rfl⟩
    exact ⟨_, ⟨haccepted, rfl⟩, hbuild⟩

/-- A topology that was built is accepted when its texts are within the bound, and it is the
topology that was written. -/
theorem decodeTopologySection_iff {t : Topology} {limits : Limits} (hbuilt : t.Built)
    (hcanonical : t.Canonical) (hprefixed : t.Prefixed)
    (hwithin : (t.toBuilder limits).Within limits) (result : Topology) :
    decodeTopologySection (encodeTopologySection t) limits = .ok result ↔
      t.Fits limits ∧ result = t := by
  obtain ⟨hwell, hassemble⟩ := hbuilt.toBuilder limits
  rw [decodeTopologySection_wellFormed hwell hcanonical.labelCount hprefixed hwithin, hassemble]
  have haccepted : t.Accepted limits ↔ t.Fits limits :=
    ⟨fun h => h.fits, fun h => ⟨hcanonical.labels, hcanonical.attributed, h⟩⟩
  rw [haccepted]

end CongestionObservatory
