import CongestionObservatory.Proofs.Persistence.Accepted
import CongestionObservatory.Proofs.Persistence.SaveLoad
import CongestionObservatory.Proofs.Runtime.Restore

/-!
# `CongestionObservatory.Proofs.Persistence.Decoded`: what a decoded snapshot may hold

`decode_snapshot` checks the bounds of the lists, the names and the identities. It casts numbers to
enumerations without a look at them, and it never calls `validate_evidence`.
`decoded_validated_iff` says what the fields of the file must be for the decoded content to be
valid. The fields are read off the bytes a second time (`rawEvidence`, `rawEpisode`, `rawNode`):
this reading knows the layout of the file and nothing else, and it leaves numbers as they stand.
`Mirrors` relates the two readings.

The flag for truncated evidence is not part of the file. `decoded_not_truncated` says that it is
lost whenever a content is written and read back.
-/

set_option autoImplicit false

namespace CongestionObservatory

open Lib ByteReader

/-! ### The fields of a file -/

/-- A text as it stands: its length, then its bytes. -/
def rawText : ByteReader Text := do
  let length ← u32
  take length.toNat

/-- A list as it stands: the number of its elements, then the elements. -/
def rawList {α : Type} (read : ByteReader α) : ByteReader (List α) := do
  let n ← u32
  times n.toNat read

/-- The numbers of a record that `decode_snapshot` does not check. -/
structure EvidenceFields where
  kind : UInt16
  subjectKind : UInt8
  source : Text
  authority : UInt8
  fenceSource : Text
  clock : UInt8
  scalar : UInt64
  unit : UInt8
  semantics : UInt8
  validity : Int64
  completeness : UInt8
  support : UInt8
  note : Text
  deriving DecidableEq

/-- The kind of a subject and its rendering. -/
def rawSubject : ByteReader UInt8 := do
  let kind ← u8
  let _ ← rawText
  pure kind

/-- The source and the authority of a provenance. -/
def rawProvenance : ByteReader (Text × UInt8) :=
  (fun source authority _ _ => (source, authority)) <$> rawText <*> u8 <*> rawText <*> rawText

/-- The source of a fence. -/
def rawFence : ByteReader Text :=
  (fun source _ _ _ _ => source) <$> rawText <*> u64 <*> u64 <*> readGeneration <*> u64

/-- The pattern, the unit and the semantics of a value. -/
def rawValue : ByteReader (UInt64 × UInt8 × UInt8) :=
  (fun bits unit semantics => (bits, unit, semantics)) <$> u64 <*> u8 <*> u8

/-- An entry of a record's metadata. -/
def rawMetadataEntry : ByteReader Unit := do
  let _ ← rawText
  let _ ← rawText
  pure ()

/-- A record of the evidence section. -/
def rawEvidence : ByteReader EvidenceFields :=
  (fun _ kind subjectKind provenance fenceSource _ _ clock value validity completeness support _ _
      note _ _ =>
    { kind := kind, subjectKind := subjectKind, source := provenance.1, authority := provenance.2
      fenceSource := fenceSource, clock := clock, scalar := value.1, unit := value.2.1
      semantics := value.2.2, validity := validity, completeness := completeness
      support := support, note := note })
    <$> (digestId : ByteReader EvidenceId) <*> u16 <*> rawSubject <*> rawProvenance <*> rawFence
    <*> i64 <*> i64 <*> u8 <*> rawValue <*> i64 <*> u8 <*> u8 <*> u8 <*> u8 <*> rawText
    <*> rawList rawText <*> rawList rawMetadataEntry

/-- The numbers of a transition that stand for enumerators. -/
structure TransitionFields where
  kind : UInt8
  severityBefore : UInt8
  severityAfter : UInt8
  verdictBefore : UInt8
  verdictAfter : UInt8
  deriving DecidableEq

/-- A transition of an episode. -/
def rawTransition : ByteReader TransitionFields :=
  (fun _ kind _ severityBefore severityAfter verdictBefore verdictAfter _ _ _ =>
    { kind := kind, severityBefore := severityBefore, severityAfter := severityAfter
      verdictBefore := verdictBefore, verdictAfter := verdictAfter })
    <$> u64 <*> u8 <*> i64 <*> u8 <*> u8 <*> u8 <*> u8 <*> u32 <*> rawText
    <*> rawList (digestId : ByteReader EvidenceId)

/-- The verdict and the severity of an assessment of an episode. -/
def rawAssessmentDigest : ByteReader (UInt8 × UInt8) :=
  (fun _ verdict _ severity _ _ _ _ => (verdict, severity))
    <$> i64 <*> u8 <*> u32 <*> u8 <*> u32 <*> u32 <*> u8 <*> (digestId : ByteReader EvidenceId)

/-- The numbers of an episode that stand for enumerators. -/
structure EpisodeFields where
  mechanism : UInt8
  state : UInt8
  currentSeverity : UInt8
  peakSeverity : UInt8
  transitions : List TransitionFields
  assessments : List (UInt8 × UInt8)
  deriving DecidableEq

/-- The mechanism of an episode's key. -/
def rawEpisodeKey : ByteReader UInt8 :=
  (fun _ _ mechanism _ _ => mechanism) <$> rawSubject <*> rawText <*> u8 <*> readGeneration
    <*> rawText

/-- An episode of the episode section. -/
def rawEpisode : ByteReader EpisodeFields :=
  (fun _ mechanism state _ currentSeverity peakSeverity _ _ _ _ _ _ _ _ transitions assessments
      _ _ _ =>
    { mechanism := mechanism, state := state, currentSeverity := currentSeverity
      peakSeverity := peakSeverity, transitions := transitions, assessments := assessments })
    <$> (digestId : ByteReader EpisodeId) <*> rawEpisodeKey <*> u8 <*> u64 <*> u8 <*> u8 <*> u32
    <*> i64 <*> i64 <*> i64 <*> i64 <*> u64 <*> rawList (digestId : ByteReader EvidenceId)
    <*> rawList rawText <*> rawList rawTransition <*> rawList rawAssessmentDigest
    <*> u64 <*> u64 <*> u8

/-- The kind of a node. -/
def rawNode : ByteReader UInt8 :=
  (fun _ kind _ => kind) <$> rawText <*> u8 <*> rawList rawText

/-- The nodes, which come first in the topology section after its generation and its label. -/
def rawNodes : ByteReader (List UInt8) := do
  let _ ← readGeneration
  let _ ← rawText
  rawList rawNode

/-- Bytes that are not looked at. -/
def skip : Nat → ByteReader Unit
  | 0 => pure ()
  | n + 1 => do
    let _ ← u8
    skip n

/-- The two numbers of the version. -/
def rawVersion : ByteReader Unit := do
  let _ ← u32
  let _ ← u32
  pure ()

/-- The number of sections in the header. -/
def rawHeader : ByteReader UInt32 := do
  skip kSnapshotMagic.length
  rawVersion
  (fun _ _ _ _ count _ _ => count) <$> u64 <*> u64 <*> u64 <*> i64 <*> u32 <*> u64 <*> u64

/-- The section table of a file. -/
def rawTable : ByteReader (List SnapshotSection) := do
  let count ← rawHeader
  times count.toNat readSection

/-- What a reader finds at the start of some bytes. -/
def readAt {α : Type} (read : ByteReader α) (bytes : Text) : Option (α × Text) :=
  match read ⟨bytes, none⟩ with
  | .ok (a, c) => some (a, c.rest)
  | .error _ => none

/-- The bytes of a section of the file. -/
def fileSection (bytes : Text) (id : UInt32) : Option Text :=
  (readAt rawTable bytes).bind fun found => sectionOf found.2 found.1 id

/-- What a reader finds in a section of the file. -/
def fieldsIn {α : Type} (bytes : Text) (id : UInt32) (read : ByteReader (List α)) : List α :=
  (((fileSection bytes id).bind (readAt read)).map Prod.fst).getD []

/-- The kinds of the nodes. -/
def nodeFields (bytes : Text) : List UInt8 := fieldsIn bytes SnapshotSectionId.topology rawNodes

/-- The episodes. -/
def episodeFields (bytes : Text) : List EpisodeFields :=
  fieldsIn bytes SnapshotSectionId.episodes (rawList rawEpisode)

/-- The records. More of them than the limit allows are not there, and the section must end. -/
def evidenceFields (limits : Limits) (bytes : Text) : List EvidenceFields :=
  fieldsIn bytes SnapshotSectionId.evidence do
    let n ← u32
    times (if n.toNat > limits.maxSnapshotEvidence then 0 else n.toNat) rawEvidence

/-! ### The two readings -/

section

variable {limits : Limits}

theorem mirrors_enum8 {E : Type} [ScopedEnum E UInt8] :
    Mirrors (enum8 : ByteReader E) u8 fun e code => e = ofUnderlying code :=
  (Mirrors.refl sticky_u8).mapLeft fun _ _ h => by rw [h]

/-- Whether a flag is set does not matter here. -/
theorem mirrors_boolean : Mirrors boolean u8 fun _ _ => True :=
  (Mirrors.refl sticky_u8).mapLeft fun _ _ _ => trivial

/-- A check of `ok` in a decoder that ends without a failure was passed. -/
theorem Mirrors.afterOk {α β : Type} {k : Bool → ByteReader α} {d' : ByteReader β}
    {R : α → β → Prop} (hsticky : Sticky (k false)) (h : Mirrors (k true) d' R) :
    Mirrors (Decoder.ok >>= k) d' R := by
  refine ⟨sticky_ok hsticky, fun c a c' hread hnone => ?_⟩
  have hrun : (Decoder.ok >>= k) c = k c.failure.isNone c := rfl
  cases hfailure : c.failure with
  | none =>
      rw [hrun, hfailure] at hread
      exact h.mirrors c a c' hread hnone
  | some failure =>
      exact absurd hnone (sticky_ok hsticky c (by rw [hfailure]; simp) a c' hread)

/-- A decoder that notes a failure mirrors everything. -/
theorem mirrors_fail {α β : Type} (what : String) (a : α) (d' : ByteReader β) (R : α → β → Prop) :
    Mirrors (do fail what; pure a) d' R := by
  refine ⟨(Sticky.note _).bind fun _ => Sticky.pure a, fun c a' c' hread hnone => ?_⟩
  cases hread
  simp at hnone

theorem mirrors_text : Mirrors (text limits) rawText (· = ·) := by
  refine (Mirrors.refl sticky_u32).bind (fun _ => sticky_ok (Sticky.pure [])) ?_
  rintro length _ rfl
  refine Mirrors.afterOk (Sticky.pure []) ?_
  refine ⟨?_, fun c a c' hread hnone => ?_⟩
  · intro c hc a c' hread
    simp only [if_true] at hread
    obtain ⟨remaining, c₁, hremaining, hread⟩ := Decoder.bind_eq_ok.mp hread
    cases hremaining
    split at hread
    · cases hread
      simp
    · cases hread
      exact hc
  · simp only [if_true] at hread
    obtain ⟨remaining, c₁, hremaining, hread⟩ := Decoder.bind_eq_ok.mp hread
    cases hremaining
    split at hread
    · cases hread
      simp at hnone
    · exact ⟨a, hread, rfl⟩

theorem mirrors_parsed {α : Type} (parse : Text → Result α) :
    Mirrors (parsed limits parse) rawText fun a text => parse text = .ok a := by
  have hbind : Mirrors (parsed limits parse) (rawText >>= pure) fun a text => parse text = .ok a := by
    refine mirrors_text.bind (fun text => ?_) ?_
    · cases parse text with
      | error e => exact Sticky.throw e
      | ok a => exact Sticky.pure a
    · rintro text _ rfl
      cases hparse : parse text with
      | error e => exact Mirrors.throw e _
      | ok a => exact Mirrors.pure hparse
  rwa [bind_pure] at hbind

theorem mirrors_count (bound : Nat) (what : String) :
    Mirrors (count bound what) u32 fun n value => n = value.toNat ∧ n ≤ bound := by
  have hbind : Mirrors (count bound what) (u32 >>= pure) fun n value =>
      n = value.toNat ∧ n ≤ bound := by
    refine (Mirrors.refl sticky_u32).bind (fun _ => sticky_ok (Sticky.pure 0)) ?_
    rintro value _ rfl
    refine Mirrors.afterOk (Sticky.pure 0) ?_
    rw [if_pos rfl]
    split
    · exact mirrors_fail what 0 _ _
    · rename_i hbound
      exact Mirrors.pure ⟨rfl, Nat.not_lt.mp hbound⟩
  rwa [bind_pure] at hbind

theorem mirrors_times {α β : Type} {read : ByteReader α} {read' : ByteReader β}
    {R : α → β → Prop} (h : Mirrors read read' R) (n : Nat) :
    Mirrors (times n read) (times n read') (List.Forall₂ R) := by
  refine Mirrors.loop (fun l l' hl => ?_) n List.Forall₂.nil
  refine h.bind (fun _ => Sticky.pure _) fun a b hab => Mirrors.pure ?_
  exact List.rel_append hl (List.Forall₂.cons hab List.Forall₂.nil)

theorem mirrors_list {α β : Type} {read : ByteReader α} {read' : ByteReader β}
    {R : α → β → Prop} (h : Mirrors read read' R) (bound : Nat) (what : String) :
    Mirrors (list bound what read) (rawList read') fun l l' =>
      l.length ≤ bound ∧ List.Forall₂ R l l' := by
  refine (mirrors_count bound what).bind (fun n => sticky_times n read) ?_
  rintro n value ⟨rfl, hbound⟩
  refine ⟨sticky_times _ _, fun c l c' hread hnone => ?_⟩
  obtain ⟨l', hread', hl⟩ := (mirrors_times h value.toNat).mirrors c l c' hread hnone
  exact ⟨l', hread', by rw [times_length hread hnone]; exact hbound, hl⟩

/-- A subject that is parsed is not the empty one. -/
theorem valid_of_parseSubject {text : Text} {subject : EvidenceSubject}
    (h : parseSubject text = .ok subject) : subject.valid = true := by
  have hname := nameText_of_parseSubject h
  cases subject with
  | none => exact absurd rfl hname
  | _ id => rfl

theorem mirrors_readSubject :
    Mirrors (readSubject limits) rawSubject fun subject kind => subject.valid = true ↔ kind ≠ 0 := by
  refine (Mirrors.refl sticky_u8).bind (fun _ => ?_) ?_
  · exact (sticky_text limits).bind fun _ => sticky_ok (Sticky.pure _)
  rintro kind _ rfl
  refine mirrors_text.bind (fun _ => sticky_ok (Sticky.pure _)) ?_
  rintro text _ rfl
  refine Mirrors.afterOk (Sticky.pure _) ?_
  rw [if_pos rfl]
  by_cases hkind : kind = SubjectKind.none.toUInt8
  · rw [if_pos hkind]
    exact Mirrors.pure (iff_of_false (by decide) (not_not.mpr hkind))
  · rw [if_neg hkind]
    cases hparse : parseSubject text with
    | error e => exact mirrors_fail _ _ _ _
    | ok subject => exact Mirrors.pure (iff_of_true (valid_of_parseSubject hparse) hkind)

/-- The decoded record has the fields of the file, and its lists are within their bounds. -/
structure EvidenceRecord.Holds (limits : Limits) (r : EvidenceRecord) (w : EvidenceFields) :
    Prop where
  kind : r.kind = ofUnderlying w.kind
  subject : r.subject.valid = true ↔ w.subjectKind ≠ 0
  source : (EntityId.parse w.source : Result SourceId) = .ok r.provenance.source
  authority : r.provenance.authority = ofUnderlying w.authority
  fenceSource : (EntityId.parse w.fenceSource : Result SourceId) = .ok r.fence.source
  clock : r.clock = ofUnderlying w.clock
  scalar : r.value.scalar = ⟨w.scalar⟩
  unit : r.value.unit = ofUnderlying w.unit
  semantics : r.value.semantics = ofUnderlying w.semantics
  validity : r.validity = ⟨w.validity⟩
  completeness : r.completeness = ofUnderlying w.completeness
  support : r.support = ofUnderlying w.support
  note : r.note = w.note
  labels : r.labels.length ≤ limits.maxLabels ∧ ∀ label ∈ r.labels, label.valid = true
  metadata : r.metadata.length ≤ limits.maxMetadataEntries ∧ ∀ entry ∈ r.metadata,
    entry.1.length ≤ limits.maxMetadataKeyBytes ∧ entry.2.length ≤ limits.maxMetadataValueBytes

theorem mirrors_readProvenance : Mirrors (readProvenance limits) rawProvenance fun p w =>
    (EntityId.parse w.1 : Result SourceId) = .ok p.source ∧ p.authority = ofUnderlying w.2 := by
  refine Mirrors.seq (Mirrors.seq (Mirrors.seq (Mirrors.map (mirrors_parsed _) ?_) mirrors_enum8)
    mirrors_text) mirrors_text
  intro source w hsource authority code hauthority _ _ _ _ _ _
  exact ⟨hsource, hauthority⟩

theorem mirrors_readFence : Mirrors (readFence limits) rawFence fun f source =>
    (EntityId.parse source : Result SourceId) = .ok f.source := by
  refine Mirrors.seq (Mirrors.seq (Mirrors.seq (Mirrors.seq (Mirrors.map (mirrors_parsed _) ?_)
    (Mirrors.any sticky_u64)) (Mirrors.any sticky_u64)) (Mirrors.any sticky_readGeneration))
    (Mirrors.any sticky_u64)
  intro source w hsource _ _ _ _ _ _ _ _ _ _ _ _
  exact hsource

theorem mirrors_readValue : Mirrors readValue rawValue fun v w =>
    v.scalar = ⟨w.1⟩ ∧ v.unit = ofUnderlying w.2.1 ∧ v.semantics = ofUnderlying w.2.2 := by
  have hscalar : Mirrors (Double.mk <$> u64) u64 fun scalar bits => scalar = ⟨bits⟩ :=
    (Mirrors.refl sticky_u64).mapLeft fun _ _ h => by rw [h]
  refine Mirrors.seq (Mirrors.seq (Mirrors.map hscalar ?_) mirrors_enum8) mirrors_enum8
  intro scalar bits hbits unit code hunit semantics code' hsemantics
  exact ⟨hbits, hunit, hsemantics⟩

theorem mirrors_readMetadataEntry : Mirrors (readMetadataEntry limits) rawMetadataEntry fun entry _ =>
    entry.1.length ≤ limits.maxMetadataKeyBytes ∧
      entry.2.length ≤ limits.maxMetadataValueBytes := by
  have hcheck : ∀ key value : Text, Sticky (if key.length > limits.maxMetadataKeyBytes ∨
      value.length > limits.maxMetadataValueBytes then
        throw (makeError .limitExceeded "metadata entry exceeds the configured bound")
      else pure (key, value) : ByteReader (Text × Text)) := by
    intro key value
    split
    · exact Sticky.throw _
    · exact Sticky.pure _
  refine mirrors_text.bind (fun key => (sticky_text limits).bind (hcheck key)) ?_
  rintro key _ -
  refine mirrors_text.bind (hcheck key) ?_
  rintro value _ -
  split
  · exact Mirrors.throw _ _
  · rename_i hbounds
    simp only [not_or, Nat.not_lt] at hbounds
    exact Mirrors.pure hbounds

/-- What related elements share holds for all of one list when it holds for all of the other. -/
theorem forall_mem_iff_of_forall₂ {α β : Type} {R : α → β → Prop} {P : α → Prop} {Q : β → Prop}
    {l : List α} {l' : List β} (h : List.Forall₂ R l l') (hR : ∀ a b, R a b → (P a ↔ Q b)) :
    (∀ a ∈ l, P a) ↔ ∀ b ∈ l', Q b := by
  induction h with
  | nil => simp
  | cons hab _ ih => rw [List.forall_mem_cons, List.forall_mem_cons, hR _ _ hab, ih]

theorem forall_mem_of_forall₂ {α β : Type} {R : α → β → Prop} {P : α → Prop} {l : List α}
    {l' : List β} (h : List.Forall₂ R l l') (hR : ∀ a b, R a b → P a) : ∀ a ∈ l, P a :=
  (forall_mem_iff_of_forall₂ (Q := fun _ => True) h fun a b hab => iff_of_true (hR a b hab)
    trivial).mpr fun _ _ => trivial

theorem mirrors_readEvidenceFields :
    Mirrors (readEvidenceFields limits) rawEvidence (EvidenceRecord.Holds limits) := by
  refine Mirrors.seq (Mirrors.seq (Mirrors.seq (Mirrors.seq (Mirrors.seq (Mirrors.seq (Mirrors.seq
    (Mirrors.seq (Mirrors.seq (Mirrors.seq (Mirrors.seq (Mirrors.seq (Mirrors.seq (Mirrors.seq
    (Mirrors.seq (Mirrors.seq (Mirrors.map (Mirrors.any sticky_digestId) ?_)
    (Mirrors.refl sticky_u16)) mirrors_readSubject) mirrors_readProvenance) mirrors_readFence)
    (Mirrors.any sticky_i64)) (Mirrors.any sticky_i64)) mirrors_enum8) mirrors_readValue)
    (Mirrors.refl sticky_i64)) mirrors_enum8) mirrors_enum8) mirrors_boolean) mirrors_boolean)
    mirrors_text) (mirrors_list (mirrors_parsed _) _ _))
    (mirrors_list mirrors_readMetadataEntry _ _)
  rintro id _ - kind _ rfl subject subjectKind hsubject provenance w hprovenance fence fenceSource
    hfence _ _ - _ _ - clock _ hclock value v hvalue validity _ rfl completeness _ hcompleteness
    support _ hsupport _ _ - _ _ - note _ rfl labels texts hlabels metadata units hmetadata
  exact
    { kind := rfl, subject := hsubject, source := hprovenance.1, authority := hprovenance.2
      fenceSource := hfence, clock := hclock, scalar := hvalue.1, unit := hvalue.2.1
      semantics := hvalue.2.2, validity := rfl, completeness := hcompleteness
      support := hsupport, note := rfl
      labels := ⟨hlabels.1, forall_mem_of_forall₂ hlabels.2 fun _ _ => Name.parse_ok_valid⟩
      metadata := ⟨hmetadata.1, forall_mem_of_forall₂ hmetadata.2 fun _ _ h => h⟩ }

/-- What is read is checked at the end: the check of `ok`, then one of the value. -/
theorem mirrors_checked {α β : Type} {read : ByteReader α} {read' : ByteReader β}
    {R : α → β → Prop} (h : Mirrors read read' R) (message : String) {check : α → ByteReader α}
    {P : α → Prop} (hsticky : ∀ a, Sticky (check a))
    (hcheck : ∀ a c a' c', check a c = .ok (a', c') → a' = a ∧ c' = c ∧ P a) :
    Mirrors (do
      let a ← read
      checkOk message
      check a) read' fun a b => R a b ∧ P a := by
  refine ⟨h.sticky.bind fun a => (sticky_checkOk message).bind fun _ => hsticky a,
    fun c a c' hread hnone => ?_⟩
  obtain ⟨a₁, c₁, hfirst, hrest⟩ := Decoder.bind_eq_ok.mp hread
  obtain ⟨u, c₂, hok, hlast⟩ := Decoder.bind_eq_ok.mp hrest
  obtain ⟨rfl, hnone₁⟩ := checkOk_eq_ok hok
  obtain ⟨rfl, rfl, hP⟩ := hcheck a₁ _ a c' hlast
  obtain ⟨b, hb, hR⟩ := h.mirrors c a _ hfirst hnone₁
  exact ⟨b, hb, hR, hP⟩

/-- The check of an identity. -/
theorem mirrors_identity {α β : Type} {read : ByteReader α} {read' : ByteReader β}
    {R : α → β → Prop} (h : Mirrors read read' R) (message : String) (differs : α → Prop)
    [DecidablePred differs] (error : α → Error) :
    Mirrors (do
      let a ← read
      checkOk message
      if differs a then throw (error a) else pure a) read' fun a b => R a b ∧ ¬ differs a := by
  refine mirrors_checked h message (fun a => ?_) fun a c a' c' hread => ?_
  · split
    · exact Sticky.throw _
    · exact Sticky.pure _
  · by_cases hdiffers : differs a
    · rw [if_pos hdiffers] at hread
      cases hread
    · rw [if_neg hdiffers] at hread
      cases hread
      exact ⟨rfl, rfl, hdiffers⟩

theorem mirrors_readEvidence : Mirrors (readEvidence limits) rawEvidence fun r w =>
    r.Holds limits w ∧ computeEvidenceId r = r.id :=
  (mirrors_identity mirrors_readEvidenceFields "evidence section is malformed"
    (fun r => computeEvidenceId r ≠ r.id) _).imp fun _ _ h => ⟨h.1, not_not.mp h.2⟩

/-- The decoded transition has the fields of the file. -/
structure EpisodeTransition.Holds (t : EpisodeTransition) (w : TransitionFields) : Prop where
  kind : t.kind = ofUnderlying w.kind
  severityBefore : t.severityBefore = ofUnderlying w.severityBefore
  severityAfter : t.severityAfter = ofUnderlying w.severityAfter
  verdictBefore : t.verdictBefore = ofUnderlying w.verdictBefore
  verdictAfter : t.verdictAfter = ofUnderlying w.verdictAfter

theorem mirrors_readTransition :
    Mirrors (readTransition limits) rawTransition EpisodeTransition.Holds := by
  refine Mirrors.seq (Mirrors.seq (Mirrors.seq (Mirrors.seq (Mirrors.seq (Mirrors.seq (Mirrors.seq
    (Mirrors.seq (Mirrors.seq (Mirrors.map (Mirrors.any sticky_u64) ?_) mirrors_enum8)
    (Mirrors.any sticky_i64)) mirrors_enum8) mirrors_enum8) mirrors_enum8) mirrors_enum8)
    (Mirrors.any sticky_u32)) mirrors_text) (mirrors_list (Mirrors.any sticky_digestId) _ _)
  rintro _ _ - kind _ hkind _ _ - before _ hbefore after _ hafter verdict _ hverdict verdict' _
    hverdict' _ _ - _ _ - _ _ -
  exact ⟨hkind, hbefore, hafter, hverdict, hverdict'⟩

/-- The decoded assessment has the fields of the file. -/
structure AssessmentDigest.Holds (d : AssessmentDigest) (w : UInt8 × UInt8) : Prop where
  verdict : d.verdict = ofUnderlying w.1
  severity : d.severity = ofUnderlying w.2

theorem mirrors_readAssessmentDigest :
    Mirrors readAssessmentDigest rawAssessmentDigest AssessmentDigest.Holds := by
  refine Mirrors.seq (Mirrors.seq (Mirrors.seq (Mirrors.seq (Mirrors.seq (Mirrors.seq (Mirrors.seq
    (Mirrors.map (Mirrors.any sticky_i64) ?_) mirrors_enum8) (Mirrors.any sticky_u32))
    mirrors_enum8) (Mirrors.any sticky_u32)) (Mirrors.any sticky_u32)) mirrors_boolean)
    (Mirrors.any sticky_digestId)
  rintro _ _ - verdict _ hverdict _ _ - severity _ hseverity _ _ - _ _ - _ _ - _ _ -
  exact ⟨hverdict, hseverity⟩

/-- The decoded episode has the fields of the file. -/
structure Episode.Holds (e : Episode) (w : EpisodeFields) : Prop where
  mechanism : e.key.mechanism = ofUnderlying w.mechanism
  state : e.state = ofUnderlying w.state
  currentSeverity : e.currentSeverity = ofUnderlying w.currentSeverity
  peakSeverity : e.peakSeverity = ofUnderlying w.peakSeverity
  transitions : List.Forall₂ EpisodeTransition.Holds e.transitions w.transitions
  assessments : List.Forall₂ AssessmentDigest.Holds e.assessments w.assessments

theorem mirrors_readEpisodeKey : Mirrors (readEpisodeKey limits) rawEpisodeKey fun key mechanism =>
    key.mechanism = ofUnderlying mechanism := by
  refine Mirrors.seq (Mirrors.seq (Mirrors.seq (Mirrors.seq (Mirrors.map mirrors_readSubject ?_)
    (mirrors_parsed _)) mirrors_enum8) (Mirrors.any sticky_readGeneration)) mirrors_text
  rintro _ _ - _ _ - mechanism _ hmechanism _ _ - _ _ -
  exact hmechanism

theorem mirrors_readEpisodeFields : Mirrors (readEpisodeFields limits) rawEpisode Episode.Holds := by
  refine Mirrors.seq (Mirrors.seq (Mirrors.seq (Mirrors.seq (Mirrors.seq (Mirrors.seq (Mirrors.seq
    (Mirrors.seq (Mirrors.seq (Mirrors.seq (Mirrors.seq (Mirrors.seq (Mirrors.seq (Mirrors.seq
    (Mirrors.seq (Mirrors.seq (Mirrors.seq (Mirrors.seq (Mirrors.map (Mirrors.any sticky_digestId)
    ?_) mirrors_readEpisodeKey) mirrors_enum8) (Mirrors.any sticky_u64)) mirrors_enum8)
    mirrors_enum8) (Mirrors.any sticky_u32)) (Mirrors.any sticky_i64)) (Mirrors.any sticky_i64))
    (Mirrors.any sticky_i64)) (Mirrors.any sticky_i64)) (Mirrors.any sticky_u64))
    (mirrors_list (Mirrors.any sticky_digestId) _ _)) (mirrors_list (mirrors_parsed _) _ _))
    (mirrors_list mirrors_readTransition _ _)) (mirrors_list mirrors_readAssessmentDigest _ _))
    (Mirrors.any sticky_u64)) (Mirrors.any sticky_u64)) mirrors_boolean
  rintro _ _ - key _ hmechanism state _ hstate _ _ - severity _ hseverity peak _ hpeak _ _ - _ _ -
    _ _ - _ _ - _ _ - _ _ - _ _ - _ _ - transitions _ htransitions assessments _ hassessments
    _ _ - _ _ - _ _ -
  exact ⟨hmechanism, hstate, hseverity, hpeak, htransitions.2, hassessments.2⟩

theorem mirrors_readEpisode : Mirrors (readEpisode limits) rawEpisode fun e w =>
    e.Holds w ∧ computeEpisodeId e.key = e.id :=
  (mirrors_identity mirrors_readEpisodeFields "episode section is malformed"
    (fun e => computeEpisodeId e.key ≠ e.id) _).imp fun _ _ h => ⟨h.1, not_not.mp h.2⟩

theorem mirrors_readNode : Mirrors (readNode limits) rawNode fun node kind =>
    node.kind = ofUnderlying kind := by
  refine Mirrors.seq (Mirrors.seq (Mirrors.map (mirrors_parsed _) ?_) mirrors_enum8)
    (mirrors_list (mirrors_parsed _) _ _)
  rintro _ _ - kind _ hkind _ _ -
  exact hkind

/-! ### The nodes of the topology -/

/-- The kinds of the nodes of a builder are those of the file, in some order. -/
def TopologyBuilder.HoldsKinds (b : TopologyBuilder) (kinds : List UInt8) : Prop :=
  (b.nodes.values.map Node.kind).Perm (kinds.map ofUnderlying)

theorem mirrors_addNodes (bound : Nat) (what : String) {b : TopologyBuilder}
    (hb : b.nodes = OrdMap.empty) :
    Mirrors (addEach bound what (readNode limits) TopologyBuilder.addNode b) (rawList rawNode)
      TopologyBuilder.HoldsKinds := by
  refine (mirrors_count bound what).bind (fun n => Sticky.loop _ n b) ?_
  rintro n value ⟨rfl, -⟩
  refine Mirrors.loop (fun b kinds hholds => ?_) _ ?_
  · refine mirrors_readNode.bind (fun node => ?_) fun node kind hkind => ?_
    · cases b.addNode node with
      | error e => exact Sticky.throw e
      | ok b' => exact Sticky.pure b'
    · cases hadd : b.addNode node with
      | error e => exact Mirrors.throw e _
      | ok b' =>
          -- A node that was added has a new name, so no other node is replaced.
          refine Mirrors.pure ?_
          obtain ⟨⟨-, hnew⟩, -, -, rfl⟩ := TopologyBuilder.addNode_eq_ok.mp hadd
          have hvalues := (OrdMap.values_insert_perm (v := node) hnew).map Node.kind
          unfold TopologyBuilder.HoldsKinds at hholds ⊢
          rw [OrdMap.emplace_of_new hnew, List.map_append, List.map_singleton, ← hkind]
          exact hvalues.trans ((hholds.cons _).trans (List.perm_append_singleton _ _).symm)
  · unfold TopologyBuilder.HoldsKinds
    rw [hb]
    exact List.Perm.nil

/-- A part of the reading that leaves the nodes as they are. -/
structure KeepsNodes (read : TopologyBuilder → ByteReader TopologyBuilder) : Prop where
  sticky : ∀ b, Sticky (read b)
  keeps : ∀ b, Yields (read b) fun b' => b'.nodes = b.nodes

theorem KeepsNodes.andThen {read next : TopologyBuilder → ByteReader TopologyBuilder}
    (h : KeepsNodes read) (hnext : KeepsNodes next) : KeepsNodes fun b => read b >>= next := by
  refine ⟨fun b => (h.sticky b).bind hnext.sticky, fun b => (h.keeps b).bind fun b₁ hb₁ => ?_⟩
  intro c b₂ c' hread
  rw [hnext.keeps b₁ c b₂ c' hread, hb₁]

/-- A collection other than the nodes leaves the nodes as they are. -/
theorem keepsNodes_addEach {α : Type} (bound : Nat) (what : String) (read : ByteReader α)
    {add : TopologyBuilder → α → Result TopologyBuilder}
    (hadd : ∀ b a b', add b a = .ok b' → b'.nodes = b.nodes) :
    KeepsNodes (addEach bound what read add) := by
  refine ⟨fun b => sticky_addEach bound what read add b, fun b => (Yields.any _).bind fun n _ => ?_⟩
  refine Yields.loop (fun _ (b' : TopologyBuilder) => b'.nodes = b.nodes) (fun _ _ h => h) ?_ n
    (k := 0) rfl
  intro _ b₁ hb₁
  refine (Yields.any _).bind fun a _ => ?_
  cases hresult : add b₁ a with
  | error e => exact Yields.throw e
  | ok b₂ => exact Yields.pure ((hadd b₁ a b₂ hresult).trans hb₁)

/-- The part of `decode_topology_section` after the nodes. -/
theorem keepsNodes_collections (limits : Limits) : KeepsNodes (fun b => do
    let b ← addEach limits.maxPorts "port count exceeds the limit" (readPort limits)
      TopologyBuilder.addPort b
    let b ← addEach limits.maxLinks "link count exceeds the limit" (readLink limits)
      TopologyBuilder.addLink b
    let b ← addEach limits.maxQueues "queue count exceeds the limit" (readQueue limits)
      TopologyBuilder.addQueue b
    let b ← addEach limits.maxBuffers "buffer count exceeds the limit" (readBuffer limits)
      TopologyBuilder.addBuffer b
    let b ← addEach limits.maxPaths "path count exceeds the limit" (readPath limits)
      TopologyBuilder.addPath b
    addEach limits.maxFlows "flow count exceeds the limit" (readFlow limits)
      TopologyBuilder.addFlow b) := by
  refine (keepsNodes_addEach _ _ _ ?_).andThen ((keepsNodes_addEach _ _ _ ?_).andThen
    ((keepsNodes_addEach _ _ _ ?_).andThen ((keepsNodes_addEach _ _ _ ?_).andThen
    ((keepsNodes_addEach _ _ _ ?_).andThen (keepsNodes_addEach _ _ _ ?_)))))
  · intro b a b' hadd
    obtain ⟨-, -, -, -, rfl⟩ := TopologyBuilder.addPort_eq_ok.mp hadd
    rfl
  · intro b a b' hadd
    obtain ⟨-, -, -, -, rfl⟩ := TopologyBuilder.addLink_eq_ok.mp hadd
    rfl
  · intro b a b' hadd
    obtain ⟨-, -, -, -, rfl⟩ := TopologyBuilder.addQueue_eq_ok.mp hadd
    rfl
  · intro b a b' hadd
    obtain ⟨-, -, -, rfl⟩ := TopologyBuilder.addBuffer_eq_ok.mp hadd
    rfl
  · intro b a b' hadd
    obtain ⟨-, -, -, -, -, rfl⟩ := TopologyBuilder.addPath_eq_ok.mp hadd
    rfl
  · intro b a b' hadd
    obtain ⟨-, -, -, rfl⟩ := TopologyBuilder.addFlow_eq_ok.mp hadd
    rfl

/-- The kinds of the nodes of a decoded topology are those of its section. -/
theorem kinds_of_readTopology {c c' : Cursor Text} {b : TopologyBuilder}
    (h : readTopology limits c = .ok (b, c')) (hnone : c'.failure = none) :
    ∃ kinds c₁, rawNodes c = .ok (kinds, c₁) ∧ b.HoldsKinds kinds := by
  obtain ⟨generation, c₁, hgeneration, h⟩ := Decoder.bind_eq_ok.mp h
  obtain ⟨label, c₂, hlabel, h⟩ := Decoder.bind_eq_ok.mp h
  obtain ⟨b₁, c₃, hnodes, hrest⟩ := Decoder.bind_eq_ok.mp h
  have hsame := (keepsNodes_collections limits).keeps b₁ c₃ b c' hrest
  have hnone₃ : c₃.failure = none := by
    by_contra hfailure
    exact (keepsNodes_collections limits).sticky b₁ c₃ hfailure b c' hrest hnone
  have hnone₂ : c₂.failure = none := by
    by_contra hfailure
    exact sticky_addEach _ _ _ _ _ c₂ hfailure b₁ c₃ hnodes hnone₃
  obtain ⟨text, htext, -⟩ := (mirrors_parsed _).mirrors c₁ label c₂ hlabel hnone₂
  obtain ⟨kinds, hkinds, hholds⟩ := (mirrors_addNodes _ _ rfl).mirrors c₂ b₁ c₃ hnodes hnone₃
  refine ⟨kinds, c₃, Decoder.bind_eq_ok.mpr ⟨generation, c₁, hgeneration, ?_⟩, ?_⟩
  · exact Decoder.bind_eq_ok.mpr ⟨text, c₂, htext, hkinds⟩
  · unfold TopologyBuilder.HoldsKinds at hholds ⊢
    rw [hsame]
    exact hholds

/-! ### The sections of a file -/

theorem mirrors_readMagic (expected : Text) :
    Mirrors (readMagic expected) (skip expected.length) fun _ _ => True := by
  induction expected with
  | nil => exact Mirrors.pure trivial
  | cons byte rest ih =>
      have hnext : ∀ read : UInt8, Sticky (if read ≠ byte then
          throw (makeError .integrityFailure "snapshot magic does not match")
        else readMagic rest : ByteReader Unit) := by
        intro read
        split
        · exact Sticky.throw _
        · exact sticky_readMagic rest
      refine (Mirrors.refl sticky_u8).bind hnext fun read _ _ => ?_
      split
      · exact Mirrors.throw _ _
      · exact ih

theorem mirrors_readVersion : Mirrors readVersion rawVersion fun _ _ => True := by
  refine ⟨sticky_readVersion, fun c u c' hread hnone => ?_⟩
  obtain ⟨major, c₁, hmajor, hread⟩ := Decoder.bind_eq_ok.mp hread
  obtain ⟨minor, c₂, hminor, hread⟩ := Decoder.bind_eq_ok.mp hread
  refine ⟨(), Decoder.bind_eq_ok.mpr ⟨major, c₁, hmajor, ?_⟩, trivial⟩
  refine Decoder.bind_eq_ok.mpr ⟨minor, c₂, hminor, ?_⟩
  split at hread
  · cases hread
  split at hread
  · cases hread
  · exact hread

/-- The last step of `readHeader`. It consumes nothing and writes nothing, so the raw reader has no
step for it. -/
def acceptHeader (limits : Limits) (policy : ClassificationPolicy) (header : SnapshotHeader) :
    ByteReader SnapshotHeader :=
  match checkHeader header limits policy with
  | .error e => throw e
  | .ok () => pure header

theorem mirrors_readHeader (policy : ClassificationPolicy) :
    Mirrors (readHeader limits policy) rawHeader fun header count =>
      header.sectionCount = count.toNat := by
  have hfields : Mirrors (SnapshotHeader.mk <$> u64 <*> u64 <*> u64 <*> i64
      <*> count limits.maxSnapshotSections "section count exceeds the limit" <*> u64 <*> u64)
      ((fun _ _ _ _ count _ _ => count) <$> u64 <*> u64 <*> u64 <*> i64 <*> u32 <*> u64 <*> u64)
      fun header count => header.sectionCount = count.toNat := by
    refine Mirrors.seq (Mirrors.seq (Mirrors.seq (Mirrors.seq (Mirrors.seq (Mirrors.seq
      (Mirrors.map (Mirrors.any sticky_u64) ?_) (Mirrors.any sticky_u64)) (Mirrors.any sticky_u64))
      (Mirrors.any sticky_i64)) (mirrors_count _ _)) (Mirrors.any sticky_u64))
      (Mirrors.any sticky_u64)
    rintro _ _ - _ _ - _ _ - _ _ - n value hn _ _ - _ _ -
    exact hn.1
  have hsticky : ∀ header, Sticky (acceptHeader limits policy header) := by
    intro header
    unfold acceptHeader
    split
    · exact Sticky.throw _
    · exact Sticky.pure header
  have hsame : ∀ header c header' c', acceptHeader limits policy header c = .ok (header', c') →
      header' = header ∧ c' = c ∧ True := by
    intro header c header' c' hread
    cases hheader : checkHeader header limits policy with
    | error e =>
        simp only [acceptHeader, hheader] at hread
        cases hread
    | ok u =>
        simp only [acceptHeader, hheader] at hread
        cases hread
        exact ⟨rfl, rfl, trivial⟩
  have hchecked := mirrors_checked hfields "snapshot header is malformed" hsticky hsame
  refine (mirrors_readMagic _).bind (fun _ => ?_) fun _ _ _ => ?_
  · exact sticky_readVersion.bind fun _ => hchecked.sticky
  · exact mirrors_readVersion.bind (fun _ => hchecked.sticky) fun _ _ _ =>
      hchecked.imp fun _ _ h => h.1

end

/-- What `decode_snapshot` decodes are the sections of the file. -/
theorem contentRead_of_decode {bytes : Text} {limits : Limits} {policy : ClassificationPolicy}
    {content : SnapshotContent} (h : decodeSnapshot bytes limits policy = .ok content) :
    ∃ digest, ContentRead digest limits policy (fileSection bytes) content := by
  obtain ⟨-, h⟩ := seq_eq_ok.mp h
  obtain ⟨⟨⟨header, table⟩, c⟩, hread, h⟩ := bind_eq_ok.mp h
  obtain ⟨-, h⟩ := seq_eq_ok.mp h
  obtain ⟨-, h⟩ := seq_eq_ok.mp h
  obtain ⟨sections, hsections, hcontent⟩ := bind_eq_ok.mp h
  obtain ⟨header', c₁, hheader, htail⟩ := Decoder.bind_eq_ok.mp hread
  obtain ⟨table', c₂, htable, hpure⟩ := Decoder.bind_eq_ok.mp htail
  cases hpure
  obtain ⟨found, c₃, htimes, hlast⟩ := Decoder.bind_eq_ok.mp htable
  obtain ⟨u, c₄, hok, hpure⟩ := Decoder.bind_eq_ok.mp hlast
  obtain ⟨rfl, hnone⟩ := checkOk_eq_ok hok
  cases hpure
  have hnone₁ : c₁.failure = none := by
    by_contra hfailure
    exact sticky_times _ _ c₁ hfailure _ _ htimes hnone
  obtain ⟨count, hcount, hsame⟩ := (mirrors_readHeader policy).mirrors _ _ _ hheader hnone₁
  rw [hsame] at htimes
  have hraw : rawTable ⟨bytes, none⟩ = .ok (table, c) :=
    Decoder.bind_eq_ok.mpr ⟨count, c₁, hcount, htimes⟩
  have hfile : fileSection bytes = sections.find? := by
    funext id
    obtain ⟨-, -, hfind⟩ := collectSections_ok_iff.mp hsections
    rw [hfind, fileSection, readAt, hraw]
    rfl
  rw [hfile]
  exact ⟨_, decodeContent_eq_ok_iff.mp hcontent⟩

/-! ### Valid contents -/

/-- Whether a value is one of the declared enumerators. -/
class Enumeration (E : Type) where
  declared : E → Bool

export Enumeration (declared)

instance : Enumeration EvidenceKind := ⟨fun | .undeclared _ _ => false | _ => true⟩
instance : Enumeration AuthorityLevel := ⟨fun | .undeclared _ _ => false | _ => true⟩
instance : Enumeration ClockDomain := ⟨fun | .undeclared _ _ => false | _ => true⟩
instance : Enumeration ObservationUnit := ⟨fun | .undeclared _ _ => false | _ => true⟩
instance : Enumeration ValueSemantics := ⟨fun | .undeclared _ _ => false | _ => true⟩
instance : Enumeration Completeness := ⟨fun | .undeclared _ _ => false | _ => true⟩
instance : Enumeration Support := ⟨fun | .undeclared _ _ => false | _ => true⟩
instance : Enumeration Mechanism := ⟨fun | .undeclared _ _ => false | _ => true⟩
instance : Enumeration EpisodeState := ⟨fun | .undeclared _ _ => false | _ => true⟩
instance : Enumeration Severity := ⟨fun | .undeclared _ _ => false | _ => true⟩
instance : Enumeration EpisodeTransitionKind := ⟨fun | .undeclared _ _ => false | _ => true⟩
instance : Enumeration Verdict := ⟨fun | .undeclared _ _ => false | _ => true⟩
instance : Enumeration NodeKind := ⟨fun | .undeclared _ _ => false | _ => true⟩

/-- The enumerations of a record hold declared enumerators. -/
structure EvidenceRecord.Declared (r : EvidenceRecord) : Prop where
  kind : declared r.kind = true
  authority : declared r.provenance.authority = true
  clock : declared r.clock = true
  unit : declared r.value.unit = true
  semantics : declared r.value.semantics = true
  completeness : declared r.completeness = true
  support : declared r.support = true

/-- The enumerations of a transition hold declared enumerators. -/
structure EpisodeTransition.Declared (t : EpisodeTransition) : Prop where
  kind : declared t.kind = true
  severityBefore : declared t.severityBefore = true
  severityAfter : declared t.severityAfter = true
  verdictBefore : declared t.verdictBefore = true
  verdictAfter : declared t.verdictAfter = true

/-- The enumerations of an assessment hold declared enumerators. -/
structure AssessmentDigest.Declared (d : AssessmentDigest) : Prop where
  verdict : declared d.verdict = true
  severity : declared d.severity = true

/-- The enumerations of an episode hold declared enumerators. -/
structure Episode.Declared (e : Episode) : Prop where
  mechanism : declared e.key.mechanism = true
  state : declared e.state = true
  currentSeverity : declared e.currentSeverity = true
  peakSeverity : declared e.peakSeverity = true
  transitions : ∀ t ∈ e.transitions, t.Declared
  assessments : ∀ d ∈ e.assessments, d.Declared

/-- A content is valid: its records pass `validate_evidence`, also when they are recovered one
after the other into an empty store, its enumerations hold declared enumerators, and its identities
are those of what they identify. -/
structure SnapshotContent.Valid (limits : Limits) (content : SnapshotContent) : Prop where
  records : ∀ r ∈ content.evidence, validateEvidence r limits = .ok ()
  evidence : ∀ r ∈ content.evidence, r.Declared
  episodes : ∀ e ∈ content.episodes, e.Declared
  nodes : ∀ node ∈ content.topology.nodes.values, declared node.kind = true
  evidenceIds : ∀ r ∈ content.evidence, computeEvidenceId r = r.id
  episodeIds : ∀ e ∈ content.episodes, computeEpisodeId e.key = e.id
  recovered : ∀ before r after, content.evidence = before ++ r :: after →
    validateEvidence r (before.foldl (fun s r => (s.ingestRecovered r).2)
      ({ limits := limits } : EvidenceStore)).limits = .ok ()

/-- The number stands for a declared enumerator of the enumeration. -/
def IsEnumerator (E : Type) {U : Type} [ScopedEnum E U] [Enumeration E] (code : U) : Prop :=
  declared (ofUnderlying code : E) = true

theorem declared_iff_isEnumerator {E U : Type} [ScopedEnum E U] [Enumeration E] {e : E} {code : U}
    (h : e = ofUnderlying code) : declared e = true ↔ IsEnumerator E code := by
  rw [h, IsEnumerator]

/-- What the fields of a record must be for the record to be valid. -/
structure EvidenceFields.Valid (limits : Limits) (w : EvidenceFields) : Prop where
  kind : IsEnumerator EvidenceKind w.kind ∧ (ofUnderlying w.kind : EvidenceKind) ≠ .unknown
  subject : w.subjectKind ≠ 0
  source : w.fenceSource = w.source
  authority : IsEnumerator AuthorityLevel w.authority
  clock : IsEnumerator ClockDomain w.clock
  scalar : (Double.mk w.scalar).isFinite = true
  unit : IsEnumerator ObservationUnit w.unit
  supported : (ofUnderlying w.support : Support) = .supported →
    (ofUnderlying w.unit : ObservationUnit) ≠ .unknown
  semantics : IsEnumerator ValueSemantics w.semantics
  validity : (Duration.mk w.validity).isNegative = false
  completeness : IsEnumerator Completeness w.completeness
  support : IsEnumerator Support w.support
  note : w.note.length ≤ limits.maxNoteBytes

/-- What the fields of a transition must be. -/
structure TransitionFields.Valid (w : TransitionFields) : Prop where
  kind : IsEnumerator EpisodeTransitionKind w.kind
  severityBefore : IsEnumerator Severity w.severityBefore
  severityAfter : IsEnumerator Severity w.severityAfter
  verdictBefore : IsEnumerator Verdict w.verdictBefore
  verdictAfter : IsEnumerator Verdict w.verdictAfter

/-- What the fields of an episode must be. -/
structure EpisodeFields.Valid (w : EpisodeFields) : Prop where
  mechanism : IsEnumerator Mechanism w.mechanism
  state : IsEnumerator EpisodeState w.state
  currentSeverity : IsEnumerator Severity w.currentSeverity
  peakSeverity : IsEnumerator Severity w.peakSeverity
  transitions : ∀ t ∈ w.transitions, t.Valid
  assessments : ∀ d ∈ w.assessments, IsEnumerator Verdict d.1 ∧ IsEnumerator Severity d.2

/-- What the fields of a file must be for its content to be valid. -/
structure FileValid (limits : Limits) (bytes : Text) : Prop where
  evidence : ∀ w ∈ evidenceFields limits bytes, w.Valid limits
  episodes : ∀ w ∈ episodeFields bytes, w.Valid
  nodes : ∀ kind ∈ nodeFields bytes, IsEnumerator NodeKind kind

theorem EntityId.parse_inj {Tag : Type} {text text' : Text} {id id' : EntityId Tag}
    (h : EntityId.parse text = .ok id) (h' : EntityId.parse text' = .ok id') :
    id = id' ↔ text = text' := by
  constructor
  · rintro rfl
    rw [← (EntityId.parse_ok h).1, ← (EntityId.parse_ok h').1]
  · rintro rfl
    rw [h] at h'
    cases h'
    rfl

/-- A decoded record is valid when its fields are. -/
theorem EvidenceRecord.Holds.valid_iff {limits : Limits} {r : EvidenceRecord} {w : EvidenceFields}
    (h : r.Holds limits w) :
    validateEvidence r limits = .ok () ∧ r.Declared ↔ w.Valid limits := by
  have hsource : r.fence.source = r.provenance.source ↔ w.fenceSource = w.source :=
    EntityId.parse_inj h.fenceSource h.source
  have hvalid := (EntityId.parse_ok h.source).2
  unfold validateEvidence
  simp only [seq_eq_ok, failIf_eq_ok, checkAll_eq_ok]
  constructor
  · rintro ⟨⟨hkind, hsubject, -, hfence, hunit, hscalar, hvalidity, -, -, -, -, hnote⟩, hdeclared⟩
    -- Each check reads one field of the record, and `h` says which field of the bytes that is.
    rw [not_not] at hsubject hfence hscalar
    rw [h.kind] at hkind
    rw [h.scalar] at hscalar
    rw [h.validity, Bool.not_eq_true] at hvalidity
    rw [h.note, Nat.not_lt] at hnote
    obtain ⟨dkind, dauthority, dclock, dunit, dsemantics, dcompleteness, dsupport⟩ := hdeclared
    rw [h.kind] at dkind
    rw [h.authority] at dauthority
    rw [h.clock] at dclock
    rw [h.unit] at dunit hunit
    rw [h.semantics] at dsemantics
    rw [h.completeness] at dcompleteness
    rw [h.support] at dsupport hunit
    exact ⟨⟨dkind, hkind⟩, h.subject.mp hsubject, hsource.mp hfence, dauthority, dclock, hscalar,
      dunit, fun hs hu => hunit ⟨hs, hu⟩, dsemantics, hvalidity, dcompleteness, dsupport, hnote⟩
  · intro hw
    refine ⟨⟨?_, ?_, not_not.mpr hvalid, ?_, ?_, ?_, ?_, ?_, ?_, ?_, ?_, ?_⟩, ?_⟩
    · rw [h.kind]
      exact hw.kind.2
    · exact not_not.mpr (h.subject.mpr hw.subject)
    · exact not_not.mpr (hsource.mpr hw.source)
    · rw [h.support, h.unit]
      exact fun hboth => hw.supported hboth.1 hboth.2
    · rw [h.scalar]
      exact not_not.mpr hw.scalar
    · rw [h.validity, hw.validity]
      exact Bool.false_ne_true
    · -- The lists were bounded while they were read, so their checks pass for every input.
      exact Nat.not_lt.mpr h.labels.1
    · exact fun label hlabel => not_not.mpr (h.labels.2 label hlabel)
    · exact Nat.not_lt.mpr h.metadata.1
    · exact fun entry hentry => ⟨Nat.not_lt.mpr (h.metadata.2 entry hentry).1,
        Nat.not_lt.mpr (h.metadata.2 entry hentry).2⟩
    · rw [h.note]
      exact Nat.not_lt.mpr hw.note
    · exact ⟨by rw [h.kind]; exact hw.kind.1, by rw [h.authority]; exact hw.authority,
        by rw [h.clock]; exact hw.clock, by rw [h.unit]; exact hw.unit,
        by rw [h.semantics]; exact hw.semantics, by rw [h.completeness]; exact hw.completeness,
        by rw [h.support]; exact hw.support⟩

theorem EpisodeTransition.Holds.declared_iff {t : EpisodeTransition} {w : TransitionFields}
    (h : t.Holds w) : t.Declared ↔ w.Valid := by
  have hkind := declared_iff_isEnumerator h.kind
  have hbefore := declared_iff_isEnumerator h.severityBefore
  have hafter := declared_iff_isEnumerator h.severityAfter
  have hverdict := declared_iff_isEnumerator h.verdictBefore
  have hverdict' := declared_iff_isEnumerator h.verdictAfter
  constructor
  · rintro ⟨h₁, h₂, h₃, h₄, h₅⟩
    exact ⟨hkind.mp h₁, hbefore.mp h₂, hafter.mp h₃, hverdict.mp h₄, hverdict'.mp h₅⟩
  · rintro ⟨h₁, h₂, h₃, h₄, h₅⟩
    exact ⟨hkind.mpr h₁, hbefore.mpr h₂, hafter.mpr h₃, hverdict.mpr h₄, hverdict'.mpr h₅⟩

theorem AssessmentDigest.Holds.declared_iff {d : AssessmentDigest} {w : UInt8 × UInt8}
    (h : d.Holds w) : d.Declared ↔ IsEnumerator Verdict w.1 ∧ IsEnumerator Severity w.2 := by
  have hverdict := declared_iff_isEnumerator h.verdict
  have hseverity := declared_iff_isEnumerator h.severity
  constructor
  · rintro ⟨h₁, h₂⟩
    exact ⟨hverdict.mp h₁, hseverity.mp h₂⟩
  · rintro ⟨h₁, h₂⟩
    exact ⟨hverdict.mpr h₁, hseverity.mpr h₂⟩

theorem Episode.Holds.declared_iff {e : Episode} {w : EpisodeFields} (h : e.Holds w) :
    e.Declared ↔ w.Valid := by
  have hmechanism := declared_iff_isEnumerator h.mechanism
  have hstate := declared_iff_isEnumerator h.state
  have hcurrent := declared_iff_isEnumerator h.currentSeverity
  have hpeak := declared_iff_isEnumerator h.peakSeverity
  have htransitions := forall_mem_iff_of_forall₂ h.transitions
    fun _ _ ht => EpisodeTransition.Holds.declared_iff ht
  have hassessments := forall_mem_iff_of_forall₂ h.assessments
    fun _ _ hd => AssessmentDigest.Holds.declared_iff hd
  constructor
  · rintro ⟨h₁, h₂, h₃, h₄, h₅, h₆⟩
    exact ⟨hmechanism.mp h₁, hstate.mp h₂, hcurrent.mp h₃, hpeak.mp h₄, htransitions.mp h₅,
      hassessments.mp h₆⟩
  · rintro ⟨h₁, h₂, h₃, h₄, h₅, h₆⟩
    exact ⟨hmechanism.mpr h₁, hstate.mpr h₂, hcurrent.mpr h₃, hpeak.mpr h₄, htransitions.mpr h₅,
      hassessments.mpr h₆⟩

/-! ### What a decoded content holds -/

/-- What one reader finds, the other finds in the same section of the file. -/
theorem fieldsIn_of_mirrors {α β : Type} {read : ByteReader α} {read' : ByteReader (List β)}
    {R : α → List β → Prop} (h : Mirrors read read' R) {bytes found : Text} {id : UInt32}
    {name : String} {a : α} (hsection : fileSection bytes id = some found)
    (hread : readWhole name read found = .ok a) : R a (fieldsIn bytes id read') := by
  rw [readWhole_eq_ok] at hread
  obtain ⟨l, hread', hR⟩ := h.mirrors _ _ _ hread rfl
  have hfields : fieldsIn bytes id read' = l := by
    unfold fieldsIn readAt
    rw [hsection]
    simp only [Option.bind_some, hread', Option.map_some, Option.getD_some]
  rw [hfields]
  exact hR

theorem fieldsIn_of_none {α : Type} {bytes : Text} {id : UInt32} (h : fileSection bytes id = none)
    (read : ByteReader (List α)) : fieldsIn bytes id read = [] := by
  unfold fieldsIn
  rw [h]
  rfl

namespace ContentRead

variable {bytes : Text} {limits : Limits} {digest : UInt64} {policy : ClassificationPolicy}
  {content : SnapshotContent}

theorem holdsEvidence (h : ContentRead digest limits policy (fileSection bytes) content) :
    List.Forall₂ (fun r w => r.Holds limits w ∧ computeEvidenceId r = r.id) content.evidence
      (evidenceFields limits bytes) := by
  have hread := h.evidence
  cases hsection : fileSection bytes SnapshotSectionId.evidence with
  | none =>
      rw [hsection] at hread
      obtain ⟨-, hnil⟩ := Prod.mk.inj (Except.ok.inj hread)
      rw [← hnil, evidenceFields, fieldsIn_of_none hsection]
      exact List.Forall₂.nil
  | some found =>
      rw [hsection] at hread
      refine fieldsIn_of_mirrors (R := fun p l => List.Forall₂ _ p.2 l) ?_ hsection hread
      refine (Mirrors.refl sticky_u32).bind (fun n => ?_) ?_
      · exact (sticky_times _ _).bind fun _ => Sticky.pure _
      · rintro n _ rfl
        dsimp only
        have htimes := mirrors_times (@mirrors_readEvidence limits)
          (if n.toNat > limits.maxSnapshotEvidence then 0 else n.toNat)
        have hflag : (if decide (n.toNat > limits.maxSnapshotEvidence) = true then 0 else n.toNat)
            = if n.toNat > limits.maxSnapshotEvidence then 0 else n.toNat := by simp
        rw [hflag]
        exact htimes.mapLeft fun _ _ h => h

theorem holdsEpisodes (h : ContentRead digest limits policy (fileSection bytes) content) :
    List.Forall₂ (fun e w => e.Holds w ∧ computeEpisodeId e.key = e.id) content.episodes
      (episodeFields bytes) := by
  have hread := h.episodes
  cases hsection : fileSection bytes SnapshotSectionId.episodes with
  | none =>
      rw [hsection] at hread
      rw [← Except.ok.inj hread, episodeFields, fieldsIn_of_none hsection]
      exact List.Forall₂.nil
  | some found =>
      rw [hsection] at hread
      exact (fieldsIn_of_mirrors (mirrors_list mirrors_readEpisode _ _) hsection hread).2

theorem holdsKinds (h : ContentRead digest limits policy (fileSection bytes) content) :
    (content.topology.nodes.values.map Node.kind).Perm ((nodeFields bytes).map ofUnderlying) := by
  obtain ⟨found, hsection, hdecode⟩ := h.topology
  obtain ⟨b, hread, hbuild⟩ := bind_eq_ok.mp hdecode
  obtain ⟨-, -, hassemble⟩ := bind_eq_ok.mp hbuild
  rw [readWhole_eq_ok] at hread
  obtain ⟨kinds, c₁, hraw, hholds⟩ := kinds_of_readTopology hread rfl
  have hfields : nodeFields bytes = kinds := by
    unfold nodeFields fieldsIn readAt
    rw [hsection]
    simp only [Option.bind_some, hraw, Option.map_some, Option.getD_some]
  rw [hfields, pure_eq_ok.mp hassemble]
  exact hholds

end ContentRead

/-- Recovering a record changes no limit. -/
theorem EvidenceStore.limits_foldl_ingestRecovered (s : EvidenceStore)
    (records : List EvidenceRecord) :
    (records.foldl (fun s r => (s.ingestRecovered r).2) s).limits = s.limits := by
  induction records generalizing s with
  | nil => rfl
  | cons r rest ih =>
      rw [List.foldl_cons, ih]
      cases hcase : s.ingestRecovered r with
      | mk result s' =>
          have hcases := s.ingestRecovered_cases r
          rw [hcase] at hcases
          cases hcases with
          | refused e stats => rfl
          | unadmitted e hroom => rfl
          | stored outcome _ hvalid hroom hadmission hstored =>
              exact (admitLocked_limits hadmission).trans rfl

/-- A decoded content is valid exactly when the numbers in the file that `decode_snapshot` does not
check are. -/
theorem decoded_validated_iff (bytes : Text) (limits : Limits) (policy : ClassificationPolicy)
    (content : SnapshotContent) (h : decodeSnapshot bytes limits policy = .ok content) :
    content.Valid limits ↔ FileValid limits bytes := by
  obtain ⟨digest, hread⟩ := contentRead_of_decode h
  have hevidence := forall_mem_iff_of_forall₂ hread.holdsEvidence
    fun _ _ hr => EvidenceRecord.Holds.valid_iff hr.1
  have hepisodes := forall_mem_iff_of_forall₂ hread.holdsEpisodes
    fun _ _ he => Episode.Holds.declared_iff he.1
  have hnodes : (∀ node ∈ content.topology.nodes.values, declared node.kind = true) ↔
      ∀ kind ∈ nodeFields bytes, IsEnumerator NodeKind kind := by
    have hmap : (∀ kind ∈ content.topology.nodes.values.map Node.kind, declared kind = true) ↔
        ∀ kind ∈ (nodeFields bytes).map (ofUnderlying : UInt8 → NodeKind), declared kind = true :=
      forall_congr' fun kind => by rw [hread.holdsKinds.mem_iff]
    rwa [List.forall_mem_map, List.forall_mem_map] at hmap
  constructor
  · intro hvalid
    refine ⟨hevidence.mp fun r hr => ⟨hvalid.records r hr, hvalid.evidence r hr⟩,
      hepisodes.mp hvalid.episodes, hnodes.mp hvalid.nodes⟩
  · intro hfile
    have hrecords := hevidence.mpr hfile.evidence
    refine ⟨fun r hr => (hrecords r hr).1, fun r hr => (hrecords r hr).2,
      hepisodes.mpr hfile.episodes, hnodes.mpr hfile.nodes, ?_, ?_, ?_⟩
    · exact forall_mem_of_forall₂ hread.holdsEvidence fun _ _ hr => hr.2
    · exact forall_mem_of_forall₂ hread.holdsEpisodes fun _ _ he => he.2
    · intro before r after hsplit
      rw [EvidenceStore.limits_foldl_ingestRecovered]
      exact (hrecords r (by rw [hsplit]; simp)).1

/-- A record about a link with a value that is not a number and a clock that is not declared. -/
def notANumber : EvidenceRecord :=
  let record : EvidenceRecord :=
    { kind := .dropCount
      subject := .link (EntityId.unchecked (ascii "up"))
      provenance := { source := EntityId.unchecked (ascii "agent1"), authority := .measured }
      fence := { source := EntityId.unchecked (ascii "agent1"), boot := 1, incarnation := 1
                 sequence := 1 }
      clock := .undeclared 9 (by decide)
      value := { scalar := ⟨0x7FF8000000000000⟩, unit := .packets } }
  { record with id := computeEvidenceId record }

/-- A snapshot with that record. The encoder does not look at it. -/
def notANumberSnapshot : Text :=
  (encodeSnapshot { SnapshotStore.emptyContent with evidence := [notANumber] } {}).toOption.getD []

/-- What the default limits and policy read of some bytes. -/
def decodedBy (bytes : Text) : SnapshotContent := (decodeSnapshot bytes {} {}).toOption.getD {}

theorem isOk_notANumber : (decodeSnapshot notANumberSnapshot {} {}).isOk = true := by
  decide +kernel

/-- The record of that snapshot, and the condition on its file. -/
theorem decoded_validated_iff_notANumber :
    (evidenceFields {} notANumberSnapshot).map (fun w => (w.clock, w.scalar))
      = [(9, 0x7FF8000000000000)] ∧
    ((decodedBy notANumberSnapshot).Valid {} ↔ FileValid {} notANumberSnapshot) :=
  ⟨by decide +kernel, decoded_validated_iff notANumberSnapshot {} {} (decodedBy notANumberSnapshot)
    (eq_ok_of_isOk isOk_notANumber {})⟩

/-- The snapshot is accepted, and its record does not pass `validate_evidence`. -/
theorem notANumber_decoded :
    (decodeSnapshot notANumberSnapshot {} {}).isOk = true ∧
      (decodedBy notANumberSnapshot).evidence.length = 1 ∧
      ¬ (decodedBy notANumberSnapshot).Valid {} := by
  refine ⟨isOk_notANumber, by decide +kernel, fun h => ?_⟩
  have hrefused : (decodedBy notANumberSnapshot).evidence.any
      (fun r => !(validateEvidence r {}).isOk) = true := by
    decide +kernel
  obtain ⟨r, hr, hinvalid⟩ := List.any_eq_true.mp hrefused
  rw [h.records r hr] at hinvalid
  cases hinvalid

/-! ### Truncated evidence -/

/-- Evidence is missing from the content, or will be from its snapshot. -/
def SnapshotContent.Truncated (limits : Limits) (content : SnapshotContent) : Prop :=
  content.evidenceTruncated = true ∨ limits.maxSnapshotEvidence < content.evidence.length

/-- The encoder never writes more records than the decoder allows. -/
theorem decodeEvidenceSection_not_truncated {limits : Limits} {evidence : List EvidenceRecord}
    {decoded : Bool × List EvidenceRecord}
    (h : decodeEvidenceSection (encodeEvidenceSection evidence limits) limits = .ok decoded) :
    decoded.1 = false := by
  rw [decodeEvidenceSection, readWhole_eq_ok] at h
  obtain ⟨n, c, hcount, hrest⟩ := Decoder.bind_eq_ok.mp h
  have hread := (reads_u32 (UInt32.ofNat (evidence.take limits.maxSnapshotEvidence).length)).accepts
    trivial ((evidence.take limits.maxSnapshotEvidence).flatMap writeEvidence)
  rw [encodeEvidenceSection, ByteWriter.list, ByteWriter.size, hread] at hcount
  cases hcount
  obtain ⟨records, c₁, -, hpure⟩ := Decoder.bind_eq_ok.mp hrest
  cases hpure
  have hwritten : (UInt32.ofNat (evidence.take limits.maxSnapshotEvidence).length).toNat
      ≤ limits.maxSnapshotEvidence := by
    rw [UInt32.toNat_ofNat']
    exact (Nat.mod_le _ _).trans (List.length_take_le _ _)
  exact decide_eq_false (Nat.not_lt.mpr hwritten)

/-- Nothing of the file but the number of its records could tell that some are missing. -/
theorem decoded_not_truncated {content decoded : SnapshotContent} {limits : Limits}
    {policy : ClassificationPolicy} {bytes : Text}
    (hencode : encodeSnapshot content limits = .ok bytes)
    (hdecode : decodeSnapshot bytes limits policy = .ok decoded) :
    decoded.evidenceTruncated = false := by
  obtain ⟨-, hlength, -, rfl⟩ := encodeSnapshot_raw.mp hencode
  have hread := (RawSnapshot.decodes_of_decode hdecode rfl rfl).content.evidence
  obtain ⟨-, -, -, hsection⟩ := sections_rawOf hlength
  rw [hsection] at hread
  exact decodeEvidenceSection_not_truncated hread

/-- For every content that is written and read back under the same limits, truncated evidence is
visible afterwards only if there is none. -/
theorem truncation_visible_iff (content : SnapshotContent) (limits : Limits)
    (policy : ClassificationPolicy) (bytes : Text) (decoded : SnapshotContent)
    (hencode : encodeSnapshot content limits = .ok bytes)
    (hdecode : decodeSnapshot bytes limits policy = .ok decoded) :
    (content.Truncated limits → decoded.evidenceTruncated = true) ↔ ¬ content.Truncated limits := by
  have hlost := decoded_not_truncated hencode hdecode
  constructor
  · intro hvisible htruncated
    rw [hvisible htruncated] at hlost
    cases hlost
  · intro hnone htruncated
    exact absurd htruncated hnone

/-- A content whose evidence was truncated when it was collected. -/
def truncatedContent : SnapshotContent :=
  { SnapshotStore.emptyContent with evidenceTruncated := true }

/-- Its snapshot. -/
def truncatedSnapshot : Text := (encodeSnapshot truncatedContent {}).toOption.getD []

theorem encode_truncatedContent : encodeSnapshot truncatedContent {} = .ok truncatedSnapshot :=
  eq_ok_of_isOk (by decide +kernel) []

theorem isOk_truncated : (decodeSnapshot truncatedSnapshot {} {}).isOk = true := by
  decide +kernel

theorem truncation_visible_iff_empty :
    encodeSnapshot truncatedContent {} = .ok truncatedSnapshot ∧
      decodeSnapshot truncatedSnapshot {} {} = .ok (decodedBy truncatedSnapshot) ∧
      ((truncatedContent.Truncated {} → (decodedBy truncatedSnapshot).evidenceTruncated = true) ↔
        ¬ truncatedContent.Truncated {}) := by
  have hdecode : decodeSnapshot truncatedSnapshot {} {} = .ok (decodedBy truncatedSnapshot) :=
    eq_ok_of_isOk isOk_truncated {}
  exact ⟨encode_truncatedContent, hdecode,
    truncation_visible_iff _ _ _ _ _ encode_truncatedContent hdecode⟩

/-- The flag of that content is gone when its snapshot is read. -/
theorem truncation_lost :
    truncatedContent.Truncated {} ∧ (encodeSnapshot truncatedContent {}).isOk = true ∧
      (decodeSnapshot truncatedSnapshot {} {}).isOk = true ∧
      (decodedBy truncatedSnapshot).evidenceTruncated = false := by
  refine ⟨Or.inl rfl, ?_, isOk_truncated, by decide +kernel⟩
  rw [encode_truncatedContent]
  rfl

end CongestionObservatory
