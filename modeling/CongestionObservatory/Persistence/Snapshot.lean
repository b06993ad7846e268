import CongestionObservatory.Assessment.Policy
import CongestionObservatory.Episode.Episode
import CongestionObservatory.Model.Topology
import CongestionObservatory.Persistence.Bytes

/-!
# `CongestionObservatory.Persistence.Snapshot`: the snapshot format

A snapshot (`persistence/snapshot.cpp`) is a header, a section table and a payload. The header
carries the digests of the limits, the policy and the topology and the checksum of the payload,
and each table entry carries the extent and the checksum of one section of the payload.

`encodeSnapshot` writes four sections. `decodeSnapshot` checks the header, the table and the
checksums before it decodes a section, and decodes the metadata, the topology, the episodes and
the evidence in that order. The metadata and the topology must be there. The other two sections
may be absent.
-/

set_option autoImplicit false

namespace CongestionObservatory

open Lib

/-- `SnapshotSection`: an entry of the section table. -/
structure SnapshotSection where
  id : UInt32 := 0
  offset : UInt64 := 0
  length : UInt64 := 0
  crc64 : UInt64 := 0
  deriving DecidableEq

namespace SnapshotSectionId

def topology : UInt32 := 1
def episodes : UInt32 := 2
def evidence : UInt32 := 3
def metadata : UInt32 := 4

end SnapshotSectionId

/-- `kSnapshotMagic`. -/
def kSnapshotMagic : Text := ascii "COSNAP01"

/-- `kSnapshotFormatMajor`. -/
def kSnapshotFormatMajor : UInt32 := 1

/-- `kSnapshotFormatMinor`. -/
def kSnapshotFormatMinor : UInt32 := 0

/-- `kSnapshotHeaderBytes`. -/
def kSnapshotHeaderBytes : Nat := 8 + 4 + 4 + 8 + 8 + 8 + 8 + 4 + 8 + 8

/-- `SnapshotMetadata`. -/
structure SnapshotMetadata where
  policyVersion : Text := []
  policyDigest : UInt64 := 0
  limitsDigest : UInt64 := 0
  topologyDigest : UInt64 := 0
  createdAt : Timestamp := Timestamp.zero
  runtimeInstance : UInt64 := 0
  acceptedTotal : UInt64 := 0
  rejectedTotal : UInt64 := 0
  generation : GenerationVector := {}
  producerVersion : Text := []
  deriving DecidableEq

/-- `SnapshotContent`. -/
structure SnapshotContent where
  metadata : SnapshotMetadata := {}
  topology : Topology := {}
  episodes : List Episode := []
  evidence : List EvidenceRecord := []
  evidenceTruncated : Bool := false
  deriving DecidableEq

/-! ### Writing -/

section

open ByteWriter

/-- The loop of `write_evidence` over the metadata of a record. -/
def writeMetadata (items : List (Text × Text)) : Text :=
  list (fun item => text item.1 ++ text item.2) items

/-- The provenance fields of `write_evidence`. -/
def writeProvenance (p : Provenance) : Text :=
  text p.source.str ++ u8 (toUnderlying p.authority) ++ text p.transport ++ text p.collector

/-- The fence fields of `write_evidence`. -/
def writeFence (f : FenceVector) : Text :=
  text f.source.str ++ u64 f.boot ++ u64 f.incarnation ++ writeGeneration f.gen ++ u64 f.sequence

/-- The value fields of `write_evidence`. -/
def writeValue (v : EvidenceValue) : Text :=
  u64 v.scalar.bits ++ u8 (toUnderlying v.unit) ++ u8 (toUnderlying v.semantics)

/-- `write_evidence`. The insertion index is not written. -/
def writeEvidence (r : EvidenceRecord) : Text :=
  digestId r.id ++ u16 (toUnderlying r.kind) ++ writeSubject r.subject
    ++ writeProvenance r.provenance ++ writeFence r.fence ++ i64 r.observedAt.nanos
    ++ i64 r.receivedAt.nanos ++ u8 (toUnderlying r.clock) ++ writeValue r.value
    ++ i64 r.validity.nanos ++ u8 (toUnderlying r.completeness) ++ u8 (toUnderlying r.support)
    ++ flag r.recoveredFromSnapshot ++ flag r.retired ++ text r.note
    ++ list (fun label => text label.str) r.labels ++ writeMetadata r.metadata

/-- The key fields of `write_episode`. -/
def writeEpisodeKey (k : EpisodeKey) : Text :=
  writeSubject k.scope ++ text k.tenant.str ++ u8 (toUnderlying k.mechanism)
    ++ writeGeneration k.generation ++ text k.policyVersion

/-- The transition fields of `write_episode`. -/
def writeTransition (t : EpisodeTransition) : Text :=
  u64 t.revision ++ u8 (toUnderlying t.kind) ++ i64 t.at_.nanos ++ u8 (toUnderlying t.severityBefore)
    ++ u8 (toUnderlying t.severityAfter) ++ u8 (toUnderlying t.verdictBefore)
    ++ u8 (toUnderlying t.verdictAfter) ++ u32 t.confidence ++ text t.cause
    ++ list digestId t.citations

/-- The assessment fields of `write_episode`. -/
def writeAssessmentDigest (d : AssessmentDigest) : Text :=
  i64 d.at_.nanos ++ u8 (toUnderlying d.verdict) ++ u32 d.mechanisms
    ++ u8 (toUnderlying d.severity) ++ u32 d.confidence ++ size d.citationCount
    ++ flag d.freshConfirmingEvidence ++ digestId d.representativeCitation

/-- `write_episode`. -/
def writeEpisode (e : Episode) : Text :=
  digestId e.id ++ writeEpisodeKey e.key ++ u8 (toUnderlying e.state) ++ u64 e.revision
    ++ u8 (toUnderlying e.currentSeverity) ++ u8 (toUnderlying e.peakSeverity) ++ u32 e.confidence
    ++ i64 e.firstSeen.nanos ++ i64 e.lastSeen.nanos ++ i64 e.lastUpdated.nanos
    ++ i64 e.resolvedAt.nanos ++ u64 e.observations ++ list digestId e.citations
    ++ list (fun source => text source.str) e.sources ++ list writeTransition e.transitions
    ++ list writeAssessmentDigest e.assessments ++ u64 e.transitionsDropped
    ++ u64 e.assessmentsDropped ++ flag e.historyTruncated

/-- `write_name_list`: at most `bound` names are written. -/
def writeNameList (names : List Name) (bound : Nat) : Text :=
  list (fun name => text name.str) (names.take bound)

def writeNode (node : Node) : Text :=
  text node.id.str ++ u8 (toUnderlying node.kind) ++ writeNameList node.labels 64

def writePort (port : Port) : Text :=
  text port.id.str ++ text port.node.str ++ u64 port.speedBps

def writeLink (link : Link) : Text :=
  text link.id.str ++ text link.endpointA.str ++ text link.endpointB.str ++ u64 link.capacityBps

def writeQueue (queue : Queue) : Text :=
  text queue.id.str ++ text queue.link.str ++ u32 queue.index ++ u32 queue.minShareBp
    ++ u32 queue.maxShareBp

def writeBuffer (buffer : Buffer) : Text :=
  text buffer.id.str ++ text buffer.port.str ++ u32 buffer.pool ++ u64 buffer.cells

def writePath (path : Path) : Text :=
  text path.id.str ++ list (fun hop => text hop.str) path.hops

def writeFlow (flow : Flow) : Text :=
  text flow.id.str ++ text flow.path.str ++ text flow.tenant.str ++ text flow.trafficClass.str

/-- `encode_topology_section`: the collections in key order. -/
def encodeTopologySection (t : Topology) : Text :=
  writeGeneration t.generation ++ text t.revisionLabel.str ++ list writeNode t.nodes.values
    ++ list writePort t.ports.values ++ list writeLink t.links.values
    ++ list writeQueue t.queues.values ++ list writeBuffer t.buffers.values
    ++ list writePath t.paths.values ++ list writeFlow t.flows.values

/-- The metadata section of `encode_snapshot`. -/
def encodeMetadataSection (m : SnapshotMetadata) : Text :=
  text m.policyVersion ++ u64 m.policyDigest ++ u64 m.limitsDigest ++ u64 m.topologyDigest
    ++ i64 m.createdAt.nanos ++ u64 m.runtimeInstance ++ u64 m.acceptedTotal ++ u64 m.rejectedTotal
    ++ writeGeneration m.generation ++ text m.producerVersion

/-- The episode section: as many episodes as the limits allow. -/
def encodeEpisodeSection (episodes : List Episode) (limits : Limits) : Text :=
  list writeEpisode (episodes.take limits.maxSnapshotEpisodes)

/-- The evidence section: as many records as the limits allow. -/
def encodeEvidenceSection (evidence : List EvidenceRecord) (limits : Limits) : Text :=
  list writeEvidence (evidence.take limits.maxSnapshotEvidence)

/-- An entry of the section table. -/
def writeSection (s : SnapshotSection) : Text :=
  u32 s.id ++ u64 s.offset ++ u64 s.length ++ u64 s.crc64

/-- The metadata with the digests `encode_snapshot` derives itself. -/
def stagedMetadata (content : SnapshotContent) (limits : Limits) : SnapshotMetadata :=
  { content.metadata with
    limitsDigest := limits.digest, topologyDigest := content.topology.digest }

/-- The sections with their identities, in the order they are written. -/
def pendingSections (content : SnapshotContent) (limits : Limits) : List (UInt32 × Text) :=
  [(SnapshotSectionId.metadata, encodeMetadataSection (stagedMetadata content limits)),
   (SnapshotSectionId.topology, encodeTopologySection content.topology),
   (SnapshotSectionId.episodes, encodeEpisodeSection content.episodes limits),
   (SnapshotSectionId.evidence, encodeEvidenceSection content.evidence limits)]

/-- The table for sections that are laid out from an offset on. -/
def layoutSections : Nat → List (UInt32 × Text) → List SnapshotSection
  | _, [] => []
  | offset, (id, bytes) :: rest =>
    { id := id, offset := UInt64.ofNat offset, length := UInt64.ofNat bytes.length
      crc64 := CongestionObservatory.crc64 bytes } :: layoutSections (offset + bytes.length) rest

/-- The payload: the sections, one after the other. -/
def payloadOf (sections : List (UInt32 × Text)) : Text := sections.flatMap Prod.snd

/-- The header of `encode_snapshot`. -/
def writeHeader (m : SnapshotMetadata) (sectionCount : Nat) (payload : Text) : Text :=
  kSnapshotMagic ++ u32 kSnapshotFormatMajor ++ u32 kSnapshotFormatMinor ++ u64 m.limitsDigest
    ++ u64 m.policyDigest ++ u64 m.topologyDigest ++ i64 m.createdAt.nanos ++ size sectionCount
    ++ u64 (UInt64.ofNat payload.length) ++ u64 (crc64 payload)

/-- `encode_snapshot`. -/
def encodeSnapshot (content : SnapshotContent) (limits : Limits) : Result Text := do
  limits.validate
  let sections := pendingSections content limits
  let payload := payloadOf sections
  failIf (payload.length ≥ 2 ^ 64)
    (makeError .arithmeticOverflow "snapshot payload size overflow")
  failIf (payload.length > limits.maxSnapshotBytes)
    (makeError .limitExceeded "snapshot exceeds the configured byte bound"
      (decimal payload.length))
  pure (writeHeader (stagedMetadata content limits) sections.length payload
    ++ (layoutSections 0 sections).flatMap writeSection ++ payload)

end

/-! ### Reading -/

section

open ByteReader

/-- The check of `ok` at the end of a part. -/
def checkOk (message : String) : ByteReader Unit := fun c =>
  match c.failure with
  | some what => .error (makeError .integrityFailure message what)
  | none => .ok ((), c)

/-- A section is read to its end. -/
def readWhole {α : Type} (name : String) (read : ByteReader α) (bytes : Text) : Result α := do
  let (a, c) ← (do
    let a ← read
    checkOk (name ++ " section is malformed")
    pure a : ByteReader α) ⟨bytes, none⟩
  failIf (c.rest ≠ []) (makeError .integrityFailure (name ++ " section has trailing bytes"))
  pure a

/-- An entry of a record's metadata. Its texts are checked against their own bounds. -/
def readMetadataEntry (limits : Limits) : ByteReader (Text × Text) := do
  let key ← text limits
  let value ← text limits
  if key.length > limits.maxMetadataKeyBytes ∨ value.length > limits.maxMetadataValueBytes then
    throw (makeError .limitExceeded "metadata entry exceeds the configured bound")
  else pure (key, value)

def readProvenance (limits : Limits) : ByteReader Provenance :=
  Provenance.mk <$> parsed limits EntityId.parse <*> enum8 <*> text limits <*> text limits

def readFence (limits : Limits) : ByteReader FenceVector :=
  FenceVector.mk <$> parsed limits EntityId.parse <*> u64 <*> u64 <*> readGeneration <*> u64

def readValue : ByteReader EvidenceValue :=
  EvidenceValue.mk <$> (Double.mk <$> u64) <*> enum8 <*> enum8

/-- The loop body of `decode_snapshot` over the evidence, up to the check of the identity. -/
def readEvidenceFields (limits : Limits) : ByteReader EvidenceRecord :=
  (fun id kind subject provenance fence observedAt receivedAt clock value validity completeness
      support recovered retired note labels metadata =>
    { id := id, kind := ofUnderlying kind, subject := subject, provenance := provenance
      fence := fence, observedAt := ⟨observedAt⟩, receivedAt := ⟨receivedAt⟩, clock := clock
      value := value, validity := ⟨validity⟩, completeness := completeness, support := support
      labels := labels, metadata := metadata, note := note, recoveredFromSnapshot := recovered
      retired := retired })
    <$> digestId <*> u16 <*> readSubject limits <*> readProvenance limits <*> readFence limits
    <*> i64 <*> i64 <*> enum8 <*> readValue <*> i64 <*> enum8 <*> enum8 <*> boolean <*> boolean
    <*> text limits
    <*> list limits.maxLabels "label count exceeds the limit" (parsed limits Name.parse)
    <*> list limits.maxMetadataEntries "metadata count exceeds the limit" (readMetadataEntry limits)

/-- The loop body of `decode_snapshot` over the evidence. -/
def readEvidence (limits : Limits) : ByteReader EvidenceRecord := do
  let record ← readEvidenceFields limits
  checkOk "evidence section is malformed"
  if computeEvidenceId record ≠ record.id then
    throw (makeError .integrityFailure "evidence identity does not match its content" record.id.str)
  else pure record

/-- An empty tenant means that the episode is not attributed. -/
def readTenant (limits : Limits) : ByteReader TenantId :=
  parsed limits fun value => if value = [] then .ok EntityId.default else EntityId.parse value

def readEpisodeKey (limits : Limits) : ByteReader EpisodeKey :=
  EpisodeKey.mk <$> readSubject limits <*> readTenant limits <*> enum8 <*> readGeneration
    <*> text limits

def readTransition (limits : Limits) : ByteReader EpisodeTransition :=
  (fun revision kind time severityBefore severityAfter verdictBefore verdictAfter confidence cause
      citations =>
    { revision := revision, kind := kind, at_ := ⟨time⟩, severityBefore := severityBefore
      severityAfter := severityAfter, verdictBefore := verdictBefore, verdictAfter := verdictAfter
      confidence := confidence, cause := cause, citations := citations })
    <$> u64 <*> enum8 <*> i64 <*> enum8 <*> enum8 <*> enum8 <*> enum8 <*> u32 <*> text limits
    <*> list limits.maxCitations "transition citation count exceeds limit" digestId

def readAssessmentDigest : ByteReader AssessmentDigest :=
  (fun time verdict mechanisms severity confidence citationCount fresh citation =>
    { at_ := ⟨time⟩, verdict := verdict, mechanisms := mechanisms, severity := severity
      confidence := confidence, citationCount := UInt32.toNat citationCount
      freshConfirmingEvidence := fresh, representativeCitation := citation })
    <$> i64 <*> enum8 <*> u32 <*> enum8 <*> u32 <*> u32 <*> boolean <*> digestId

/-- The loop body of `decode_snapshot` over the episodes, up to the check of the identity. -/
def readEpisodeFields (limits : Limits) : ByteReader Episode :=
  (fun id key state revision currentSeverity peakSeverity confidence firstSeen lastSeen lastUpdated
      resolvedAt observations citations sources transitions assessments transitionsDropped
      assessmentsDropped historyTruncated =>
    { id := id, key := key, state := state, revision := revision
      currentSeverity := currentSeverity, peakSeverity := peakSeverity, confidence := confidence
      firstSeen := ⟨firstSeen⟩, lastSeen := ⟨lastSeen⟩, lastUpdated := ⟨lastUpdated⟩
      resolvedAt := ⟨resolvedAt⟩, observations := observations, transitions := transitions
      assessments := assessments, citations := citations, sources := sources
      transitionsDropped := transitionsDropped, assessmentsDropped := assessmentsDropped
      historyTruncated := historyTruncated })
    <$> digestId <*> readEpisodeKey limits <*> enum8 <*> u64 <*> enum8 <*> enum8 <*> u32 <*> i64
    <*> i64 <*> i64 <*> i64 <*> u64
    <*> list limits.maxCitations "citation count exceeds the limit" digestId
    <*> list limits.maxSources "source count exceeds the limit" (parsed limits EntityId.parse)
    <*> list limits.maxEpisodeTransitions "transition count exceeds the limit"
      (readTransition limits)
    <*> list limits.maxEpisodeAssessments "assessment count exceeds limit" readAssessmentDigest
    <*> u64 <*> u64 <*> boolean

/-- The loop body of `decode_snapshot` over the episodes. -/
def readEpisode (limits : Limits) : ByteReader Episode := do
  let episode ← readEpisodeFields limits
  checkOk "episode section is malformed"
  if computeEpisodeId episode.key ≠ episode.id then
    throw (makeError .integrityFailure "episode identity does not match its key" episode.id.str)
  else pure episode

def readNode (limits : Limits) : ByteReader Node :=
  Node.mk <$> parsed limits EntityId.parse <*> enum8
    <*> list limits.maxLabels "label count exceeds the limit" (parsed limits Name.parse)

def readPort (limits : Limits) : ByteReader Port :=
  Port.mk <$> parsed limits EntityId.parse <*> parsed limits EntityId.parse <*> u64

def readLink (limits : Limits) : ByteReader Link :=
  Link.mk <$> parsed limits EntityId.parse <*> parsed limits EntityId.parse
    <*> parsed limits EntityId.parse <*> u64

def readQueue (limits : Limits) : ByteReader Queue :=
  Queue.mk <$> parsed limits EntityId.parse <*> parsed limits EntityId.parse <*> u32 <*> u32 <*> u32

def readBuffer (limits : Limits) : ByteReader Buffer :=
  Buffer.mk <$> parsed limits EntityId.parse <*> parsed limits EntityId.parse <*> u32 <*> u64

def readPath (limits : Limits) : ByteReader Path :=
  Path.mk <$> parsed limits EntityId.parse
    <*> list limits.maxPathHops "hop count exceeds the limit" (parsed limits EntityId.parse)

def readFlow (limits : Limits) : ByteReader Flow :=
  Flow.mk <$> parsed limits EntityId.parse <*> parsed limits EntityId.parse
    <*> parsed limits EntityId.parse <*> parsed limits EntityId.parse

/-- The loop of `decode_topology_section` over one collection: each object is read and added. -/
def addEach {α : Type} (bound : Nat) (what : String) (read : ByteReader α)
    (add : TopologyBuilder → α → Result TopologyBuilder) (builder : TopologyBuilder) :
    ByteReader TopologyBuilder := do
  let n ← count bound what
  Decoder.loop (fun builder => do
    let object ← read
    match add builder object with
    | .error e => throw e
    | .ok builder => pure builder) n builder

/-- The label of the revision. An empty one leaves the default. -/
def readRevisionLabel (limits : Limits) : ByteReader Name :=
  parsed limits fun label => if label = [] then .ok Name.default else Name.parse label

/-- The part of `decode_topology_section` that reads. -/
def readTopology (limits : Limits) : ByteReader TopologyBuilder := do
  let generation ← readGeneration
  let label ← readRevisionLabel limits
  let b : TopologyBuilder :=
    { limits := limits, generation := generation, revisionLabel := label }
  let b ← addEach limits.maxNodes "node count exceeds the limit" (readNode limits)
    TopologyBuilder.addNode b
  let b ← addEach limits.maxPorts "port count exceeds the limit" (readPort limits)
    TopologyBuilder.addPort b
  let b ← addEach limits.maxLinks "link count exceeds the limit" (readLink limits)
    TopologyBuilder.addLink b
  let b ← addEach limits.maxQueues "queue count exceeds the limit" (readQueue limits)
    TopologyBuilder.addQueue b
  let b ← addEach limits.maxBuffers "buffer count exceeds the limit" (readBuffer limits)
    TopologyBuilder.addBuffer b
  let b ← addEach limits.maxPaths "path count exceeds the limit" (readPath limits)
    TopologyBuilder.addPath b
  addEach limits.maxFlows "flow count exceeds the limit" (readFlow limits)
    TopologyBuilder.addFlow b

/-- `decode_topology_section`. -/
def decodeTopologySection (bytes : Text) (limits : Limits) : Result Topology := do
  let builder ← readWhole "topology" (readTopology limits) bytes
  builder.build limits

/-- The fields of the metadata section. -/
def readSnapshotMetadata (limits : Limits) : ByteReader SnapshotMetadata :=
  (fun version policyDigest limitsDigest topologyDigest createdAt runtimeInstance acceptedTotal
      rejectedTotal generation producer =>
    { policyVersion := version, policyDigest := policyDigest, limitsDigest := limitsDigest
      topologyDigest := topologyDigest, createdAt := ⟨createdAt⟩
      runtimeInstance := runtimeInstance, acceptedTotal := acceptedTotal
      rejectedTotal := rejectedTotal, generation := generation, producerVersion := producer })
    <$> text limits <*> u64 <*> u64 <*> u64 <*> i64 <*> u64 <*> u64 <*> u64 <*> readGeneration
    <*> text limits

/-- The metadata section of `decode_snapshot`. Trailing bytes are not looked at. -/
def decodeMetadataSection (bytes : Text) (limits : Limits) (policy : ClassificationPolicy) :
    Result SnapshotMetadata := do
  let (m, _) ← (do
    let m ← readSnapshotMetadata limits
    checkOk "metadata section is malformed"
    pure m : ByteReader SnapshotMetadata) ⟨bytes, none⟩
  failIf (m.policyVersion ≠ policy.version)
    (makeError .versionMismatch "snapshot policy version differs from the active policy"
      (m.policyVersion ++ ascii " != " ++ policy.version))
  pure m

/-- The episode section of `decode_snapshot`. -/
def decodeEpisodeSection (bytes : Text) (limits : Limits) : Result (List Episode) :=
  readWhole "episode"
    (list limits.maxSnapshotEpisodes "episode count exceeds the limit" (readEpisode limits)) bytes

/-- The evidence section of `decode_snapshot`. A count above the limit is not an error: nothing
is read and the truncation is noted. -/
def decodeEvidenceSection (bytes : Text) (limits : Limits) : Result (Bool × List EvidenceRecord) :=
  readWhole "evidence" (do
    let rawCount ← u32
    let truncated := decide (rawCount.toNat > limits.maxSnapshotEvidence)
    let records ← times (if truncated then 0 else rawCount.toNat) (readEvidence limits)
    pure (truncated, records)) bytes

/-- What the header holds. -/
structure SnapshotHeader where
  limitsDigest : UInt64
  policyDigest : UInt64
  topologyDigest : UInt64
  createdAt : Int64
  sectionCount : Nat
  payloadBytes : UInt64
  payloadCrc : UInt64
  deriving DecidableEq

/-- The loop over the magic bytes. -/
def readMagic : Text → ByteReader Unit
  | [] => pure ()
  | expected :: rest => do
    let byte ← u8
    if byte ≠ expected then
      throw (makeError .integrityFailure "snapshot magic does not match")
    else readMagic rest

/-- The version fields. -/
def readVersion : ByteReader Unit := do
  let major ← u32
  let minor ← u32
  if major ≠ kSnapshotFormatMajor then
    throw (makeError .versionMismatch "snapshot format major version differs"
      (ascii "found=" ++ decimal major.toNat ++ ascii " expected="
        ++ decimal kSnapshotFormatMajor.toNat))
  else if minor > kSnapshotFormatMinor then
    throw (makeError .versionMismatch "snapshot was written by a newer minor format"
      (ascii "found=" ++ decimal minor.toNat ++ ascii " supported="
        ++ decimal kSnapshotFormatMinor.toNat))
  else pure ()

/-- The checks of the header against the limits and the policy. -/
def checkHeader (h : SnapshotHeader) (limits : Limits) (policy : ClassificationPolicy) : Status := do
  failIf (h.payloadBytes.toNat > limits.maxSnapshotBytes)
    (makeError .limitExceeded "snapshot payload exceeds the configured bound"
      (decimal h.payloadBytes.toNat))
  failIf (h.limitsDigest ≠ limits.digest)
    (makeError .versionMismatch "snapshot was written under different resource limits")
  failIf (h.policyDigest ≠ policy.digest)
    (makeError .versionMismatch "snapshot was written under a different classification policy")

/-- The header, as `decode_snapshot` reads and checks it. -/
def readHeader (limits : Limits) (policy : ClassificationPolicy) : ByteReader SnapshotHeader := do
  readMagic kSnapshotMagic
  readVersion
  let header ← SnapshotHeader.mk <$> u64 <*> u64 <*> u64 <*> i64
    <*> count limits.maxSnapshotSections "section count exceeds the limit" <*> u64 <*> u64
  checkOk "snapshot header is malformed"
  match checkHeader header limits policy with
  | .error e => throw e
  | .ok () => pure header

/-- An entry of the section table. -/
def readSection : ByteReader SnapshotSection :=
  SnapshotSection.mk <$> u32 <*> u64 <*> u64 <*> u64

/-- The section table. -/
def readTable (n : Nat) : ByteReader (List SnapshotSection) := do
  let table ← times n readSection
  checkOk "snapshot section table is malformed"
  pure table

/-- The bytes of the payload an entry describes. -/
def sliceOf (payload : Text) (s : SnapshotSection) : Text :=
  (payload.drop s.offset.toNat).take s.length.toNat

/-- The loop body over the section table: the extent, the checksum, no second section of the
same identity. -/
def collectSection (payload : Text) (sections : OrdMap UInt32 Text) (s : SnapshotSection) :
    Result (OrdMap UInt32 Text) := do
  failIf (s.offset.toNat + s.length.toNat ≥ 2 ^ 64
      ∨ s.offset.toNat + s.length.toNat > payload.length)
    (makeError .integrityFailure "snapshot section extent is out of range")
  failIf (crc64 (sliceOf payload s) ≠ s.crc64)
    (makeError .integrityFailure "snapshot section checksum mismatch"
      (ascii "section=" ++ decimal s.id.toNat))
  failIf (sections.contains s.id)
    (makeError .integrityFailure "snapshot contains a duplicate section"
      (ascii "section=" ++ decimal s.id.toNat))
  pure (sections.insert s.id (sliceOf payload s))

/-- The sections of the payload by their identity. -/
def collectSections (payload : Text) (table : List SnapshotSection) :
    Result (OrdMap UInt32 Text) :=
  table.foldlM (collectSection payload) OrdMap.empty

/-- A section that must be there. -/
def requireSection (sections : OrdMap UInt32 Text) (id : UInt32) (message : String) : Result Text :=
  match sections.find? id with
  | none => .error (makeError .integrityFailure message)
  | some bytes => .ok bytes

/-- A section that may be absent, and what is taken then. -/
def optionalSection {α : Type} (sections : OrdMap UInt32 Text) (id : UInt32) (absent : α)
    (decode : Text → Result α) : Result α :=
  match sections.find? id with
  | none => .ok absent
  | some bytes => decode bytes

/-- The last part of `decode_snapshot`: the sections are decoded. -/
def decodeContent (header : SnapshotHeader) (sections : OrdMap UInt32 Text) (limits : Limits)
    (policy : ClassificationPolicy) : Result SnapshotContent := do
  let bytes ← requireSection sections SnapshotSectionId.metadata "snapshot has no metadata section"
  let metadata ← decodeMetadataSection bytes limits policy
  let bytes ← requireSection sections SnapshotSectionId.topology "snapshot has no topology section"
  let topology ← decodeTopologySection bytes limits
  failIf (topology.digest ≠ header.topologyDigest)
    (makeError .integrityFailure "topology digest does not match the header")
  let episodes ← optionalSection sections SnapshotSectionId.episodes [] fun bytes =>
    decodeEpisodeSection bytes limits
  let (truncated, evidence) ← optionalSection sections SnapshotSectionId.evidence (false, [])
    fun bytes => decodeEvidenceSection bytes limits
  pure
    { metadata := { metadata with generation := topology.generation }
      topology := topology
      episodes := episodes
      evidence := evidence
      evidenceTruncated := truncated }

/-- `decode_snapshot`. What is left after the table is the payload when its length is the one
the header declares. -/
def decodeSnapshot (bytes : Text) (limits : Limits) (policy : ClassificationPolicy) :
    Result SnapshotContent := do
  failIf (bytes.length < kSnapshotHeaderBytes)
    (makeError .integrityFailure "snapshot is shorter than its header")
  let ((header, table), c) ← (do
    let header ← readHeader limits policy
    let table ← readTable header.sectionCount
    pure (header, table) : ByteReader (SnapshotHeader × List SnapshotSection)) ⟨bytes, none⟩
  failIf (c.rest.length ≠ header.payloadBytes.toNat)
    (makeError .integrityFailure "snapshot length does not match the declared payload size")
  failIf (crc64 c.rest ≠ header.payloadCrc)
    (makeError .integrityFailure "snapshot payload checksum mismatch")
  let sections ← collectSections c.rest table
  decodeContent header sections limits policy

end

end CongestionObservatory
