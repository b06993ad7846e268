import CongestionObservatory.Core.Checked
import CongestionObservatory.Lib.MemoryReader
import CongestionObservatory.Persistence.Snapshot

/-!
# `CongestionObservatory.Persistence.InPlace`: the snapshot reader by index

`ByteReader` (`persistence/snapshot.cpp`) holds a pointer, a size and a position, and it computes
with `std::size_t`. `Persistence.Bytes` and `Persistence.Snapshot` say what it returns. Here the
same functions compute the positions as the source does, in 64 bits, and leave a trace of every
byte and every range they read, of every offset they add up and of every loop over a count that
they read.

`blob` is read here too. It is a member of `ByteReader` that `decode_snapshot` does not call.
-/

set_option autoImplicit false

namespace CongestionObservatory.InPlace

open Lib MemoryReader

/-- `ByteReader`: what reads a value of `α`. -/
abbrev Reader (α : Type) := MemoryReader Text Error α

/-! ### The byte reader -/

/-- `ByteReader::fail`. -/
def fail (what : String) : Reader Unit := note (ascii what)

/-- `ByteReader::remaining`. -/
def remaining : Reader UInt64 := do
  difference (← size) (← position)

/-- `ByteReader::u8`. -/
def u8 : Reader UInt8 := do
  if (← sum (← position) 1) > (← size) then
    fail "truncated snapshot: byte"
    pure 0
  else
    let byte ← byteAt (← position)
    advance 1
    pure byte

/-- The loop of the wider integers: each byte is shifted to its place. -/
def unsigned : Nat → Reader Nat
  | 0 => pure 0
  | width + 1 => do
    let byte ← u8
    let high ← unsigned width
    pure (byte.toNat + 256 * high)

/-- `ByteReader::u16`. -/
def u16 : Reader UInt16 := UInt16.ofNat <$> unsigned 2

/-- `ByteReader::u32`. -/
def u32 : Reader UInt32 := UInt32.ofNat <$> unsigned 4

/-- `ByteReader::u64`. -/
def u64 : Reader UInt64 := UInt64.ofNat <$> unsigned 8

/-- `ByteReader::i64`. -/
def i64 : Reader Int64 := UInt64.toInt64 <$> u64

/-- `ByteReader::boolean`. -/
def boolean : Reader Bool := (· != 0) <$> u8

/-- The second half of `text` and of `blob`: the length is checked against its bound and against
the size, and the bytes are copied. The sum is not computed for a length above its bound. -/
def extent (bound : Nat) (what : String) (length : UInt64) : Reader Text := do
  if length.toNat > bound then
    fail what
    pure []
  else if (← sum (← position) length) > (← size) then
    fail what
    pure []
  else
    let bytes ← bytesAt (← position) length
    advance length
    pure bytes

/-- `ByteReader::text`. -/
def text (limits : Limits) : Reader Text := do
  let length ← u32
  if ← ok then
    extent limits.maxDocumentBytes "snapshot text field exceeds the configured bound"
      length.toUInt64
  else pure []

/-- `ByteReader::blob`. -/
def blob (limits : Limits) : Reader Text := do
  let length ← u64
  if ← ok then
    extent limits.maxSnapshotBytes "snapshot blob exceeds the configured bound" length
  else pure []

/-- `ByteReader::digest_id`, as the identity `from_digest` makes of it. -/
def digestId {Tag : Type} : Reader (DigestId Tag) := DigestId.mk <$> u64 <*> u64

/-- `ByteReader::count`: a number that is checked against its bound. -/
def count (bound : Nat) (what : String) : Reader Nat := do
  let value ← u32
  if ← ok then
    if value.toNat > bound then
      fail what
      pure 0
    else pure value.toNat
  else pure 0

/-- A call of a member function of `ByteReader`. -/
inductive ReaderCall where
  | u8
  | u16
  | u32
  | u64
  | i64
  | boolean
  | text
  | blob
  | digestId
  | count (bound : Nat) (what : String)
  | remaining
  | fail (what : String)
  deriving DecidableEq

/-- The call, without the value it returns. -/
def ReaderCall.run (limits : Limits) : ReaderCall → Reader Unit
  | u8 => do let _ ← InPlace.u8
  | u16 => do let _ ← InPlace.u16
  | u32 => do let _ ← InPlace.u32
  | u64 => do let _ ← InPlace.u64
  | i64 => do let _ ← InPlace.i64
  | boolean => do let _ ← InPlace.boolean
  | text => do let _ ← InPlace.text limits
  | blob => do let _ ← InPlace.blob limits
  | digestId => do let _ : EvidenceId ← InPlace.digestId
  | count bound what => do let _ ← InPlace.count bound what
  | remaining => do let _ ← InPlace.remaining
  | fail what => InPlace.fail what

/-- Calls, one after the other, on the same reader. -/
def runCalls (limits : Limits) : List ReaderCall → Reader Unit
  | [] => pure ()
  | call :: rest => do
    call.run limits
    runCalls limits rest

/-- The loop that fills a vector with `n` elements, for a number that was checked against a
bound. -/
def times {α : Type} (bound n : Nat) (read : Reader α) : Reader (List α) :=
  loop bound (fun elements => do
    let element ← read
    pure (elements ++ [element])) n []

/-- A counted list: the number within its bound, then the elements. -/
def list {α : Type} (bound : Nat) (what : String) (read : Reader α) : Reader (List α) := do
  let n ← count bound what
  times bound n read

/-- An enumeration that is stored as a byte. -/
def enum8 {E : Type} [ScopedEnum E UInt8] : Reader E := ofUnderlying <$> u8

/-- A text that is parsed. The error of the parser ends the reading. -/
def parsed {α : Type} (limits : Limits) (parse : Text → Result α) : Reader α := do
  let value ← text limits
  lift (parse value)

/-- `read_generation`. -/
def readGeneration : Reader GenerationVector := GenerationVector.mk <$> u64 <*> u64 <*> u64

/-- `read_subject`. Of the kind only whether it is `none` is looked at. -/
def readSubject (limits : Limits) : Reader EvidenceSubject := do
  let kind ← u8
  let text ← text limits
  if ← ok then
    if kind = SubjectKind.none.toUInt8 then pure .none
    else match parseSubject text with
    | .error _ =>
      fail "snapshot contains an unparsable subject"
      pure .none
    | .ok subject => pure subject
  else pure .none

/-! ### Sections -/

/-- The check of `ok` at the end of a part. -/
def checkOk (message : String) : Reader Unit := fun _ p =>
  match p.failure with
  | some what => ⟨.error (makeError .integrityFailure message what), []⟩
  | none => ⟨.ok ((), p), []⟩

/-- A section is read to its end. -/
def readWhole {α : Type} (name : String) (read : Reader α) (bytes : Memory) : Traced Error α := do
  let (a, _) ← (do
    let a ← read
    checkOk (name ++ " section is malformed")
    if (← remaining) ≠ 0 then
      lift (.error (makeError .integrityFailure (name ++ " section has trailing bytes")))
    else pure a : Reader α) bytes Standing.start
  pure a

/-- An entry of a record's metadata. Its texts are checked against their own bounds. -/
def readMetadataEntry (limits : Limits) : Reader (Text × Text) := do
  let key ← text limits
  let value ← text limits
  if key.length > limits.maxMetadataKeyBytes ∨ value.length > limits.maxMetadataValueBytes then
    lift (.error (makeError .limitExceeded "metadata entry exceeds the configured bound"))
  else pure (key, value)

def readProvenance (limits : Limits) : Reader Provenance :=
  Provenance.mk <$> parsed limits EntityId.parse <*> enum8 <*> text limits <*> text limits

def readFence (limits : Limits) : Reader FenceVector :=
  FenceVector.mk <$> parsed limits EntityId.parse <*> u64 <*> u64 <*> readGeneration <*> u64

def readValue : Reader EvidenceValue :=
  EvidenceValue.mk <$> (Double.mk <$> u64) <*> enum8 <*> enum8

/-- The loop body of `decode_snapshot` over the evidence, up to the check of the identity. -/
def readEvidenceFields (limits : Limits) : Reader EvidenceRecord :=
  (fun id kind subject provenance fence observedAt receivedAt clock value validity completeness
      support recovered retired note labels metadata =>
    { id := id, kind := ofUnderlying kind, subject := subject, provenance := provenance
      fence := fence, observedAt := ⟨observedAt⟩, receivedAt := ⟨receivedAt⟩, clock := clock
      value := value, validity := ⟨validity⟩, completeness := completeness, support := support
      labels := labels, metadata := metadata, note := note, recoveredFromSnapshot := recovered
      retired := retired })
    <$> digestId <*> u16 <*> readSubject limits <*> readProvenance limits <*> readFence limits
    <*> i64 <*> i64 <*> enum8 <*> readValue <*> i64 <*> enum8 <*> enum8 <*> boolean <*> boolean
    <*> text limits
    <*> list limits.maxLabels "label count exceeds the limit" (parsed limits Name.parse)
    <*> list limits.maxMetadataEntries "metadata count exceeds the limit" (readMetadataEntry limits)

/-- The loop body of `decode_snapshot` over the evidence. -/
def readEvidence (limits : Limits) : Reader EvidenceRecord := do
  let record ← readEvidenceFields limits
  checkOk "evidence section is malformed"
  if computeEvidenceId record ≠ record.id then
    lift (.error (makeError .integrityFailure "evidence identity does not match its content"
      record.id.str))
  else pure record

/-- An empty tenant means that the episode is not attributed. -/
def readTenant (limits : Limits) : Reader TenantId :=
  parsed limits fun value => if value = [] then .ok EntityId.default else EntityId.parse value

def readEpisodeKey (limits : Limits) : Reader EpisodeKey :=
  EpisodeKey.mk <$> readSubject limits <*> readTenant limits <*> enum8 <*> readGeneration
    <*> text limits

def readTransition (limits : Limits) : Reader EpisodeTransition :=
  (fun revision kind time severityBefore severityAfter verdictBefore verdictAfter confidence cause
      citations =>
    { revision := revision, kind := kind, at_ := ⟨time⟩, severityBefore := severityBefore
      severityAfter := severityAfter, verdictBefore := verdictBefore, verdictAfter := verdictAfter
      confidence := confidence, cause := cause, citations := citations })
    <$> u64 <*> enum8 <*> i64 <*> enum8 <*> enum8 <*> enum8 <*> enum8 <*> u32 <*> text limits
    <*> list limits.maxCitations "transition citation count exceeds limit" digestId

def readAssessmentDigest : Reader AssessmentDigest :=
  (fun time verdict mechanisms severity confidence citationCount fresh citation =>
    { at_ := ⟨time⟩, verdict := verdict, mechanisms := mechanisms, severity := severity
      confidence := confidence, citationCount := UInt32.toNat citationCount
      freshConfirmingEvidence := fresh, representativeCitation := citation })
    <$> i64 <*> enum8 <*> u32 <*> enum8 <*> u32 <*> u32 <*> boolean <*> digestId

/-- The loop body of `decode_snapshot` over the episodes, up to the check of the identity. -/
def readEpisodeFields (limits : Limits) : Reader Episode :=
  (fun id key state revision currentSeverity peakSeverity confidence firstSeen lastSeen lastUpdated
      resolvedAt observations citations sources transitions assessments transitionsDropped
      assessmentsDropped historyTruncated =>
    { id := id, key := key, state := state, revision := revision
      currentSeverity := currentSeverity, peakSeverity := peakSeverity, confidence := confidence
      firstSeen := ⟨firstSeen⟩, lastSeen := ⟨lastSeen⟩, lastUpdated := ⟨lastUpdated⟩
      resolvedAt := ⟨resolvedAt⟩, observations := observations, transitions := transitions
      assessments := assessments, citations := citations, sources := sources
      transitionsDropped := transitionsDropped, assessmentsDropped := assessmentsDropped
      historyTruncated := historyTruncated })
    <$> digestId <*> readEpisodeKey limits <*> enum8 <*> u64 <*> enum8 <*> enum8 <*> u32 <*> i64
    <*> i64 <*> i64 <*> i64 <*> u64
    <*> list limits.maxCitations "citation count exceeds the limit" digestId
    <*> list limits.maxSources "source count exceeds the limit" (parsed limits EntityId.parse)
    <*> list limits.maxEpisodeTransitions "transition count exceeds the limit"
      (readTransition limits)
    <*> list limits.maxEpisodeAssessments "assessment count exceeds limit" readAssessmentDigest
    <*> u64 <*> u64 <*> boolean

/-- The loop body of `decode_snapshot` over the episodes. -/
def readEpisode (limits : Limits) : Reader Episode := do
  let episode ← readEpisodeFields limits
  checkOk "episode section is malformed"
  if computeEpisodeId episode.key ≠ episode.id then
    lift (.error (makeError .integrityFailure "episode identity does not match its key"
      episode.id.str))
  else pure episode

def readNode (limits : Limits) : Reader Node :=
  Node.mk <$> parsed limits EntityId.parse <*> enum8
    <*> list limits.maxLabels "label count exceeds the limit" (parsed limits Name.parse)

def readPort (limits : Limits) : Reader Port :=
  Port.mk <$> parsed limits EntityId.parse <*> parsed limits EntityId.parse <*> u64

def readLink (limits : Limits) : Reader Link :=
  Link.mk <$> parsed limits EntityId.parse <*> parsed limits EntityId.parse
    <*> parsed limits EntityId.parse <*> u64

def readQueue (limits : Limits) : Reader Queue :=
  Queue.mk <$> parsed limits EntityId.parse <*> parsed limits EntityId.parse <*> u32 <*> u32 <*> u32

def readBuffer (limits : Limits) : Reader Buffer :=
  Buffer.mk <$> parsed limits EntityId.parse <*> parsed limits EntityId.parse <*> u32 <*> u64

def readPath (limits : Limits) : Reader Path :=
  Path.mk <$> parsed limits EntityId.parse
    <*> list limits.maxPathHops "hop count exceeds the limit" (parsed limits EntityId.parse)

def readFlow (limits : Limits) : Reader Flow :=
  Flow.mk <$> parsed limits EntityId.parse <*> parsed limits EntityId.parse
    <*> parsed limits EntityId.parse <*> parsed limits EntityId.parse

/-- The loop of `decode_topology_section` over one collection: each object is read and added. -/
def addEach {α : Type} (bound : Nat) (what : String) (read : Reader α)
    (add : TopologyBuilder → α → Result TopologyBuilder) (builder : TopologyBuilder) :
    Reader TopologyBuilder := do
  let n ← count bound what
  loop bound (fun builder => do
    let object ← read
    lift (add builder object)) n builder

/-- The label of the revision. An empty one leaves the default. -/
def readRevisionLabel (limits : Limits) : Reader Name :=
  parsed limits fun label => if label = [] then .ok Name.default else Name.parse label

/-- The part of `decode_topology_section` that reads. -/
def readTopology (limits : Limits) : Reader TopologyBuilder := do
  let generation ← readGeneration
  let label ← readRevisionLabel limits
  let b : TopologyBuilder :=
    { limits := limits, generation := generation, revisionLabel := label }
  let b ← addEach limits.maxNodes "node count exceeds the limit" (readNode limits)
    TopologyBuilder.addNode b
  let b ← addEach limits.maxPorts "port count exceeds the limit" (readPort limits)
    TopologyBuilder.addPort b
  let b ← addEach limits.maxLinks "link count exceeds the limit" (readLink limits)
    TopologyBuilder.addLink b
  let b ← addEach limits.maxQueues "queue count exceeds the limit" (readQueue limits)
    TopologyBuilder.addQueue b
  let b ← addEach limits.maxBuffers "buffer count exceeds the limit" (readBuffer limits)
    TopologyBuilder.addBuffer b
  let b ← addEach limits.maxPaths "path count exceeds the limit" (readPath limits)
    TopologyBuilder.addPath b
  addEach limits.maxFlows "flow count exceeds the limit" (readFlow limits)
    TopologyBuilder.addFlow b

/-- `decode_topology_section`. -/
def decodeTopologySection (bytes : Memory) (limits : Limits) : Traced Error Topology := do
  let builder ← readWhole "topology" (readTopology limits) bytes
  Traced.lift (builder.build limits)

/-- The fields of the metadata section. -/
def readSnapshotMetadata (limits : Limits) : Reader SnapshotMetadata :=
  (fun version policyDigest limitsDigest topologyDigest createdAt runtimeInstance acceptedTotal
      rejectedTotal generation producer =>
    { policyVersion := version, policyDigest := policyDigest, limitsDigest := limitsDigest
      topologyDigest := topologyDigest, createdAt := ⟨createdAt⟩
      runtimeInstance := runtimeInstance, acceptedTotal := acceptedTotal
      rejectedTotal := rejectedTotal, generation := generation, producerVersion := producer })
    <$> text limits <*> u64 <*> u64 <*> u64 <*> i64 <*> u64 <*> u64 <*> u64 <*> readGeneration
    <*> text limits

/-- The metadata section of `decode_snapshot`. Trailing bytes are not looked at. -/
def decodeMetadataSection (bytes : Memory) (limits : Limits) (policy : ClassificationPolicy) :
    Traced Error SnapshotMetadata := do
  let (m, _) ← (do
    let m ← readSnapshotMetadata limits
    checkOk "metadata section is malformed"
    pure m : Reader SnapshotMetadata) bytes Standing.start
  Traced.lift (failIf (m.policyVersion ≠ policy.version)
    (makeError .versionMismatch "snapshot policy version differs from the active policy"
      (m.policyVersion ++ ascii " != " ++ policy.version)))
  pure m

/-- The episode section of `decode_snapshot`. -/
def decodeEpisodeSection (bytes : Memory) (limits : Limits) : Traced Error (List Episode) :=
  readWhole "episode"
    (list limits.maxSnapshotEpisodes "episode count exceeds the limit" (readEpisode limits)) bytes

/-- The evidence section of `decode_snapshot`. A count above the limit is not an error: nothing
is read and the truncation is noted. -/
def decodeEvidenceSection (bytes : Memory) (limits : Limits) :
    Traced Error (Bool × List EvidenceRecord) :=
  readWhole "evidence" (do
    let rawCount ← u32
    let truncated := decide (rawCount.toNat > limits.maxSnapshotEvidence)
    let records ← times limits.maxSnapshotEvidence (if truncated then 0 else rawCount.toNat)
      (readEvidence limits)
    pure (truncated, records)) bytes

/-! ### The snapshot -/

/-- The loop over the magic bytes. -/
def readMagic : Text → Reader Unit
  | [] => pure ()
  | expected :: rest => do
    let byte ← u8
    if byte ≠ expected then
      lift (.error (makeError .integrityFailure "snapshot magic does not match"))
    else readMagic rest

/-- The version fields. -/
def readVersion : Reader Unit := do
  let major ← u32
  let minor ← u32
  if major ≠ kSnapshotFormatMajor then
    lift (.error (makeError .versionMismatch "snapshot format major version differs"
      (ascii "found=" ++ decimal major.toNat ++ ascii " expected="
        ++ decimal kSnapshotFormatMajor.toNat)))
  else if minor > kSnapshotFormatMinor then
    lift (.error (makeError .versionMismatch "snapshot was written by a newer minor format"
      (ascii "found=" ++ decimal minor.toNat ++ ascii " supported="
        ++ decimal kSnapshotFormatMinor.toNat)))
  else pure ()

/-- The header, as `decode_snapshot` reads and checks it. -/
def readHeader (limits : Limits) (policy : ClassificationPolicy) : Reader SnapshotHeader := do
  readMagic kSnapshotMagic
  readVersion
  let header ← SnapshotHeader.mk <$> u64 <*> u64 <*> u64 <*> i64
    <*> count limits.maxSnapshotSections "section count exceeds the limit" <*> u64 <*> u64
  checkOk "snapshot header is malformed"
  lift (checkHeader header limits policy)
  pure header

/-- An entry of the section table. -/
def readSection : Reader SnapshotSection :=
  SnapshotSection.mk <$> u32 <*> u64 <*> u64 <*> u64

/-- The section table. -/
def readTable (limits : Limits) (n : Nat) : Reader (List SnapshotSection) := do
  let table ← times limits.maxSnapshotSections n readSection
  checkOk "snapshot section table is malformed"
  pure table

/-- The header and the table. -/
def readHead (limits : Limits) (policy : ClassificationPolicy) :
    Reader (SnapshotHeader × List SnapshotSection) := do
  let header ← readHeader limits policy
  let table ← readTable limits header.sectionCount
  pure (header, table)

/-- The loop body over the section table: the extent, the checksum, no second section of the
same identity. -/
def collectSection (payload : Memory) (sections : OrdMap UInt32 Memory) (s : SnapshotSection) :
    Traced Error (OrdMap UInt32 Memory) :=
  match checkedAdd s.offset.toNat s.length.toNat with
  | none => Traced.lift (.error
      (makeError .integrityFailure "snapshot section extent is out of range"))
  | some end_ => do
    Traced.record (.sum s.offset s.length)
    Traced.lift (failIf (end_ > payload.size.toNat)
      (makeError .integrityFailure "snapshot section extent is out of range"))
    Traced.record (.range s.offset s.length payload.size)
    let slice := payload.slice s.offset s.length
    Traced.lift (failIf (crc64 slice.bytes ≠ s.crc64)
      (makeError .integrityFailure "snapshot section checksum mismatch"
        (ascii "section=" ++ decimal s.id.toNat)))
    Traced.lift (failIf (sections.contains s.id)
      (makeError .integrityFailure "snapshot contains a duplicate section"
        (ascii "section=" ++ decimal s.id.toNat)))
    pure (sections.insert s.id slice)

/-- The rounds that are left of the loop over the section table. -/
def collectRounds (payload : Memory) (count : Nat) :
    List SnapshotSection → OrdMap UInt32 Memory → Traced Error (OrdMap UInt32 Memory)
  | [], sections => pure sections
  | s :: rest, sections => do
    Traced.record (.round (count - (rest.length + 1)) count)
    let sections ← collectSection payload sections s
    collectRounds payload count rest sections

/-- The sections of the payload by their identity. -/
def collectSections (limits : Limits) (payload : Memory) (table : List SnapshotSection) :
    Traced Error (OrdMap UInt32 Memory) := do
  Traced.record (.counted table.length limits.maxSnapshotSections)
  collectRounds payload table.length table OrdMap.empty

/-- A section that must be there. -/
def requireSection (sections : OrdMap UInt32 Memory) (id : UInt32) (message : String) :
    Traced Error Memory :=
  match sections.find? id with
  | none => Traced.lift (.error (makeError .integrityFailure message))
  | some bytes => pure bytes

/-- A section that may be absent, and what is taken then. -/
def optionalSection {α : Type} (sections : OrdMap UInt32 Memory) (id : UInt32) (absent : α)
    (decode : Memory → Traced Error α) : Traced Error α :=
  match sections.find? id with
  | none => pure absent
  | some bytes => decode bytes

/-- The last part of `decode_snapshot`: the sections are decoded. -/
def decodeContent (header : SnapshotHeader) (sections : OrdMap UInt32 Memory) (limits : Limits)
    (policy : ClassificationPolicy) : Traced Error SnapshotContent := do
  let bytes ← requireSection sections SnapshotSectionId.metadata "snapshot has no metadata section"
  let metadata ← decodeMetadataSection bytes limits policy
  let bytes ← requireSection sections SnapshotSectionId.topology "snapshot has no topology section"
  let topology ← decodeTopologySection bytes limits
  Traced.lift (failIf (topology.digest ≠ header.topologyDigest)
    (makeError .integrityFailure "topology digest does not match the header"))
  let episodes ← optionalSection sections SnapshotSectionId.episodes [] fun bytes =>
    decodeEpisodeSection bytes limits
  let (truncated, evidence) ← optionalSection sections SnapshotSectionId.evidence (false, [])
    fun bytes => decodeEvidenceSection bytes limits
  pure
    { metadata := { metadata with generation := topology.generation }
      topology := topology
      episodes := episodes
      evidence := evidence
      evidenceTruncated := truncated }

/-- `decode_snapshot` from the payload on. -/
def decodePayload (header : SnapshotHeader) (table : List SnapshotSection) (payloadOffset : UInt64)
    (bytes : Memory) (limits : Limits) (policy : ClassificationPolicy) :
    Traced Error SnapshotContent := do
  Traced.lift (failIf (payloadOffset + header.payloadBytes ≠ bytes.size)
    (makeError .integrityFailure "snapshot length does not match the declared payload size"))
  Traced.record (.range payloadOffset header.payloadBytes bytes.size)
  let payload := bytes.slice payloadOffset header.payloadBytes
  Traced.lift (failIf (crc64 payload.bytes ≠ header.payloadCrc)
    (makeError .integrityFailure "snapshot payload checksum mismatch"))
  let sections ← collectSections limits payload table
  decodeContent header sections limits policy

/-- `decode_snapshot`. The end of the payload is a sum of 64 bits. -/
def decodeSnapshot (bytes : Memory) (limits : Limits) (policy : ClassificationPolicy) :
    Traced Error SnapshotContent := do
  Traced.lift (failIf (bytes.size.toNat < kSnapshotHeaderBytes)
    (makeError .integrityFailure "snapshot is shorter than its header"))
  let ((header, table), p) ← readHead limits policy bytes Standing.start
  Traced.record (.sum p.index header.payloadBytes)
  decodePayload header table p.index bytes limits policy

end CongestionObservatory.InPlace
