import CongestionObservatory.Core.Iso8601
import CongestionObservatory.Core.Json
import CongestionObservatory.Evidence.Names
import CongestionObservatory.Evidence.Store
import CongestionObservatory.Transport.Frame

/-!
# `CongestionObservatory.Transport.Message`: the payloads of the frames

The payloads are JSON documents (`transport/server.hpp`). `encodeIngestJson` writes an observation
and `decodeIngestJson` reads one: it takes each field from the document, with a default for those
that may be missing, recomputes the identity and validates the record. The other functions write
the replies of the server.

A counter of 64 bits is written through `std::int64_t`, so one from `2 ^ 63` on is written as a
negative number. `jsonU64` refuses a negative number.
-/

set_option autoImplicit false

namespace CongestionObservatory

/-! ### Writing -/

/-- `version_string`. -/
def versionString : Text := decimal 1 ++ ascii "." ++ decimal 0 ++ ascii "." ++ decimal 0

/-- A document with the given members, as the encoders build and dump it. -/
def dumpObject (members : List (String × JsonValue)) : Text :=
  (JsonValue.ofObject (JsonObject.ofMembers
    (members.map fun member => (ascii member.1, member.2)))).dump 0

/-- `JsonValue(static_cast<std::int64_t>(value))`. -/
def jsonOfU64 (value : UInt64) : JsonValue := .int value.toInt64

/-- `encode_hello_json`. -/
def encodeHelloJson (clientId : Text) : Text :=
  dumpObject
    [("client", .string clientId),
      ("protocol", .int kProtocolVersion.toUInt64.toInt64),
      ("version", .string versionString)]

/-- The members `encode_ingest_json` sets. -/
def ingestMembers (record : EvidenceRecord) : List (String × JsonValue) :=
  [("kind", .string record.kind.toText),
    ("subject", .string record.subject.str),
    ("source", .string record.provenance.source.str),
    ("authority", .string record.provenance.authority.toText),
    ("transport", .string record.provenance.transport),
    ("collector", .string record.provenance.collector),
    ("boot", jsonOfU64 record.fence.boot),
    ("incarnation", jsonOfU64 record.fence.incarnation),
    ("epoch", jsonOfU64 record.fence.gen.epoch),
    ("generation", jsonOfU64 record.fence.gen.generation),
    ("revision", jsonOfU64 record.fence.gen.revision),
    ("sequence", jsonOfU64 record.fence.sequence),
    ("observed_at", .string record.observedAt.toIso8601),
    ("received_at", .string record.receivedAt.toIso8601),
    ("clock", .string record.clock.toText),
    ("value", .double record.value.scalar),
    ("unit", .string record.value.unit.toText),
    ("semantics", .string record.value.semantics.toText),
    ("validity_ns", .int record.validity.nanos),
    ("completeness", .string record.completeness.toText),
    ("support", .string record.support.toText),
    ("note", .string record.note),
    ("labels", .array (record.labels.map fun label => .string label.str)),
    ("metadata", .ofObject (JsonObject.ofMembers
      (record.metadata.map fun entry => (entry.1, .string entry.2))))]

/-- `encode_ingest_json`. -/
def encodeIngestJson (record : EvidenceRecord) : Text := dumpObject (ingestMembers record)

/-- `encode_ingest_ack_json`. -/
def encodeIngestAckJson (outcome : IngestOutcome) : Text :=
  dumpObject
    [("accepted", .bool outcome.stored),
      ("evidence_id", .string outcome.id.str),
      ("fence", .string outcome.fence.toText),
      ("freshness", .string outcome.freshness.toText),
      ("detail", .string outcome.detail),
      ("evicted", .int (Int64.ofNat outcome.evicted)),
      ("liveness_reset", .bool outcome.livenessReset),
      ("sequence_gap", .bool outcome.sequenceGap)]

/-- `encode_error_json`. -/
def encodeErrorJson (code : ErrorCode) (message detail : Text) : Text :=
  dumpObject
    [("error", .string code.toText), ("message", .string message), ("detail", .string detail)]

/-- `ServerStats`. -/
structure ServerStats where
  connectionsAccepted : UInt64 := 0
  connectionsRejected : UInt64 := 0
  framesReceived : UInt64 := 0
  framesSent : UInt64 := 0
  recordsAccepted : UInt64 := 0
  recordsRejected : UInt64 := 0
  protocolErrors : UInt64 := 0
  deriving DecidableEq

/-- `encode_stats_json`. -/
def encodeStatsJson (stats : ServerStats) : Text :=
  dumpObject
    [("connections_accepted", jsonOfU64 stats.connectionsAccepted),
      ("connections_rejected", jsonOfU64 stats.connectionsRejected),
      ("frames_received", jsonOfU64 stats.framesReceived),
      ("frames_sent", jsonOfU64 stats.framesSent),
      ("records_accepted", jsonOfU64 stats.recordsAccepted),
      ("records_rejected", jsonOfU64 stats.recordsRejected),
      ("protocol_errors", jsonOfU64 stats.protocolErrors),
      ("version", .string versionString)]

/-! ### Reading -/

/-- `json_string`. -/
def jsonString (value : Option JsonValue) (fallback : String) : Text :=
  match value with
  | some (.string text) => text
  | _ => ascii fallback

/-- The test of `json_u64` and `json_number`: the field is there and is a number. -/
def jsonNumeric (value : Option JsonValue) (what : String) : Result JsonValue :=
  match value with
  | some (.int n) => .ok (.int n)
  | some (.double d) => .ok (.double d)
  | _ => .error (makeError .invalidArgument ("missing numeric field: " ++ what))

/-- `json_u64`. -/
def jsonU64 (value : Option JsonValue) (what : String) : Result UInt64 := do
  let raw := (← jsonNumeric value what).asInt 0
  failIf (raw < 0) (makeError .outOfRange ("field must not be negative: " ++ what))
  pure raw.toUInt64

/-- `json_number`. -/
def jsonNumber (value : Option JsonValue) (what : String) : Result Double := do
  let number ← jsonNumeric value what
  pure (number.asDouble Double.zero)

namespace IngestJson

/-- The loop over the labels. -/
def readLabels (limits : Limits) : List Name → List JsonValue → Result (List Name)
  | labels, [] => .ok labels
  | labels, .string text :: rest => do
    let label ← Name.parse text
    failIf (labels.length ≥ limits.maxLabels)
      (makeError .limitExceeded "label count exceeds the configured limit")
    readLabels limits (labels ++ [label]) rest
  | _, _ :: _ => .error (makeError .invalidArgument "labels must be strings")

/-- The loop over the metadata. A value that is not a string counts as an empty one. -/
def readMetadata (limits : Limits) :
    List (Text × Text) → List (Text × JsonValue) → Result (List (Text × Text))
  | metadata, [] => .ok metadata
  | metadata, (key, value) :: rest => do
    failIf (metadata.length ≥ limits.maxMetadataEntries)
      (makeError .limitExceeded "metadata entry count exceeds the configured limit")
    failIf (key.length > limits.maxMetadataKeyBytes
        ∨ value.asString.length > limits.maxMetadataValueBytes)
      (makeError .limitExceeded "metadata entry exceeds the configured bound")
    readMetadata limits (metadata ++ [(key, value.asString)]) rest

/-- The address of the observation, read from its six counters. -/
def readFence (root : JsonValue) (source : SourceId) : Result FenceVector := do
  let boot ← jsonU64 (root.member (ascii "boot")) "boot"
  let incarnation ← jsonU64 (root.member (ascii "incarnation")) "incarnation"
  let epoch ← jsonU64 (root.member (ascii "epoch")) "epoch"
  let generation ← jsonU64 (root.member (ascii "generation")) "generation"
  let revision ← jsonU64 (root.member (ascii "revision")) "revision"
  let sequence ← jsonU64 (root.member (ascii "sequence")) "sequence"
  pure
    { source := source
      boot := boot
      incarnation := incarnation
      gen := { epoch := epoch, generation := generation, revision := revision }
      sequence := sequence }

/-- The validity. A missing one is the default of the record. -/
def readValidity (value : Option JsonValue) : Result Duration :=
  match value with
  | none => .ok (Duration.fromSeconds 5)
  | some validity =>
    if validity.asInt 5000000000 < 0 then
      .error (makeError .outOfRange "validity_ns must not be negative")
    else .ok ⟨validity.asInt 5000000000⟩

/-- The observation of a document, before its identity is computed. -/
def readRecord (root : JsonValue) (limits : Limits) : Result EvidenceRecord := do
  let kind ← evidenceKindFromString (jsonString (root.member (ascii "kind")) "")
  let subject ← parseSubject (jsonString (root.member (ascii "subject")) "")
  let source : SourceId ← EntityId.parse (jsonString (root.member (ascii "source")) "")
  let authority ← authorityFromString (jsonString (root.member (ascii "authority")) "unknown")
  let fence ← readFence root source
  let observedAt ← Timestamp.fromIso8601 (jsonString (root.member (ascii "observed_at")) "")
  let receivedAt ← Timestamp.fromIso8601 (jsonString (root.member (ascii "received_at")) "")
  let clock ← clockDomainFromString (jsonString (root.member (ascii "clock")) "unknown")
  let scalar ← jsonNumber (root.member (ascii "value")) "value"
  let unit ← observationUnitFromString (jsonString (root.member (ascii "unit")) "unknown")
  let semantics ←
    valueSemanticsFromString (jsonString (root.member (ascii "semantics")) "unknown")
  let validity ← readValidity (root.member (ascii "validity_ns"))
  let completeness ←
    completenessFromString (jsonString (root.member (ascii "completeness")) "complete")
  let support ← supportFromString (jsonString (root.member (ascii "support")) "supported")
  let labels ← match root.member (ascii "labels") with
    | some (.array items) => readLabels limits [] items
    | _ => .ok []
  let metadata ← match root.member (ascii "metadata") with
    | some (.object members) => readMetadata limits [] members
    | _ => .ok []
  pure
    { kind := kind
      subject := subject
      provenance :=
        { source := source
          authority := authority
          transport := jsonString (root.member (ascii "transport")) "transport"
          collector := jsonString (root.member (ascii "collector")) "collector" }
      fence := fence
      observedAt := observedAt
      receivedAt := receivedAt
      clock := clock
      value := { scalar := scalar, unit := unit, semantics := semantics }
      validity := validity
      completeness := completeness
      support := support
      labels := labels
      metadata := metadata
      note := jsonString (root.member (ascii "note")) "" }

end IngestJson

/-- `decode_ingest_json`. -/
def decodeIngestJson (payload : Text) (limits : Limits) : Result EvidenceRecord := do
  let root ← parseJson payload limits
  failIf (root.isObject = false)
    (makeError .invalidArgument "ingest payload must be a JSON object")
  let record ← IngestJson.readRecord root limits
  let record := { record with id := computeEvidenceId record }
  validateEvidence record limits
  pure record

end CongestionObservatory
