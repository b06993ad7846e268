import CongestionObservatory.Lib.OrdMap
import CongestionObservatory.Core.Limits
import CongestionObservatory.Core.Arithmetic
import CongestionObservatory.Model.Generation

/-!
# `CongestionObservatory.Evidence.Evidence`: observation records

An `EvidenceRecord` (`evidence/evidence.hpp`) is one observation with its provenance, its fence
and its epistemic state. `validateEvidence` checks its structure, `assessFreshness` dates it
against an explicit instant, and `assessAgreement` compares the values several sources report.
-/

set_option autoImplicit false

namespace CongestionObservatory

open Lib

/-- `EvidenceKind`: what a record physically reports. -/
inductive EvidenceKind where
  | unknown
  | linkUtilization
  | portUtilization
  | queueOccupancy
  | queueDepth
  | bufferOccupancy
  | dropCount
  | markCount
  | pauseCount
  | pauseDuration
  | latencySample
  | offeredDemand
  | achievedThroughput
  | activeFlowCount
  | activeClassCount
  | operState
  | sourceHeartbeat
  | topologyAdvertisement
  | capacityAdvertisement
  | retransmitCount
  | undeclared (raw : UInt16) (h : 20 ≤ raw)
  deriving DecidableEq, Repr

instance : ScopedEnum EvidenceKind UInt16 where
  toUnderlying
    | .unknown => 0
    | .linkUtilization => 1
    | .portUtilization => 2
    | .queueOccupancy => 3
    | .queueDepth => 4
    | .bufferOccupancy => 5
    | .dropCount => 6
    | .markCount => 7
    | .pauseCount => 8
    | .pauseDuration => 9
    | .latencySample => 10
    | .offeredDemand => 11
    | .achievedThroughput => 12
    | .activeFlowCount => 13
    | .activeClassCount => 14
    | .operState => 15
    | .sourceHeartbeat => 16
    | .topologyAdvertisement => 17
    | .capacityAdvertisement => 18
    | .retransmitCount => 19
    | .undeclared raw _ => raw
  ofUnderlying raw :=
    if h : 20 ≤ raw then .undeclared raw h
    else [.unknown, .linkUtilization, .portUtilization, .queueOccupancy, .queueDepth,
      .bufferOccupancy, .dropCount, .markCount, .pauseCount, .pauseDuration, .latencySample,
      .offeredDemand, .achievedThroughput, .activeFlowCount, .activeClassCount, .operState,
      .sourceHeartbeat, .topologyAdvertisement, .capacityAdvertisement, .retransmitCount
      ].getD raw.toNat .unknown
  ofUnderlying_toUnderlying e := by
    cases e with
    | undeclared raw h => exact dif_pos h
    | _ => rfl

/-- `EvidenceRole`: the argumentative category of a record. -/
inductive EvidenceRole where
  | unknown
  | utilization
  | contention
  | pressure
  | impairment
  | demand
  | capacity
  | topology
  | liveness
  deriving DecidableEq, Repr

/-- `role_of`: the role column of the kind table. -/
def roleOf : EvidenceKind → EvidenceRole
  | .unknown => .unknown
  | .linkUtilization => .utilization
  | .portUtilization => .utilization
  | .queueOccupancy => .pressure
  | .queueDepth => .pressure
  | .bufferOccupancy => .pressure
  | .dropCount => .impairment
  | .markCount => .impairment
  | .pauseCount => .impairment
  | .pauseDuration => .impairment
  | .latencySample => .impairment
  | .offeredDemand => .demand
  | .achievedThroughput => .demand
  | .activeFlowCount => .contention
  | .activeClassCount => .contention
  | .operState => .topology
  | .sourceHeartbeat => .liveness
  | .topologyAdvertisement => .topology
  | .capacityAdvertisement => .capacity
  | .retransmitCount => .impairment
  | .undeclared _ _ => .unknown

/-- `ObservationUnit`. -/
inductive ObservationUnit where
  | unknown
  | ratio
  | cells
  | packets
  | bytes
  | nanoseconds
  | bitsPerSecond
  | count
  | boolean
  | frames
  | undeclared (raw : UInt8) (h : 10 ≤ raw)
  deriving DecidableEq, Repr

instance : ScopedEnum ObservationUnit UInt8 where
  toUnderlying
    | .unknown => 0
    | .ratio => 1
    | .cells => 2
    | .packets => 3
    | .bytes => 4
    | .nanoseconds => 5
    | .bitsPerSecond => 6
    | .count => 7
    | .boolean => 8
    | .frames => 9
    | .undeclared raw _ => raw
  ofUnderlying raw :=
    if h : 10 ≤ raw then .undeclared raw h
    else [.unknown, .ratio, .cells, .packets, .bytes, .nanoseconds, .bitsPerSecond, .count,
      .boolean, .frames].getD raw.toNat .unknown
  ofUnderlying_toUnderlying e := by
    cases e with
    | undeclared raw h => exact dif_pos h
    | _ => rfl

/-- `ValueSemantics`. -/
inductive ValueSemantics where
  | unknown
  | gauge
  | cumulativeCounter
  | deltaCounter
  | rate
  | undeclared (raw : UInt8) (h : raw > 4)
  deriving DecidableEq, Repr

instance : ScopedEnum ValueSemantics UInt8 where
  toUnderlying
    | .unknown => 0
    | .gauge => 1
    | .cumulativeCounter => 2
    | .deltaCounter => 3
    | .rate => 4
    | .undeclared raw _ => raw
  ofUnderlying raw :=
    if h : raw > 4 then .undeclared raw h
    else [.unknown, .gauge, .cumulativeCounter, .deltaCounter, .rate].getD raw.toNat .unknown
  ofUnderlying_toUnderlying e := by
    cases e with
    | undeclared raw h => exact dif_pos h
    | _ => rfl

/-- `Support`: whether the observation could be made at all. -/
inductive Support where
  | supported
  | unsupported
  | unknown
  | undeclared (raw : UInt8) (h : 3 ≤ raw)
  deriving DecidableEq, Repr

instance : ScopedEnum Support UInt8 where
  toUnderlying
    | .supported => 0
    | .unsupported => 1
    | .unknown => 2
    | .undeclared raw _ => raw
  ofUnderlying raw :=
    if h : 3 ≤ raw then .undeclared raw h
    else [.supported, .unsupported, .unknown].getD raw.toNat .supported
  ofUnderlying_toUnderlying e := by
    cases e with
    | undeclared raw h => exact dif_pos h
    | _ => rfl

/-- `Completeness`. The enumerator `kPartial` is `partially`. -/
inductive Completeness where
  | complete
  | partially
  | incomplete
  | unknown
  | undeclared (raw : UInt8) (h : 4 ≤ raw)
  deriving DecidableEq, Repr

instance : ScopedEnum Completeness UInt8 where
  toUnderlying
    | .complete => 0
    | .partially => 1
    | .incomplete => 2
    | .unknown => 3
    | .undeclared raw _ => raw
  ofUnderlying raw :=
    if h : 4 ≤ raw then .undeclared raw h
    else [.complete, .partially, .incomplete, .unknown].getD raw.toNat .complete
  ofUnderlying_toUnderlying e := by
    cases e with
    | undeclared raw h => exact dif_pos h
    | _ => rfl

/-- `Freshness` of a record at an instant. -/
inductive Freshness where
  | fresh
  | aging
  | stale
  | expired
  | unknown
  deriving DecidableEq, Repr

/-- `Agreement` between sources. -/
inductive Agreement where
  | unknown
  | singleSource
  | unanimous
  | minority
  | conflicting
  | incomparable
  deriving DecidableEq, Repr

/-- `EvidenceValue`. -/
structure EvidenceValue where
  scalar : Double := Double.zero
  unit : ObservationUnit := .unknown
  semantics : ValueSemantics := .unknown
  deriving DecidableEq

/-- `Provenance`: who said this, and how. -/
structure Provenance where
  source : SourceId := EntityId.default
  authority : AuthorityLevel := .unknown
  transport : Text := []
  collector : Text := []
  deriving DecidableEq

/-- `EvidenceRecord`. -/
structure EvidenceRecord where
  id : EvidenceId := DigestId.default
  kind : EvidenceKind := .unknown
  subject : EvidenceSubject := .none
  provenance : Provenance := {}
  fence : FenceVector := {}
  observedAt : Timestamp := Timestamp.zero
  receivedAt : Timestamp := Timestamp.zero
  clock : ClockDomain := .unknown
  value : EvidenceValue := {}
  validity : Duration := Duration.fromSeconds 5
  completeness : Completeness := .complete
  support : Support := .supported
  labels : List Name := []
  metadata : List (Text × Text) := []
  note : Text := []
  recoveredFromSnapshot : Bool := false
  retired : Bool := false
  insertionIndex : Nat := 0
  deriving DecidableEq

/-- The number a record reports. -/
def EvidenceRecord.scalar {α : Type} [Arithmetic α] (r : EvidenceRecord) : α :=
  Arithmetic.ofDouble r.value.scalar

/-- `encode_evidence_identity`. -/
def encodeEvidenceIdentity (record : EvidenceRecord) (hasher : StableHasher) : StableHasher :=
  let hasher := (hasher.update record.provenance.source.str).separator
  let hasher := hasher.updateU64 record.fence.boot
  let hasher := hasher.updateU64 record.fence.incarnation
  let hasher := hasher.updateU64 record.fence.gen.epoch
  let hasher := hasher.updateU64 record.fence.gen.generation
  let hasher := hasher.updateU64 record.fence.gen.revision
  let hasher := hasher.updateU64 record.fence.sequence
  let hasher := hasher.updateU64 (toUnderlying record.kind).toUInt64
  let hasher := hasher.updateU64 record.subject.kind.toUInt8.toUInt64
  let hasher := hasher.update record.subject.str
  let hasher := hasher.updateI64 record.observedAt.nanos
  let hasher := hasher.updateU64 (toUnderlying record.value.unit).toUInt64
  hasher.updateU64 (toUnderlying record.value.semantics).toUInt64

/-- `compute_evidence_id`. -/
def computeEvidenceId (record : EvidenceRecord) : EvidenceId :=
  DigestId.fromDigest (encodeEvidenceIdentity record {}).digest128

/-- `validate_evidence`. -/
def validateEvidence (record : EvidenceRecord) (limits : Limits) : Status := do
  failIf (record.kind = .unknown) (makeError .invalidArgument "evidence kind is unknown")
  failIf (¬ record.subject.valid) (makeError .invalidArgument "evidence subject is empty")
  failIf (¬ record.provenance.source.valid)
    (makeError .invalidArgument "evidence source is missing")
  failIf (record.fence.source ≠ record.provenance.source)
    (makeError .preconditionFailed "fence source does not match the provenance source"
      (record.fence.source.str ++ ascii " != " ++ record.provenance.source.str))
  failIf (record.support = .supported ∧ record.value.unit = .unknown)
    (makeError .invalidArgument "supported evidence requires an observation unit"
      record.subject.str)
  failIf (¬ record.value.scalar.isFinite)
    (makeError .invalidArgument "evidence value is not finite" record.subject.str)
  failIf record.validity.isNegative
    (makeError .invalidArgument "evidence validity is negative")
  failIf (record.labels.length > limits.maxLabels)
    (makeError .limitExceeded "evidence label count exceeds the limit")
  checkAll (fun label : Name => failIf (¬ label.valid)
    (makeError .invalidArgument "evidence label is invalid")) record.labels
  failIf (record.metadata.length > limits.maxMetadataEntries)
    (makeError .limitExceeded "evidence metadata count exceeds the limit")
  checkAll (fun entry : Text × Text => do
    failIf (entry.1.length > limits.maxMetadataKeyBytes)
      (makeError .limitExceeded "evidence metadata key exceeds the limit")
    failIf (entry.2.length > limits.maxMetadataValueBytes)
      (makeError .limitExceeded "evidence metadata value exceeds the limit")) record.metadata
  failIf (record.note.length > limits.maxNoteBytes)
    (makeError .limitExceeded "evidence note exceeds the limit")

/-- `FreshnessPolicy`, with the defaults of the source. -/
structure FreshnessPolicy where
  freshWithin : Duration := Duration.fromSeconds 2
  agingWithin : Duration := Duration.fromSeconds 10
  staleWithin : Duration := Duration.fromSeconds 60
  maxFutureSkew : Duration := Duration.fromSeconds 1
  requirePlausibleTimestamps : Bool := true
  deriving DecidableEq

/-- `FreshnessAssessment`. -/
structure FreshnessAssessment where
  freshness : Freshness := .unknown
  age : Duration := Duration.zero
  reasonCode : Text := []
  deriving DecidableEq

/-- `assess_freshness`. A recovered or retired record is never dated: it is history. -/
def assessFreshness (record : EvidenceRecord) (now : Timestamp) (policy : FreshnessPolicy) :
    FreshnessAssessment :=
  let age := now - record.observedAt
  if record.recoveredFromSnapshot then
    { reasonCode := ascii "persisted_dynamic_evidence_not_live" }
  else if record.retired then
    { reasonCode := ascii "superseded_by_newer_source_incarnation" }
  else if record.clock = .unknown then
    { reasonCode := ascii "clock_domain_unknown" }
  else if record.observedAt.isZero || record.receivedAt.isZero then
    { reasonCode := ascii "timestamp_missing" }
  else if policy.requirePlausibleTimestamps
      && decide (record.observedAt > record.receivedAt + policy.maxFutureSkew) then
    { reasonCode := ascii "observation_after_receive_by_more_than_skew" }
  else if policy.requirePlausibleTimestamps
      && decide (record.receivedAt > now + policy.maxFutureSkew) then
    { reasonCode := ascii "receive_time_in_future" }
  else if policy.requirePlausibleTimestamps
      && decide (record.observedAt > now + policy.maxFutureSkew) then
    { reasonCode := ascii "observation_in_future" }
  else if age > policy.staleWithin ∨ age > record.validity then
    { freshness := .expired, age := age, reasonCode := ascii "beyond_validity_window" }
  else if age > policy.agingWithin then
    { freshness := .stale, age := age, reasonCode := ascii "older_than_aging_window" }
  else if age > policy.freshWithin then
    { freshness := .aging, age := age, reasonCode := ascii "older_than_fresh_window" }
  else
    { freshness := .fresh, age := age, reasonCode := ascii "within_fresh_window" }

/-- `usable_as_deciding_evidence`. -/
def usableAsDecidingEvidence (freshness : Freshness) : Bool := freshness == .fresh

/-! ### Agreement -/

section Agreement

variable {α : Type}

/-- What the comparison of several records reads of each: its number, its source and its
identity. -/
structure Position (α : Type) where
  scalar : α
  source : Name
  id : EvidenceId
  deriving DecidableEq

variable [Arithmetic α]

/-- The comparison of the sort of `assess_agreement`: by the value, the source and the id. -/
def Position.precedes (lhs rhs : Position α) : Bool :=
  if ¬ (lhs.scalar ≤ rhs.scalar ∧ rhs.scalar ≤ lhs.scalar) then lhs.scalar < rhs.scalar
  else if lhs.source ≠ rhs.source then lhs.source < rhs.source
  else lhs.id < rhs.id

/-- The position a record takes. -/
def EvidenceRecord.position (r : EvidenceRecord) : Position α :=
  ⟨r.scalar, r.provenance.source.name, r.id⟩

/-- `ordered`: the positions of the records, sorted. -/
def orderedPositions (records : List EvidenceRecord) : List (Position α) :=
  (records.map EvidenceRecord.position).insertionSort fun lhs rhs => rhs.precedes lhs = false

/-- `AgreementAssessment`. -/
structure AgreementAssessment (α : Type := Double) [Arithmetic α] where
  agreement : Agreement := .unknown
  recordsConsidered : Nat := 0
  distinctSources : Nat := 0
  representativeValue : α := 0
  minValue : α := 0
  maxValue : α := 0
  relativeSpread : α := 0
  citations : List EvidenceId := []
  reasonCode : Text := []
  deriving DecidableEq

/-- Whether a value is within the relative tolerance of a cluster's first member. -/
def withinTolerance (tolerance reference value : α) : Bool :=
  Arithmetic.abs (value - reference)
    ≤ tolerance * Arithmetic.max (Arithmetic.abs reference) Arithmetic.tiny

/-- The inner loop of the clustering: a position joins the first cluster whose first member it
is close to, or opens a new cluster at the end. The result also gives the cluster's index. -/
def placeInCluster (tolerance : α) (p : Position α) :
    List (List (Position α)) → List (List (Position α)) × Nat
  | [] => ([[p]], 0)
  | cluster :: rest =>
    if (cluster.head?.map (fun first => withinTolerance tolerance first.scalar p.scalar)).getD false
    then ((cluster ++ [p]) :: rest, 0)
    else
      let (rest', index) := placeInCluster tolerance p rest
      (cluster :: rest', index + 1)

/-- Greedy clustering in ascending order, with the first cluster of each source. -/
def clusterPositions (tolerance : α) (ordered : List (Position α)) :
    List (List (Position α)) × OrdMap Name Nat :=
  ordered.foldl (fun (clusters, firstClusterOfSource) p =>
    let (clusters', index) := placeInCluster tolerance p clusters
    (clusters', firstClusterOfSource.emplace p.source index)) ([], OrdMap.empty)

/-- The first index with the most sources. -/
def majorityIndex (sourcesPerCluster : List Nat) : Nat :=
  (List.range' 1 (sourcesPerCluster.length - 1)).foldl (fun best i =>
    if sourcesPerCluster.getD i 0 > sourcesPerCluster.getD best 0 then i else best) 0

/-- Whether the records can be compared at all: one unit, and no cumulative counters, whose
zero points differ. The semantics are those of the first record. -/
def comparableRecords (records : List EvidenceRecord) : Bool :=
  match records with
  | [] => true
  | first :: _ =>
    records.all (fun record => record.value.unit == first.value.unit)
      && !(first.value.semantics == .cumulativeCounter && decide (records.length > 1))

/-- `assess_agreement`. -/
def assessAgreement (records : List EvidenceRecord) (relativeTolerance : α) (maxCitations : Nat) :
    AgreementAssessment α :=
  if records = [] then { reasonCode := ascii "no_records" }
  else
    let ordered : List (Position α) := orderedPositions records
    let distinct :=
      ordered.foldl (fun m p => m.emplace p.source p) (OrdMap.empty : OrdMap Name (Position α))
    let minValue := (ordered.head?.map Position.scalar).getD 0
    let maxValue := (ordered.getLast?.map Position.scalar).getD 0
    let truncated := decide (ordered.length > maxCitations)
    let base : AgreementAssessment α :=
      { recordsConsidered := records.length
        distinctSources := distinct.size
        minValue := minValue
        maxValue := maxValue
        relativeSpread := (maxValue - minValue)
          / Arithmetic.max (Arithmetic.abs minValue) Arithmetic.tiny
        citations := ((ordered.map Position.id).take maxCitations).insertionSort (· ≤ ·) }
    let withReason (reason : String) : Text :=
      if truncated then ascii "citations_truncated" else ascii reason
    if !comparableRecords records then
      { base with
        agreement := .incomparable, reasonCode := withReason "units_or_semantics_not_comparable" }
    else if distinct.size ≤ 1 then
      { base with
        agreement := .singleSource, representativeValue := minValue
        reasonCode := withReason "single_source_no_corroboration" }
    else
      let (clusters, firstClusterOfSource) := clusterPositions relativeTolerance ordered
      let sourcesPerCluster :=
        (List.range clusters.length).map (fun i => firstClusterOfSource.values.count i)
      let majority := majorityIndex sourcesPerCluster
      let majorityCluster := clusters.getD majority []
      let total := majorityCluster.foldl (fun total p => total + p.scalar) 0
      let representative :=
        if majorityCluster = [] then 0 else total / Arithmetic.ofSize majorityCluster.length
      if clusters.length = 1 then
        { base with
          agreement := .unanimous, representativeValue := representative
          reasonCode := withReason "all_sources_agree" }
      else if sourcesPerCluster.getD majority 0 * 2 > distinct.size then
        { base with
          agreement := .minority, representativeValue := representative
          reasonCode := withReason "dissenting_minority_present" }
      else
        { base with
          agreement := .conflicting, representativeValue := representative
          reasonCode := withReason "no_majority_position" }

end Agreement

end CongestionObservatory
