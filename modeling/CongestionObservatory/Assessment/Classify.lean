import CongestionObservatory.Assessment.Policy
import CongestionObservatory.Lib.Sort

/-!
# `CongestionObservatory.Assessment.Classify`: the classification of a subject

`classifySubject` (`assessment/classify.cpp`) turns the records of a window into an assessment.
`extractFeatures` reduces the records to a `FeatureSnapshot`, and a cascade of rules, R00 to
R09, decides the verdict from the features and the policy.

The records are a list of pointers, of which some may be null. What is computed with their values
is a parameter: the source computes with `Double`. The digest of the features, which only serves
inspection, is left out.
-/

set_option autoImplicit false

namespace CongestionObservatory

open Lib

/-- `Verdict`. The enumerator `kCount` is `count`. -/
inductive Verdict where
  | noEvidence
  | idle
  | utilizedHealthy
  | contentionObserved
  | pressureObserved
  | saturated
  | congestionConfirmed
  | indeterminate
  | count
  | undeclared (raw : UInt8) (h : 9 ≤ raw)
  deriving DecidableEq, Repr

instance : ScopedEnum Verdict UInt8 where
  toUnderlying
    | .noEvidence => 0
    | .idle => 1
    | .utilizedHealthy => 2
    | .contentionObserved => 3
    | .pressureObserved => 4
    | .saturated => 5
    | .congestionConfirmed => 6
    | .indeterminate => 7
    | .count => 8
    | .undeclared raw _ => raw
  ofUnderlying raw :=
    if h : 9 ≤ raw then .undeclared raw h
    else [.noEvidence, .idle, .utilizedHealthy, .contentionObserved, .pressureObserved,
      .saturated, .congestionConfirmed, .indeterminate, .count].getD raw.toNat .noEvidence
  ofUnderlying_toUnderlying e := by
    cases e with
    | undeclared raw h => exact dif_pos h
    | _ => rfl

/-- `is_congestion_assertion`. -/
def isCongestionAssertion (verdict : Verdict) : Bool := verdict == .congestionConfirmed

/-- `Mechanism`. The enumerator `kCount` is `count`. -/
inductive Mechanism where
  | none
  | packetDrop
  | ecnMarking
  | pauseBackpressure
  | latencyInflation
  | retransmission
  | count
  | undeclared (raw : UInt8) (h : 7 ≤ raw)
  deriving DecidableEq, Repr

instance : ScopedEnum Mechanism UInt8 where
  toUnderlying
    | .none => 0
    | .packetDrop => 1
    | .ecnMarking => 2
    | .pauseBackpressure => 3
    | .latencyInflation => 4
    | .retransmission => 5
    | .count => 6
    | .undeclared raw _ => raw
  ofUnderlying raw :=
    if h : 7 ≤ raw then .undeclared raw h
    else [.none, .packetDrop, .ecnMarking, .pauseBackpressure, .latencyInflation,
      .retransmission, .count].getD raw.toNat .none
  ofUnderlying_toUnderlying e := by
    cases e with
    | undeclared raw h => exact dif_pos h
    | _ => rfl

/-- `to_string(Mechanism)`. -/
def Mechanism.toText : Mechanism → Text
  | .none => ascii "none"
  | .packetDrop => ascii "packet_drop"
  | .ecnMarking => ascii "ecn_marking"
  | .pauseBackpressure => ascii "pause_backpressure"
  | .latencyInflation => ascii "latency_inflation"
  | .retransmission => ascii "retransmission"
  | .count | .undeclared _ _ => ascii "none"

/-- `MechanismSet`: one bit for each mechanism. -/
abbrev MechanismSet := UInt32

/-- `mechanism_bit`. -/
def mechanismBit (mechanism : Mechanism) : MechanismSet :=
  (1 : UInt32) <<< (toUnderlying mechanism).toUInt32

/-- `has_mechanism`. -/
def hasMechanism (set : MechanismSet) (mechanism : Mechanism) : Bool :=
  (set &&& mechanismBit mechanism) != 0

/-- `primary_mechanism`: the first mechanism of the set, in enumerator order. -/
def primaryMechanism (set : MechanismSet) : Mechanism :=
  ([Mechanism.packetDrop, .ecnMarking, .pauseBackpressure, .latencyInflation,
    .retransmission].find? (hasMechanism set)).getD .none

/-- `popcount`. -/
def popcount (set : MechanismSet) : Nat :=
  (List.range 32).countP fun i => (set >>> UInt32.ofNat i) &&& 1 == 1

/-- `Severity`. -/
inductive Severity where
  | none
  | informational
  | low
  | moderate
  | high
  | critical
  | undeclared (raw : UInt8) (h : 6 ≤ raw)
  deriving DecidableEq, Repr

instance : ScopedEnum Severity UInt8 where
  toUnderlying
    | .none => 0
    | .informational => 1
    | .low => 2
    | .moderate => 3
    | .high => 4
    | .critical => 5
    | .undeclared raw _ => raw
  ofUnderlying raw :=
    if h : 6 ≤ raw then .undeclared raw h
    else [.none, .informational, .low, .moderate, .high, .critical].getD raw.toNat .none
  ofUnderlying_toUnderlying e := by
    cases e with
    | undeclared raw h => exact dif_pos h
    | _ => rfl

/-- `Blocker`: a named reason why an assessment is weaker than it looks. -/
structure Blocker where
  code : Text
  detail : Text
  deriving DecidableEq

/-- `ExplanationStep`. -/
structure ExplanationStep where
  ruleId : Text
  decision : Text
  reasonCode : Text
  citations : List EvidenceId
  deriving DecidableEq

/-- `Explanation`. -/
structure Explanation where
  steps : List ExplanationStep := []
  blockers : List Blocker := []
  policyVersion : Text := []
  policyDigest : UInt64 := 0
  policyDigestHex : Text := []
  deriving DecidableEq

/-- `ConfidenceBasis`. -/
structure ConfidenceBasis where
  decidingRecords : Nat := 0
  corroboratingSources : Nat := 0
  freshRecords : Nat := 0
  agingRecords : Nat := 0
  staleRecords : Nat := 0
  expiredRecords : Nat := 0
  unknownFreshnessRecords : Nat := 0
  conflictingFeatures : Nat := 0
  unsupportedRecords : Nat := 0
  incompleteRecords : Nat := 0
  rawPoints : Nat := 0
  deriving DecidableEq

/-- `FeatureSnapshot`, without its digest. -/
structure FeatureSnapshot (α : Type := Double) [Arithmetic α] where
  subject : EvidenceSubject := .none
  recordsConsidered : Nat := 0
  recordsInWindow : Nat := 0
  recordsFresh : Nat := 0
  recordsAging : Nat := 0
  recordsStale : Nat := 0
  recordsExpired : Nat := 0
  recordsUnknownFreshness : Nat := 0
  recordsGenerationMismatch : Nat := 0
  recordsRecovered : Nat := 0
  recordsRetired : Nat := 0
  decidingSources : Nat := 0
  decidingSourceList : List SourceId := []
  anyFreshDeciding : Bool := false
  utilizationPresent : Bool := false
  utilizationSeenNotFresh : Bool := false
  utilization : α := 0
  utilizationFreshness : Freshness := .unknown
  utilizationAgreement : Agreement := .unknown
  utilizationExceedsAttention : Bool := false
  utilizationExceedsHigh : Bool := false
  pressurePresent : Bool := false
  pressureSeenNotFresh : Bool := false
  pressureRatioAvailable : Bool := false
  pressureExceedsRatio : Bool := false
  pressureRatio : α := 0
  pressureFreshness : Freshness := .unknown
  pressureAgreement : Agreement := .unknown
  contentionPresent : Bool := false
  contentionSeenNotFresh : Bool := false
  contentionDegree : α := 0
  contentionFreshness : Freshness := .unknown
  demandPresent : Bool := false
  demandSeenNotFresh : Bool := false
  capacityKnown : Bool := false
  offeredBps : α := 0
  achievedBps : α := 0
  capacityBps : α := 0
  demandCapacityRatio : α := 0
  demandExceedsCapacity : Bool := false
  demandFreshness : Freshness := .unknown
  demandAgreement : Agreement := .unknown
  impairmentPresent : Bool := false
  impairmentSeenNotFresh : Bool := false
  impairmentUnquantified : Bool := false
  impairmentCounterWithoutDelta : Bool := false
  impairmentBelowThreshold : Bool := false
  latencyInflationDemonstrated : Bool := false
  dropRate : α := 0
  markRate : α := 0
  pauseRate : α := 0
  retransmitRate : α := 0
  latencyFactor : α := 0
  impairmentFreshness : Freshness := .unknown
  impairmentAgreement : Agreement := .unknown
  observedMechanisms : MechanismSet := 0
  unsupportedEvidenceSeen : Bool := false
  incompleteEvidenceSeen : Bool := false
  unsupportedRecords : Nat := 0
  incompleteRecords : Nat := 0
  deriving DecidableEq

/-- `ClassificationRequest`. -/
structure ClassificationRequest where
  subject : EvidenceSubject := .none
  windowStart : Timestamp := Timestamp.zero
  windowEnd : Timestamp := Timestamp.zero
  evaluatedAt : Timestamp := Timestamp.zero
  generation : GenerationVector := {}
  tenant : TenantId := EntityId.default
  maxCitations : Nat := 64
  deriving DecidableEq

/-- `CongestionAssessment`. -/
structure CongestionAssessment (α : Type := Double) [Arithmetic α] where
  subject : EvidenceSubject := .none
  verdict : Verdict := .noEvidence
  mechanisms : MechanismSet := 0
  severity : Severity := .none
  confidence : Nat := 0
  basis : ConfidenceBasis := {}
  features : FeatureSnapshot α := {}
  citations : List EvidenceId := []
  blockers : List Blocker := []
  explanation : Explanation := {}
  windowStart : Timestamp := Timestamp.zero
  windowEnd : Timestamp := Timestamp.zero
  evaluatedAt : Timestamp := Timestamp.zero
  generation : GenerationVector := {}
  tenant : TenantId := EntityId.default
  decidingAgreement : Agreement := .unknown
  sources : List SourceId := []
  congestionAsserted : Bool := false
  deriving DecidableEq

section Classification

variable {α : Type} [Arithmetic α]

open Arithmetic (ofDouble)

/-- `CongestionAssessment::has_blocker`. -/
def CongestionAssessment.hasBlocker (a : CongestionAssessment α) (code : Text) : Bool :=
  a.blockers.any fun blocker => blocker.code == code

/-! ### Features -/

/-- `freshness_rank`. -/
def freshnessRank : Freshness → Nat
  | .fresh => 0
  | .aging => 1
  | .stale => 2
  | .expired => 3
  | .unknown => 4

/-- `best_freshness`. -/
def bestFreshness (lhs rhs : Freshness) : Freshness :=
  if freshnessRank lhs ≤ freshnessRank rhs then lhs else rhs

/-- `generation_matches`. The zero vector asks for no generation in particular. -/
def generationMatches (record : EvidenceRecord) (requested : GenerationVector) : Bool :=
  (requested.epoch == 0 && requested.generation == 0 && requested.revision == 0)
    || record.fence.gen == requested

/-- `agreement_is_conflict`. -/
def agreementIsConflict (agreement : Agreement) : Bool :=
  agreement == .conflicting || agreement == .minority

/-- `max_scalar`: the first value starts the maximum, and an empty list has the value zero. -/
def maxScalar (records : List EvidenceRecord) : α :=
  (records.foldl (fun (value : Option α) record =>
    match value with
    | none => some record.scalar
    | some v => if record.scalar > v then some record.scalar else some v) none).getD 0

/-- `any_ratio_unit`. -/
def anyRatioUnit (records : List EvidenceRecord) : Bool :=
  records.any fun record => record.value.unit == .ratio

/-- `max_ratio`. -/
def maxRatio (records : List EvidenceRecord) : α :=
  records.foldl (fun value record =>
    if record.value.unit = .ratio ∧ record.scalar > value then record.scalar else value) 0

/-- `is_counting_unit`. -/
def isCountingUnit (unit : ObservationUnit) : Bool :=
  unit == .packets || unit == .frames || unit == .count || unit == .cells

/-- `RateObservation`. -/
structure RateObservation (α : Type := Double) [Arithmetic α] where
  rate : α := 0
  unquantified : Bool := false
  counterWithoutDelta : Bool := false
  observed : Bool := false
  deriving DecidableEq

/-- One record of the loop of `observe_rate`. -/
def observeRecord (observation : RateObservation α) (record : EvidenceRecord) :
    RateObservation α :=
  if record.value.unit = .ratio then
    { observation with
      rate := if record.scalar > observation.rate then record.scalar else observation.rate
      observed := observation.observed || decide (record.scalar > (0 : α)) }
  else if !isCountingUnit record.value.unit then
    if record.scalar > (0 : α) then { observation with observed := true, unquantified := true }
    else observation
  -- The semantics matter only for a counting unit.
  else if record.value.semantics = .cumulativeCounter then
    { observation with counterWithoutDelta := true }
  else if record.scalar > (0 : α) then
    { observation with observed := true, unquantified := true }
  else observation

/-- `observe_rate`. -/
def observeRate (records : List EvidenceRecord) (kind : EvidenceKind) : RateObservation α :=
  (records.filter fun record => record.kind = kind).foldl observeRecord {}

/-- The latency samples that the loop does not pass over, in order: those that are not at most
zero. -/
def latencySamples (records : List EvidenceRecord) : List α :=
  ((records.filter fun record => record.kind = .latencySample).map EvidenceRecord.scalar).filter
    fun value => ¬ value ≤ (0 : α)

/-- The loop over the latency samples: the minimum, the maximum and the number of samples. -/
def latencyRange (samples : List α) : α × α × Nat :=
  samples.foldl (fun (minimum, maximum, count) value =>
    (if count = 0 ∨ value < minimum then value else minimum,
     if count = 0 ∨ value > maximum then value else maximum, count + 1)) (0, 0, 0)

/-- The largest value of one demand kind, at least zero. -/
def maxOfKind (records : List EvidenceRecord) (kind : EvidenceKind) : α :=
  records.foldl (fun value record =>
    if record.kind = kind ∧ record.scalar > value then record.scalar else value) 0

/-- The records about the subject. -/
def recordsInWindow (request : ClassificationRequest) (records : List (Option EvidenceRecord)) :
    List EvidenceRecord :=
  (records.filterMap id).filter fun record => record.subject = request.subject

/-- The freshness of a record at the evaluation instant. -/
def freshnessAt (request : ClassificationRequest) (policy : ClassificationPolicy)
    (record : EvidenceRecord) : Freshness :=
  (assessFreshness record request.evaluatedAt policy.freshness).freshness

/-- The local `fresh` of the loops: fresh, and not reported as unsupported. -/
def isDeciding (request : ClassificationRequest) (policy : ClassificationPolicy)
    (record : EvidenceRecord) : Bool :=
  usableAsDecidingEvidence (freshnessAt request policy record) && record.support != .unsupported

/-- The records of the window with a matching generation. -/
def matchingRecords (request : ClassificationRequest) (records : List (Option EvidenceRecord)) :
    List EvidenceRecord :=
  (recordsInWindow request records).filter fun record =>
    generationMatches record request.generation

/-- The usable records: about the subject, of the generation, fresh and not unsupported. -/
def usableRecords (request : ClassificationRequest) (policy : ClassificationPolicy)
    (records : List (Option EvidenceRecord)) : List EvidenceRecord :=
  (matchingRecords request records).filter (isDeciding request policy)

/-- The usable records of one role, such as `fresh_impairment`. -/
def usableOfRole (request : ClassificationRequest) (policy : ClassificationPolicy)
    (records : List (Option EvidenceRecord)) (role : EvidenceRole) : List EvidenceRecord :=
  (usableRecords request policy records).filter fun record => roleOf record.kind = role

/-- The best freshness of the matching records of one role. -/
def roleFreshness (request : ClassificationRequest) (policy : ClassificationPolicy)
    (records : List (Option EvidenceRecord)) (role : EvidenceRole) : Freshness :=
  ((matchingRecords request records).filter fun record => roleOf record.kind = role).foldl
    (fun best record => bestFreshness best (freshnessAt request policy record)) .unknown

/-- Whether a matching record of the role is not usable. -/
def seenNotFresh (request : ClassificationRequest) (policy : ClassificationPolicy)
    (records : List (Option EvidenceRecord)) (role : EvidenceRole) : Bool :=
  (matchingRecords request records).any fun record =>
    roleOf record.kind = role && !isDeciding request policy record

variable (α) in
/-- The agreement of a group, unknown when the group is empty. -/
def groupAgreement (request : ClassificationRequest) (policy : ClassificationPolicy)
    (group : List EvidenceRecord) : Agreement :=
  (assessAgreement group (ofDouble policy.conflictRelativeTolerance : α)
    request.maxCitations).agreement

/-- The impairment part of the features, from the usable impairment records. -/
def impairmentFeatures (request : ClassificationRequest) (policy : ClassificationPolicy)
    (group : List EvidenceRecord) (features : FeatureSnapshot α) : FeatureSnapshot α :=
  if group = [] then features
  else
    let drops : RateObservation α := observeRate group .dropCount
    let marks : RateObservation α := observeRate group .markCount
    let pauses : RateObservation α := observeRate group .pauseCount
    let retransmits : RateObservation α := observeRate group .retransmitCount
    let unquantified := drops.unquantified || marks.unquantified || pauses.unquantified
      || retransmits.unquantified
    -- Latency inflation needs a baseline: a single sample cannot demonstrate a change.
    let (minimumLatency, maximumLatency, samples) : α × α × Nat :=
      latencyRange (latencySamples group)
    let inflatable := decide (samples ≥ 2) && decide (minimumLatency > 0)
    let latencyFactor := if inflatable then maximumLatency / minimumLatency else 0
    let inflated := inflatable && decide (latencyFactor ≥ ofDouble policy.latencyInflationFactor)
    let bit (seen : Bool) (mechanism : Mechanism) : MechanismSet :=
      if seen then mechanismBit mechanism else 0
    let exceeds (rate : α) (threshold : Double) : Bool :=
      decide (rate ≥ ofDouble threshold) && decide (rate > 0)
    { features with
      impairmentPresent := true
      dropRate := drops.rate
      markRate := marks.rate
      pauseRate := pauses.rate
      retransmitRate := retransmits.rate
      impairmentUnquantified := unquantified
      impairmentCounterWithoutDelta := drops.counterWithoutDelta || marks.counterWithoutDelta
        || pauses.counterWithoutDelta || retransmits.counterWithoutDelta
      observedMechanisms := bit drops.observed .packetDrop ||| bit marks.observed .ecnMarking
        ||| bit pauses.observed .pauseBackpressure ||| bit retransmits.observed .retransmission
        ||| bit inflated .latencyInflation
      latencyFactor := latencyFactor
      latencyInflationDemonstrated := inflated
      impairmentBelowThreshold := !exceeds drops.rate policy.dropRateThreshold
        && !exceeds marks.rate policy.markRateThreshold
        && !exceeds pauses.rate policy.pauseRateThreshold
        && !exceeds retransmits.rate policy.retransmitRateThreshold
        && !inflated && !unquantified
      impairmentAgreement := groupAgreement α request policy group }

variable (α) in
/-- `extract_features`. -/
def extractFeatures (request : ClassificationRequest) (records : List (Option EvidenceRecord))
    (policy : ClassificationPolicy) : FeatureSnapshot α :=
  let window := recordsInWindow request records
  let usable := usableRecords request policy records
  let group := usableOfRole request policy records
  let ofFreshness (freshness : Freshness) : Nat :=
    window.countP fun record => freshnessAt request policy record = freshness
  let sources := sortUnique (usable.map fun record => record.provenance.source)
  let utilization : α := maxScalar (group .utilization)
  let pressureRatio : α := maxRatio (group .pressure)
  let ratioAvailable := anyRatioUnit (group .pressure)
  let offered : α := maxOfKind (group .demand) .offeredDemand
  let capacity : α := maxScalar (group .capacity)
  let capacityKnown := decide (capacity > 0)
  let demandKnown := capacityKnown && decide (offered > 0)
  let demandRatio := if demandKnown then offered / capacity else 0
  let features : FeatureSnapshot α :=
    { subject := request.subject
      recordsConsidered := records.length
      recordsInWindow := window.length
      recordsFresh := ofFreshness .fresh
      recordsAging := ofFreshness .aging
      recordsStale := ofFreshness .stale
      recordsExpired := ofFreshness .expired
      recordsUnknownFreshness := ofFreshness .unknown
      recordsGenerationMismatch :=
        window.countP fun record => !generationMatches record request.generation
      recordsRecovered := window.countP EvidenceRecord.recoveredFromSnapshot
      recordsRetired := window.countP EvidenceRecord.retired
      decidingSources := sources.length
      decidingSourceList := sources
      anyFreshDeciding := !usable.isEmpty
      utilizationPresent := !(group .utilization).isEmpty
      utilizationSeenNotFresh := seenNotFresh request policy records .utilization
      utilization := utilization
      utilizationFreshness := roleFreshness request policy records .utilization
      utilizationAgreement := groupAgreement α request policy (group .utilization)
      utilizationExceedsAttention := !(group .utilization).isEmpty
        && decide (utilization ≥ ofDouble policy.utilizationAttention)
      utilizationExceedsHigh := !(group .utilization).isEmpty
        && decide (utilization ≥ ofDouble policy.utilizationHigh)
      pressurePresent := !(group .pressure).isEmpty
      pressureSeenNotFresh := seenNotFresh request policy records .pressure
      pressureRatioAvailable := ratioAvailable
      pressureExceedsRatio :=
        ratioAvailable && decide (pressureRatio ≥ ofDouble policy.pressureOccupancyRatio)
      pressureRatio := pressureRatio
      pressureFreshness := roleFreshness request policy records .pressure
      pressureAgreement := groupAgreement α request policy (group .pressure)
      contentionPresent := !(group .contention).isEmpty
      contentionSeenNotFresh := seenNotFresh request policy records .contention
      contentionDegree := maxScalar (group .contention)
      contentionFreshness := roleFreshness request policy records .contention
      demandPresent := !(group .demand).isEmpty
      demandSeenNotFresh := seenNotFresh request policy records .demand
      capacityKnown := capacityKnown
      offeredBps := offered
      achievedBps := maxOfKind (group .demand) .achievedThroughput
      capacityBps := capacity
      demandCapacityRatio := demandRatio
      demandExceedsCapacity :=
        demandKnown && decide (demandRatio ≥ ofDouble policy.demandCapacityRatio)
      demandFreshness := roleFreshness request policy records .demand
      demandAgreement := groupAgreement α request policy (group .demand)
      impairmentSeenNotFresh := seenNotFresh request policy records .impairment
      impairmentFreshness := roleFreshness request policy records .impairment
      unsupportedEvidenceSeen := window.any fun record => record.support == .unsupported
      incompleteEvidenceSeen := window.any fun record => record.completeness != .complete
      unsupportedRecords := window.countP fun record => record.support == .unsupported
      incompleteRecords := window.countP fun record => record.completeness != .complete }
  impairmentFeatures request policy (group .impairment) features

/-! ### The rules -/

/-- `clamp_confidence`. -/
def clampConfidence (value : Int) : Nat := if value < 0 then 0 else if value > 100 then 100 else value.toNat

/-- `severity_for_rates`. -/
def severityForRates (features : FeatureSnapshot α) (policy : ClassificationPolicy) : Severity :=
  let ratio (rate : α) (threshold : Double) : α :=
    if ofDouble threshold > (0 : α) then rate / ofDouble threshold else 0
  let worst := Arithmetic.max (ratio features.dropRate policy.dropRateThreshold)
    (ratio features.markRate policy.markRateThreshold)
  let critical := ofDouble ⟨0x4059000000000000⟩ -- 100.0
  let high := ofDouble ⟨0x4024000000000000⟩ -- 10.0
  if worst ≥ critical ∨ popcount features.observedMechanisms ≥ 3 then .critical
  else if worst ≥ high ∨ popcount features.observedMechanisms ≥ 2 then .high
  else .moderate

/-! The blocker codes of `classify.hpp`. -/
namespace Blockers

def utilizationAlone : Text := ascii "utilization_alone_is_not_congestion"
def stalePressureCannotProveCurrent : Text := ascii "stale_pressure_cannot_prove_current_congestion"
def staleImpairment : Text := ascii "stale_impairment_cannot_prove_current_congestion"
def conflictingSources : Text := ascii "conflicting_sources_visible"
def singleSourceUncorroborated : Text := ascii "single_source_uncorroborated"
def unsupportedEvidence : Text := ascii "evidence_unsupported_for_subject"
def incompleteEvidence : Text := ascii "evidence_incomplete"
def noDemandContext : Text := ascii "no_demand_context_available"
def unknownFreshness : Text := ascii "freshness_unknown"
def absenceOfEvidence : Text := ascii "absence_of_evidence_is_not_evidence"
def generationMismatch : Text := ascii "evidence_generation_mismatch"
def persistedNotLive : Text := ascii "persisted_evidence_is_not_live"
def noFreshEvidence : Text := ascii "no_fresh_deciding_evidence"
def impairmentBelowThreshold : Text := ascii "impairment_below_policy_threshold"
def counterWithoutDelta : Text := ascii "cumulative_counter_cannot_prove_current_harm"
def retiredIncarnation : Text := ascii "evidence_from_retired_source_incarnation"
def backlogBelowThreshold : Text := ascii "backlog_below_policy_threshold"

end Blockers

/-- `to_string(Agreement)`. -/
def Agreement.toText : Agreement → Text
  | .unknown => ascii "unknown"
  | .singleSource => ascii "single_source"
  | .unanimous => ascii "unanimous"
  | .minority => ascii "minority"
  | .conflicting => ascii "conflicting"
  | .incomparable => ascii "incomparable"

/-- The inputs the rules read: `request_`, `policy_` and `features_` of `RuleEngine`. -/
structure RuleEngine (α : Type) [Arithmetic α] where
  request : ClassificationRequest
  policy : ClassificationPolicy
  features : FeatureSnapshot α

namespace RuleEngine

variable (e : RuleEngine α)

/-- `RuleEngine::step`. No rule cites records in its step. -/
def step (ruleId decision reasonCode : String) (a : CongestionAssessment α) : CongestionAssessment α :=
  if a.explanation.steps.length ≥ e.request.maxCitations then a
  else
    { a with explanation := { a.explanation with
        steps := a.explanation.steps ++
          [{ ruleId := ascii ruleId, decision := ascii decision, reasonCode := ascii reasonCode
             citations := [] }] } }

/-- `RuleEngine::block`: a code is blocked once, and at most 32 are kept. -/
def block (code detail : Text) (a : CongestionAssessment α) : CongestionAssessment α :=
  if a.blockers.any (fun existing => existing.code == code) then a
  else if a.blockers.length ≥ 32 then a
  else { a with blockers := a.blockers ++ [{ code := code, detail := detail }] }

/-- `RuleEngine::collect_conflict_blockers`. -/
def collectConflictBlockers (a : CongestionAssessment α) : CongestionAssessment α :=
  let entries : List (String × Agreement) :=
    [("utilization", e.features.utilizationAgreement), ("pressure", e.features.pressureAgreement),
     ("demand", e.features.demandAgreement), ("impairment", e.features.impairmentAgreement)]
  let a := entries.foldl (fun a (role, agreement) =>
    if agreementIsConflict agreement then
      e.step "R10-agreement" "applied" "conflicting_sources_reported"
        (block Blockers.conflictingSources (ascii role ++ ascii " sources disagree ("
          ++ agreement.toText ++ ascii "); every position stays cited") a)
    else a) a
  let report (count : Nat) (code : Text) (detail : String) (a : CongestionAssessment α) :=
    if count > 0 then block code (decimal count ++ ascii detail) a else a
  let a := report e.features.incompleteRecords Blockers.incompleteEvidence
    " record(s) are incomplete" a
  let a := report e.features.recordsUnknownFreshness Blockers.unknownFreshness
    " record(s) have unknown freshness" a
  let a := report e.features.recordsRecovered Blockers.persistedNotLive
    " record(s) were recovered from a snapshot and are not live" a
  report e.features.recordsRetired Blockers.retiredIncarnation
    " record(s) belong to a retired source incarnation" a

/-- `RuleEngine::impairment_is_decisive`. -/
def impairmentIsDecisive : Bool :=
  let f := e.features
  let exceeds (rate : α) (threshold : Double) : Bool :=
    decide (rate ≥ ofDouble threshold) && decide (rate > 0)
  f.impairmentPresent
    && (exceeds f.dropRate e.policy.dropRateThreshold
      || exceeds f.markRate e.policy.markRateThreshold
      || exceeds f.pauseRate e.policy.pauseRateThreshold
      || exceeds f.retransmitRate e.policy.retransmitRateThreshold
      || f.latencyInflationDemonstrated || f.impairmentUnquantified)

/-- R07 to R09: contention, utilization and idleness. -/
def rulesFromContention (a : CongestionAssessment α) : CongestionAssessment α :=
  let f := e.features
  if f.contentionPresent && f.utilizationPresent && f.utilizationExceedsAttention then
    e.step "R07-contention" "applied" "multiple_consumers_on_a_loaded_resource"
      { a with verdict := .contentionObserved, severity := .low }
  else
    let a := e.step "R07-contention" "skipped" "contention_not_established" a
    if f.utilizationExceedsHigh || f.utilizationExceedsAttention then
      e.step "R08-utilization" "applied" "utilization_high_without_impairment"
        (block Blockers.utilizationAlone
          (ascii "high utilization without impairment evidence is not congestion")
          { a with verdict := .utilizedHealthy, severity := .informational })
    else if f.utilizationPresent then
      e.step "R08-utilization" "applied" "utilization_below_attention"
        { a with verdict := .idle, severity := .none }
    else
      e.step "R09-idle" "applied" "no_load_evidence" { a with verdict := .idle, severity := .none }

/-- R05 and R06: saturation and pressure. A backlog verdict needs occupancy above the policy
ratio, or occupancy that the source could not normalise. -/
def rulesFromSaturation (a : CongestionAssessment α) : CongestionAssessment α :=
  let f := e.features
  if f.capacityKnown && f.demandExceedsCapacity && f.demandPresent then
    e.step "R05-saturation" "applied" "offered_demand_meets_capacity"
      { a with verdict := .saturated, severity := .moderate }
  else
    let a := e.step "R05-saturation" "skipped" "demand_below_capacity_or_unknown" a
    if f.pressureExceedsRatio || (f.pressurePresent && !f.pressureRatioAvailable) then
      e.step "R06-pressure" "applied" "fresh_backlog_evidence"
        { a with verdict := .pressureObserved, severity := .low }
    else
      let a := if f.pressurePresent then
          e.step "R06-pressure" "applied" "backlog_below_policy_threshold"
            (block Blockers.backlogBelowThreshold
              (ascii "backlog evidence is present but below the configured pressure ratio") a)
        else a
      let a := if f.pressureSeenNotFresh then
          e.step "R06-pressure" "applied" "stale_pressure_not_usable"
            (block Blockers.stalePressureCannotProveCurrent
              (ascii "backlog evidence exists but none of it is fresh") a)
        else e.step "R06-pressure" "skipped" "no_pressure_evidence" a
      e.rulesFromContention a

/-- R04: fresh impairment above a threshold confirms congestion. -/
def rulesFromImpairment (a : CongestionAssessment α) : CongestionAssessment α :=
  let f := e.features
  if e.impairmentIsDecisive then
    e.step "R04-impairment" "applied" "fresh_impairment_above_threshold"
      { a with
        verdict := .congestionConfirmed
        mechanisms := f.observedMechanisms
        severity := severityForRates f e.policy }
  else
    let a := if f.impairmentPresent then
        let a := if f.impairmentCounterWithoutDelta && !f.impairmentUnquantified then
            block Blockers.counterWithoutDelta
              (ascii ("only cumulative counters were supplied: "
                ++ "a lifetime total cannot prove present harm")) a
          else if f.impairmentBelowThreshold then
            block Blockers.impairmentBelowThreshold
              (ascii "fresh impairment evidence stays below the configured threshold") a
          else a
        e.step "R04-impairment" "applied" "impairment_not_decisive" a
      else e.step "R04-impairment" "skipped" "no_fresh_impairment_evidence" a
    e.rulesFromSaturation a

/-- R03: without a usable record nothing is decided. -/
def rulesFromFreshness (a : CongestionAssessment α) : CongestionAssessment α :=
  let f := e.features
  if !f.anyFreshDeciding then
    let a := { a with verdict := .indeterminate }
    let a := if f.impairmentSeenNotFresh then
        e.step "R03-freshness" "applied" "stale_impairment_only"
          (block Blockers.staleImpairment
            (ascii "impairment evidence exists but none of it is fresh") a)
      else if f.pressureSeenNotFresh then
        e.step "R03-freshness" "applied" "stale_pressure_only"
          (block Blockers.stalePressureCannotProveCurrent
            (ascii "pressure evidence exists but none of it is fresh") a)
      else if f.utilizationSeenNotFresh || f.demandSeenNotFresh || f.contentionSeenNotFresh then
        e.step "R03-freshness" "applied" "no_fresh_deciding_evidence"
          (block Blockers.unknownFreshness
            (ascii "records are present but none is usable as deciding evidence") a)
      else
        e.step "R03-freshness" "applied" "no_usable_evidence"
          (block Blockers.noFreshEvidence (ascii "no record can support a current verdict") a)
    { e.collectConflictBlockers a with confidence := clampConfidence 35 }
  else
    e.rulesFromImpairment
      (e.step "R03-freshness" "applied" "fresh_deciding_evidence_present" a)

/-- R02: unsupported records are reported, and a window of nothing else decides nothing. -/
def rulesFromSupport (a : CongestionAssessment α) : CongestionAssessment α :=
  let f := e.features
  if f.unsupportedRecords > 0 then
    let a := e.step "R02-unsupported" "applied" "unsupported_evidence_reported"
      (block Blockers.unsupportedEvidence
        (decimal f.unsupportedRecords ++ ascii " record(s) report unsupported data") a)
    if f.unsupportedRecords = f.recordsInWindow then
      { a with verdict := .indeterminate, confidence := clampConfidence 25 }
    else e.rulesFromFreshness a
  else e.rulesFromFreshness (e.step "R02-unsupported" "skipped" "all_records_supported" a)

/-- R01: records of another generation are reported, and a window of nothing else decides
nothing. -/
def rulesFromGeneration (a : CongestionAssessment α) : CongestionAssessment α :=
  let f := e.features
  if f.recordsGenerationMismatch > 0 then
    let a := e.step "R01-generation" "applied" "generation_mismatch_reported"
      (block Blockers.generationMismatch
        (decimal f.recordsGenerationMismatch ++ ascii " of " ++ decimal f.recordsInWindow
          ++ ascii " records carry another generation") a)
    if f.recordsGenerationMismatch = f.recordsInWindow then
      { a with verdict := .indeterminate, confidence := clampConfidence 30 }
    else e.rulesFromSupport a
  else e.rulesFromSupport (e.step "R01-generation" "skipped" "generation_consistent" a)

/-- `RuleEngine::assess_rules`. -/
def assessRules (a : CongestionAssessment α) : CongestionAssessment α :=
  if e.features.recordsInWindow = 0 then
    { e.step "R00-no-evidence" "applied" "no_records"
        (block Blockers.absenceOfEvidence (ascii "no records were supplied for this subject")
          { a with verdict := .noEvidence }) with confidence := 0 }
  else e.rulesFromGeneration (e.step "R00-no-evidence" "skipped" "records_present" a)

/-- `RuleEngine::compute_confidence`. -/
def computeConfidence (verdict : Verdict) : Nat :=
  let f := e.features
  let corroborated := decide (f.decidingSources ≥ e.policy.corroboratingSourceTarget.toNat)
  let unanimous := f.utilizationAgreement == .unanimous || f.impairmentAgreement == .unanimous
  let conflict := agreementIsConflict f.utilizationAgreement
    || agreementIsConflict f.pressureAgreement || agreementIsConflict f.demandAgreement
    || agreementIsConflict f.impairmentAgreement
  let points (condition : Bool) (value : Int) : Int := if condition then value else 0
  match verdict with
  | .noEvidence => 0
  | .idle =>
    clampConfidence (40 + points f.utilizationPresent 15 + points f.demandPresent 15
      + points corroborated 15)
  | .utilizedHealthy =>
    clampConfidence (45 + points corroborated 15 + points unanimous 10 + points f.demandPresent 15
      - points conflict 15)
  | .contentionObserved | .pressureObserved =>
    clampConfidence (45 + points corroborated 20 + points f.utilizationPresent 10
      - points conflict 15)
  | .saturated =>
    clampConfidence (50 + points corroborated 20 + points f.utilizationPresent 10
      - points conflict 15)
  | .congestionConfirmed =>
    clampConfidence (50 + points corroborated 20 + points unanimous 10 + points f.demandPresent 10
      + points f.capacityKnown 5 - points conflict 15)
  | .indeterminate =>
    clampConfidence (30 + points conflict 20 + points (decide (f.recordsInWindow > 0)) 10
      + points f.impairmentCounterWithoutDelta 10)
  | .count | .undeclared _ _ => clampConfidence 0

/-- `RuleEngine::finalize`. The citations are those of the attached records. -/
def finalize (citations : List EvidenceId) (a : CongestionAssessment α) : CongestionAssessment α :=
  let f := e.features
  let a := { a with citations := citations }
  let a := e.collectConflictBlockers a
  let a := if f.decidingSources ≤ 1 ∧ f.recordsInWindow > 0 then
      block Blockers.singleSourceUncorroborated
        (ascii "no independent source corroborates the deciding evidence") a
    else a
  let a := if (a.verdict = .congestionConfirmed ∨ a.verdict = .saturated) ∧ !f.capacityKnown then
      block Blockers.noDemandContext
        (ascii "capacity is unknown, so demand cannot be related to serviceable bandwidth") a
    else a
  let a := if !f.anyFreshDeciding ∧ f.recordsInWindow > 0 ∧ a.verdict ≠ .indeterminate then
      block Blockers.noFreshEvidence (ascii "no fresh deciding evidence is available") a
    else a
  let confidence := e.computeConfidence a.verdict
  let conflicts := [f.utilizationAgreement, f.pressureAgreement, f.demandAgreement,
    f.impairmentAgreement].countP agreementIsConflict
  { a with
    confidence := confidence
    decidingAgreement :=
      if f.impairmentAgreement ≠ .unknown then f.impairmentAgreement else f.utilizationAgreement
    sources := f.decidingSourceList
    congestionAsserted := isCongestionAssertion a.verdict
    basis :=
      { decidingRecords := citations.length
        corroboratingSources := f.decidingSources
        freshRecords := f.recordsFresh
        agingRecords := f.recordsAging
        staleRecords := f.recordsStale
        expiredRecords := f.recordsExpired
        unknownFreshnessRecords := f.recordsUnknownFreshness
        unsupportedRecords := f.unsupportedRecords
        incompleteRecords := f.incompleteRecords
        conflictingFeatures := conflicts
        rawPoints := confidence }
    explanation := { a.explanation with blockers := a.blockers } }

/-- `RuleEngine::run`. -/
def run (citations : List EvidenceId) : CongestionAssessment α :=
  let a : CongestionAssessment α :=
    { subject := e.request.subject
      windowStart := e.request.windowStart
      windowEnd := e.request.windowEnd
      evaluatedAt := e.request.evaluatedAt
      generation := e.request.generation
      tenant := e.request.tenant
      features := e.features
      explanation :=
        { policyVersion := e.policy.version
          policyDigest := e.policy.digest
          policyDigestHex := toHex e.policy.digest } }
  e.finalize citations (e.assessRules a)

end RuleEngine

/-- `RuleEngine::collect_citations` over the attached records: the usable records of the six
roles, sorted, each once, and cut to the bound. -/
def collectCitations (request : ClassificationRequest) (policy : ClassificationPolicy)
    (records : List (Option EvidenceRecord)) : List EvidenceId :=
  let roles := [EvidenceRole.utilization, .pressure, .contention, .demand, .capacity, .impairment]
  let attached := roles.flatMap (usableOfRole request policy records)
  (sortUnique (attached.map EvidenceRecord.id)).take request.maxCitations

variable (α) in
/-- `classify_subject`. -/
def classifySubject (request : ClassificationRequest) (records : List (Option EvidenceRecord))
    (policy : ClassificationPolicy) : Result (CongestionAssessment α) := do
  failIf (¬ request.subject.valid)
    (makeError .invalidArgument "classification requires a subject")
  failIf (request.windowEnd < request.windowStart)
    (makeError .invalidArgument "classification window ends before it starts")
  let engine : RuleEngine α :=
    { request := request, policy := policy, features := extractFeatures α request records policy }
  pure (engine.run (collectCitations request policy records))

end Classification

end CongestionObservatory
