import CongestionObservatory.Assessment.Classify
import CongestionObservatory.Localization.Graph

/-!
# `CongestionObservatory.Localization.Localize`: localizing a symptom

`localize` (`localization/localize.cpp`) walks the causal graph from an asserted symptom against
the direction of its edges (`traverse`), scores every subject it reached by the subject's own
records (`nodeScore`), and ranks and filters the scores (`qualifying`). The outcome says whether one
candidate stands out.

The traversal takes as many turns as there are edges, and one more.
-/

set_option autoImplicit false

namespace CongestionObservatory

open Lib

/-- `LocalizationPolicy`. `localize` does not read the last two fields. -/
structure LocalizationPolicy where
  maxDepth : Nat := 6
  maxCandidates : Nat := 8
  ambiguityMargin : Nat := 5
  minimumCandidateScore : Nat := 10
  requireDecisiveEvidence : Bool := true
  evidenceWindow : Duration := Duration.fromSeconds 10
  allowStructuralOnlyEdges : Bool := false
  deriving DecidableEq

/-- `LocalizationOutcome`. -/
inductive LocalizationOutcome where
  | localized
  | ambiguous
  | unlocalized
  | notAttempted
  deriving DecidableEq, Repr

/-- `LocalizationCandidate`. -/
structure LocalizationCandidate where
  subject : EvidenceSubject := .none
  score : Nat := 0
  confidence : Nat := 0
  depth : Nat := 0
  citations : List EvidenceId := []
  rules : List Text := []
  basis : List Text := []
  deriving DecidableEq

/-- `LocalizationRequest`. -/
structure LocalizationRequest where
  symptom : EvidenceSubject := .none
  windowStart : Timestamp := Timestamp.zero
  windowEnd : Timestamp := Timestamp.zero
  evaluatedAt : Timestamp := Timestamp.zero
  generation : GenerationVector := {}
  assessment : Option CongestionAssessment := none
  deriving DecidableEq

/-- `LocalizationResult`. -/
structure LocalizationResult where
  symptom : EvidenceSubject := .none
  outcome : LocalizationOutcome := .notAttempted
  candidates : List LocalizationCandidate := []
  blockers : List Blocker := []
  explanation : Explanation := {}
  pathsExamined : Nat := 0
  depthLimited : Bool := false
  deriving DecidableEq

namespace LocalizationBlockers

def kNoEvidenceBackedPath : Text := ascii "no_evidence_backed_causal_path"
def kAmbiguousCandidates : Text := ascii "ambiguous_multiple_candidates"
def kSymptomNotAsserted : Text := ascii "symptom_not_asserted_as_congestion"
def kDepthLimited : Text := ascii "search_depth_limited"
def kGraphEmpty : Text := ascii "causal_graph_empty"

end LocalizationBlockers

/-! ### The traversal -/

/-- `TraversalStep`. -/
structure TraversalStep where
  node : EvidenceSubject := .none
  depth : Nat := 0
  incomingKind : CausalEdgeKind := .topologyAdjacency
  incomingRule : Text := []
  incomingStrength : UInt32 := 0
  incomingObservational : Bool := false
  citations : List EvidenceId := []
  deriving DecidableEq

namespace TraversalStep

/-- The name under which the sets of the traversal file the subject. -/
def key (step : TraversalStep) : Name := Name.unchecked step.node.str

/-- The step to the origin of an in-edge. -/
def along (current : TraversalStep) (edge : CausalEdge) : TraversalStep where
  node := edge.from_
  depth := current.depth + 1
  incomingKind := edge.kind
  incomingRule := edge.ruleId
  incomingStrength := edge.strength
  incomingObservational := edge.observational
  citations := edge.citations

end TraversalStep

/-- The variables of the traversal loop. -/
structure Traversal where
  visited : List Name
  reached : OrdMap Name (List TraversalStep) := OrdMap.empty
  queue : List TraversalStep
  pathsExamined : Nat := 0
  depthLimited : Bool := false

namespace Traversal

/-- The traversal before its loop. -/
def start (symptom : EvidenceSubject) : Traversal where
  visited := [Name.unchecked symptom.str]
  queue := [{ node := symptom }]

/-- One in-edge of the subject that is visited. -/
def examine (current : TraversalStep) (t : Traversal) (edge : CausalEdge) : Traversal :=
  let t := { t with pathsExamined := t.pathsExamined + 1 }
  let next := current.along edge
  if next.key ∈ t.visited then t
  else
    { t with
      visited := next.key :: t.visited
      reached := t.reached.insert next.key ((t.reached.find? next.key).getD [] ++ [next])
      queue := t.queue ++ [next] }

/-- One turn of the loop. -/
def turn (graph : CausalGraph) (maxDepth : Nat) (t : Traversal) : Traversal :=
  match t.queue with
  | [] => t
  | current :: queue =>
    let edges := graph.inEdges current.node
    if current.depth ≥ maxDepth then
      { t with queue := queue, depthLimited := t.depthLimited || !edges.isEmpty }
    else edges.foldl (examine current) { t with queue := queue }

/-- The traversal after a number of turns. -/
def after (graph : CausalGraph) (maxDepth : Nat) (symptom : EvidenceSubject) : Nat → Traversal
  | 0 => start symptom
  | n + 1 => turn graph maxDepth (after graph maxDepth symptom n)

end Traversal

/-- The loop of the traversal. -/
def traverse (graph : CausalGraph) (maxDepth : Nat) (symptom : EvidenceSubject) : Traversal :=
  Traversal.after graph maxDepth symptom (graph.edges.size + 1)

/-- The subjects that were reached, by name, each by its first step. -/
def reachedSteps (t : Traversal) : List TraversalStep := t.reached.values.filterMap List.head?

/-! ### The scores -/

/-- `accumulate`. -/
def accumulate (target : List EvidenceId) : List EvidenceId → Nat → List EvidenceId
  | [], _ => target
  | id :: source, limit =>
    if target.length ≥ limit then target else accumulate (target ++ [id]) source limit

/-- The local variables of the loop over the records of a subject. -/
structure NodeEvidence where
  citations : List EvidenceId := []
  sources : List Name := []
  demandPresent : Bool := false
  pressurePresent : Bool := false
  pressureRatio : Double := 0
  bufferPressure : Bool := false
  contentionPresent : Bool := false
  impairmentPresent : Bool := false
  anyFresh : Bool := false
  offered : Double := 0
  capacity : Double := 0
  deriving DecidableEq

namespace NodeEvidence

/-- The case of the record's role. -/
def observeRole (e : NodeEvidence) (record : EvidenceRecord) : NodeEvidence :=
  match roleOf record.kind with
  | .demand =>
    { e with
      demandPresent := true
      offered :=
        if record.kind = .offeredDemand ∧ record.scalar > e.offered then record.scalar
        else e.offered }
  | .capacity =>
    { e with capacity := if record.scalar > e.capacity then record.scalar else e.capacity }
  | .pressure =>
    { e with
      pressurePresent := true
      bufferPressure := e.bufferPressure || record.kind == .bufferOccupancy
      pressureRatio :=
        if record.value.unit = .ratio ∧ record.scalar > e.pressureRatio then record.scalar
        else e.pressureRatio }
  | .contention => { e with contentionPresent := true }
  | .impairment => { e with impairmentPresent := true }
  | _ => e

/-- One record that counts. -/
def observe (limits : Limits) (e : NodeEvidence) (record : EvidenceRecord) : NodeEvidence :=
  observeRole
    { e with
      anyFresh := true
      sources := e.sources.insert record.provenance.source.name
      citations := accumulate e.citations [record.id] limits.maxCitations } record

/-- `demand_exceeds`. -/
def demandExceeds (e : NodeEvidence) (policy : ClassificationPolicy) : Bool :=
  decide (e.capacity > 0) && decide (e.offered > 0) &&
    decide (e.offered / e.capacity ≥ policy.demandCapacityRatio)

/-- `score.decisive`. -/
def decisive (e : NodeEvidence) : Bool :=
  e.anyFresh &&
    (e.demandPresent || e.pressurePresent || e.contentionPresent || e.impairmentPresent)

end NodeEvidence

/-- The checks a record has to pass to count for a subject. -/
def countsFor (request : LocalizationRequest) (policy : ClassificationPolicy)
    (node : EvidenceSubject) (record : EvidenceRecord) : Bool :=
  record.subject == node &&
    !(decide (record.observedAt < request.windowStart) ||
      decide (record.observedAt > request.windowEnd)) &&
    !(record.recoveredFromSnapshot || record.retired) &&
    !(record.support == .unsupported) &&
    usableAsDecidingEvidence
      (assessFreshness record request.evaluatedAt policy.freshness).freshness

/-- `NodeScore`. -/
structure NodeScore where
  subject : EvidenceSubject := .none
  score : Nat := 0
  depth : Nat := 0
  citations : List EvidenceId := []
  rules : List Text := []
  basis : List Text := []
  decisive : Bool := false
  distinctSources : Nat := 0
  freshEvidence : Bool := false
  deriving DecidableEq

/-- `add_basis`. -/
def addBasis (name : String) (points : Nat) (score : NodeScore) : NodeScore :=
  if points = 0 then score
  else
    { score with
      basis := score.basis ++ [ascii name ++ ascii "(+" ++ decimal points ++ ascii ")"]
      score := score.score + points }

section Scoring

variable (request : LocalizationRequest) (assessment : CongestionAssessment)
  (records : List (Option EvidenceRecord)) (policy : ClassificationPolicy) (limits : Limits)

/-- The loop over the records, for one subject that was reached. -/
def nodeEvidence (step : TraversalStep) : NodeEvidence :=
  ((records.filterMap id).filter (countsFor request policy step.node)).foldl
    (NodeEvidence.observe limits)
    { citations := accumulate [] step.citations (assessment.citations.length + 1) }

/-- The score of a subject that was reached, from its evidence. -/
def nodeScore (step : TraversalStep) (e : NodeEvidence) : NodeScore :=
  let score : NodeScore :=
    { subject := step.node
      depth := step.depth
      rules := [step.incomingRule]
      citations := e.citations
      decisive := e.decisive
      distinctSources := e.sources.length
      freshEvidence := e.anyFresh }
  let score := addBasis "fresh_evidence" (if e.anyFresh then 10 else 0) score
  let score := addBasis "demand_observed" (if e.demandPresent then 10 else 0) score
  let score := addBasis "demand_exceeds_capacity" (if e.demandExceeds policy then 25 else 0) score
  let score := addBasis "backlog_present" (if e.pressurePresent then 20 else 0) score
  let score := addBasis "backlog_ratio_high"
    (if e.pressurePresent ∧ e.pressureRatio ≥ policy.pressureOccupancyRatio then 15 else 0)
    score
  let score := addBasis "buffer_pressure" (if e.bufferPressure then 10 else 0) score
  let score := addBasis "contention" (if e.contentionPresent then 10 else 0) score
  let score := addBasis "impairment_upstream" (if e.impairmentPresent then 5 else 0) score
  let score := addBasis "observational_edge" (if step.incomingObservational then 10 else 0) score
  let score := addBasis "proximity"
    (if step.depth = 0 then 0 else if 5 > step.depth then 5 - step.depth else 0) score
  { score with score := if score.score > 100 then 100 else score.score }

variable (localizationPolicy : LocalizationPolicy)

/-- Whether a subject is passed over because nothing decisive is known of it. -/
def isStructuralOnly (e : NodeEvidence) : Bool :=
  localizationPolicy.requireDecisiveEvidence && !e.decisive

/-- The steps of the explanation about the subjects that are passed over. -/
def structuralSteps (reached : List TraversalStep) : List ExplanationStep :=
  reached.filterMap fun step =>
    let e := nodeEvidence request assessment records policy limits step
    if isStructuralOnly localizationPolicy e then
      some ⟨ascii "L00-structural-only", ascii "rejected",
        ascii "no_decisive_evidence_at_candidate", e.citations⟩
    else none

/-- The scores of the other subjects. -/
def nodeScores (reached : List TraversalStep) : List NodeScore :=
  reached.filterMap fun step =>
    let e := nodeEvidence request assessment records policy limits step
    if isStructuralOnly localizationPolicy e then none else some (nodeScore policy step e)

end Scoring

/-! ### The ranking -/

/-- The ranking: the score descending, then the subject. -/
def rankKey (score : NodeScore) : Natᵒᵈ ×ₗ EvidenceSubject :=
  toLex (OrderDual.toDual score.score, score.subject)

/-- The candidates in their order, cut to the budget. -/
def ranked (maxCandidates : Nat) (candidates : List NodeScore) : List NodeScore :=
  (candidates.insertionSort fun lhs rhs => rankKey lhs ≤ rankKey rhs).take maxCandidates

/-- `qualifying`. -/
def qualifying (localizationPolicy : LocalizationPolicy) (maxCandidates : Nat)
    (candidates : List NodeScore) : List NodeScore :=
  (ranked maxCandidates candidates).filter fun candidate =>
    candidate.score ≥ localizationPolicy.minimumCandidateScore

/-- Whether the best candidate does not stand out from the next one. -/
def isAmbiguous (localizationPolicy : LocalizationPolicy) : List NodeScore → Bool
  | first :: second :: _ => first.score - second.score < localizationPolicy.ambiguityMargin
  | _ => false

/-- The candidates that are reported: those close to the best one when the outcome is ambiguous,
and else all that qualify. -/
def reported (localizationPolicy : LocalizationPolicy) (candidates : List NodeScore) :
    List NodeScore :=
  if isAmbiguous localizationPolicy candidates then
    candidates.filter fun candidate =>
      (candidates.head?.map NodeScore.score).getD 0 - candidate.score
        < localizationPolicy.ambiguityMargin
  else candidates

/-- A candidate as it is reported. -/
def toCandidate (limits : Limits) (score : NodeScore) : LocalizationCandidate where
  subject := score.subject
  score := score.score
  depth := score.depth
  citations := (sortUnique score.citations).take limits.maxCitations
  rules := score.rules
  basis := score.basis
  confidence := if score.distinctSources ≥ 2 then score.score else score.score * 7 / 10

/-- The result with its blockers, which the explanation repeats. -/
def LocalizationResult.withBlockers (result : LocalizationResult) (blockers : List Blocker) :
    LocalizationResult :=
  { result with blockers := blockers, explanation := { result.explanation with blockers := blockers } }

/-- The blocker of an ambiguous outcome. -/
def ambiguousBlockers (ambiguous : Bool) : List Blocker :=
  if ambiguous then [⟨LocalizationBlockers.kAmbiguousCandidates,
    ascii "the leading candidates are separated by less than the ambiguity margin"⟩]
  else []

/-- The blocker of a search that was cut. -/
def depthBlockers (depthLimited : Bool) : List Blocker :=
  if depthLimited then [⟨LocalizationBlockers.kDepthLimited,
    ascii "the search stopped at the configured depth"⟩]
  else []

/-- The step of the explanation about a localized outcome. -/
def localizedSteps (ambiguous : Bool) (candidates : List LocalizationCandidate) :
    List ExplanationStep :=
  if ambiguous then []
  else [⟨ascii "L01-localized", ascii "applied", ascii "single_dominant_candidate",
    (candidates.head?.map LocalizationCandidate.citations).getD []⟩]

/-- The end of `localize`, from the candidates that qualify. -/
def conclude (localizationPolicy : LocalizationPolicy) (limits : Limits)
    (result : LocalizationResult) (qualified : List NodeScore) : LocalizationResult :=
  match qualified with
  | [] => LocalizationResult.withBlockers { result with outcome := .unlocalized }
      [⟨LocalizationBlockers.kNoEvidenceBackedPath, ascii "no candidate carried decisive evidence"⟩]
  | _ =>
    let ambiguous := isAmbiguous localizationPolicy qualified
    let candidates := (reported localizationPolicy qualified).map (toCandidate limits)
    LocalizationResult.withBlockers
      { result with
        outcome := if ambiguous then .ambiguous else .localized
        candidates := candidates
        explanation :=
          { result.explanation with
            steps := result.explanation.steps ++ localizedSteps ambiguous candidates } }
      (ambiguousBlockers ambiguous ++ depthBlockers result.depthLimited)

/-- `localize`. -/
def localize (request : LocalizationRequest) (graph : CausalGraph)
    (records : List (Option EvidenceRecord)) (policy : ClassificationPolicy)
    (localizationPolicy : LocalizationPolicy) (limits : Limits) : Result LocalizationResult :=
  let result : LocalizationResult :=
    { symptom := request.symptom
      explanation :=
        { policyVersion := policy.version
          policyDigest := policy.digest
          policyDigestHex := toHex policy.digest } }
  if !request.symptom.valid then
    .error (makeError .invalidArgument "localization requires a symptom subject")
  else match request.assessment.filter CongestionAssessment.congestionAsserted with
  | none => .ok (.withBlockers { result with outcome := .notAttempted }
      [⟨LocalizationBlockers.kSymptomNotAsserted,
        ascii "the symptom is not an asserted congestion"⟩])
  | some assessment =>
    if graph.edges.size = 0 then
      .ok (.withBlockers { result with outcome := .unlocalized }
        [⟨LocalizationBlockers.kGraphEmpty,
          ascii "no causal edges are known for this generation"⟩])
    else
      let maxDepth := min localizationPolicy.maxDepth limits.maxLocalizationDepth
      let maxCandidates := min localizationPolicy.maxCandidates limits.maxResultCandidates
      let traversal := traverse graph maxDepth request.symptom
      let reached := reachedSteps traversal
      let result :=
        { result with
          pathsExamined := traversal.pathsExamined
          depthLimited := traversal.depthLimited
          explanation :=
            { result.explanation with
              steps := structuralSteps request assessment records policy limits localizationPolicy
                reached } }
      let candidates :=
        nodeScores request assessment records policy limits localizationPolicy reached
      .ok (conclude localizationPolicy limits result
        (qualifying localizationPolicy maxCandidates candidates))

end CongestionObservatory
