import CongestionObservatory.Lib.OrdMap
import CongestionObservatory.Lib.Run
import CongestionObservatory.Assessment.Classify

/-!
# `CongestionObservatory.Episode.Episode`: episode identity, lifecycle and history

An episode is one phenomenon: a scope, a mechanism, a generation and a policy version. Its
identity is the hash of that key and not of any clock. `EpisodeRegistry` (`episode/episode.cpp`)
keeps the episodes in the order of their identities. An assessment that asserts congestion opens
or refreshes the episode of its key, one that does not makes the open episodes of its scope
quiescent, and `advance` applies the resolution and expiry windows.

The history of an episode is bounded. `appendTransition` and `appendAssessment` drop the oldest
entry when there are too many and count the drop. The revision and the counters are 64-bit
numbers that come back from a snapshot, so they keep their width here.
-/

set_option autoImplicit false

namespace CongestionObservatory

open Lib

/-- `EpisodeKey`. -/
structure EpisodeKey where
  scope : EvidenceSubject := .none
  tenant : TenantId := EntityId.default
  mechanism : Mechanism := .none
  generation : GenerationVector := {}
  policyVersion : Text := []
  deriving DecidableEq

/-- `encode_episode_identity`. -/
def encodeEpisodeIdentity (key : EpisodeKey) (hasher : StableHasher) : StableHasher :=
  let hasher := (hasher.update (ascii "congestion-observatory/episode/1")).separator
  let hasher := hasher.updateU64 key.scope.kind.toUInt8.toUInt64
  let hasher := (hasher.update key.scope.str).separator
  let hasher := (hasher.update key.tenant.str).separator
  let hasher := hasher.updateU64 (toUnderlying key.mechanism).toUInt64
  let hasher := hasher.updateU64 key.generation.epoch
  let hasher := hasher.updateU64 key.generation.generation
  let hasher := hasher.updateU64 key.generation.revision
  hasher.update key.policyVersion

/-- `compute_episode_id`. -/
def computeEpisodeId (key : EpisodeKey) : EpisodeId :=
  DigestId.fromDigest (encodeEpisodeIdentity key {}).digest128

/-- `EpisodeState`. -/
inductive EpisodeState where
  | «open»
  | quiescent
  | resolved
  | expired
  | undeclared (raw : UInt8) (h : raw ≥ 4)
  deriving DecidableEq, Repr

instance : ScopedEnum EpisodeState UInt8 where
  toUnderlying
    | .open => 0
    | .quiescent => 1
    | .resolved => 2
    | .expired => 3
    | .undeclared raw _ => raw
  ofUnderlying raw :=
    if h : raw ≥ 4 then .undeclared raw h
    else [.open, .quiescent, .resolved, .expired].getD raw.toNat .open
  ofUnderlying_toUnderlying e := by
    cases e with
    | undeclared raw h => exact dif_pos h
    | _ => rfl

/-- `EpisodeTransitionKind`. -/
inductive EpisodeTransitionKind where
  | opened
  | updated
  | escalated
  | deescalated
  | quiesced
  | resolved
  | expired
  | reopened
  | undeclared (raw : UInt8) (h : 8 ≤ raw)
  deriving DecidableEq, Repr

instance : ScopedEnum EpisodeTransitionKind UInt8 where
  toUnderlying
    | .opened => 0
    | .updated => 1
    | .escalated => 2
    | .deescalated => 3
    | .quiesced => 4
    | .resolved => 5
    | .expired => 6
    | .reopened => 7
    | .undeclared raw _ => raw
  ofUnderlying raw :=
    if h : 8 ≤ raw then .undeclared raw h
    else [.opened, .updated, .escalated, .deescalated, .quiesced, .resolved, .expired, .reopened
      ].getD raw.toNat .opened
  ofUnderlying_toUnderlying e := by
    cases e with
    | undeclared raw h => exact dif_pos h
    | _ => rfl

/-- `AssessmentDigest`: what an episode remembers of an assessment. -/
structure AssessmentDigest where
  at_ : Timestamp := Timestamp.zero
  verdict : Verdict := .noEvidence
  mechanisms : MechanismSet := 0
  severity : Severity := .none
  confidence : UInt32 := 0
  citationCount : Nat := 0
  freshConfirmingEvidence : Bool := false
  representativeCitation : EvidenceId := DigestId.default
  deriving DecidableEq

/-- `EpisodeTransition`. -/
structure EpisodeTransition where
  revision : UInt64 := 0
  kind : EpisodeTransitionKind := .opened
  at_ : Timestamp := Timestamp.zero
  severityBefore : Severity := .none
  severityAfter : Severity := .none
  verdictBefore : Verdict := .noEvidence
  verdictAfter : Verdict := .noEvidence
  confidence : UInt32 := 0
  cause : Text := []
  citations : List EvidenceId := []
  deriving DecidableEq

/-- `Episode`. The transitions and the assessments are oldest first. -/
structure Episode where
  id : EpisodeId := DigestId.default
  key : EpisodeKey := {}
  state : EpisodeState := .open
  revision : UInt64 := 0
  currentSeverity : Severity := .none
  peakSeverity : Severity := .none
  confidence : UInt32 := 0
  firstSeen : Timestamp := Timestamp.zero
  lastSeen : Timestamp := Timestamp.zero
  lastUpdated : Timestamp := Timestamp.zero
  resolvedAt : Timestamp := Timestamp.zero
  observations : UInt64 := 0
  transitions : List EpisodeTransition := []
  assessments : List AssessmentDigest := []
  citations : List EvidenceId := []
  sources : List SourceId := []
  transitionsDropped : UInt64 := 0
  assessmentsDropped : UInt64 := 0
  historyTruncated : Bool := false
  deriving DecidableEq

/-- The windows of `EpisodePolicy`. `escalate_at` is read by no function. -/
structure EpisodePolicy where
  resolveAfter : Duration := Duration.fromSeconds 30
  expireAfter : Duration := Duration.fromMinutes 10
  deriving DecidableEq

/-- `EpisodeUpdateKind`. -/
inductive EpisodeUpdateKind where
  | opened
  | updated
  | escalated
  | deescalated
  | quiesced
  | resolved
  | expired
  | unchanged
  deriving DecidableEq, Repr

/-- `EpisodeUpdate`. -/
structure EpisodeUpdate where
  id : EpisodeId := DigestId.default
  kind : EpisodeUpdateKind := .unchanged
  state : EpisodeState := .open
  revision : UInt64 := 0
  severity : Severity := .none
  created : Bool := false
  deriving DecidableEq

/-- `EpisodeFilter`. -/
structure EpisodeFilter where
  scope : Option EvidenceSubject := none
  includeClosed : Bool := true
  maxResults : Nat := 256

/-- `digest_of`. -/
def digestOf (assessment : CongestionAssessment) : AssessmentDigest :=
  { at_ := assessment.evaluatedAt
    verdict := assessment.verdict
    mechanisms := assessment.mechanisms
    severity := assessment.severity
    confidence := UInt32.ofNat assessment.confidence
    citationCount := assessment.citations.length
    freshConfirmingEvidence := assessment.congestionAsserted
    representativeCitation := assessment.citations.head?.getD DigestId.default }

/-- The loop at the end of `append_transition` and `append_assessment`: while the history is
longer than its bound, its oldest entry goes, the drop is counted and the truncation noted. -/
def dropOldest {α : Type} (bound : Nat) : List α → UInt64 → Bool → List α × UInt64 × Bool
  | [], dropped, truncated => ([], dropped, truncated)
  | oldest :: rest, dropped, truncated =>
    if (oldest :: rest).length > bound then dropOldest bound rest (dropped + 1) true
    else (oldest :: rest, dropped, truncated)

namespace Episode

/-- `append_transition`. -/
def appendTransition (episode : Episode) (transition : EpisodeTransition) (limits : Limits) :
    Episode :=
  let (transitions, dropped, truncated) := dropOldest limits.maxEpisodeTransitions
    (episode.transitions ++ [transition]) episode.transitionsDropped episode.historyTruncated
  { episode with
    transitions := transitions, transitionsDropped := dropped, historyTruncated := truncated }

/-- `append_assessment`. -/
def appendAssessment (episode : Episode) (digest : AssessmentDigest) (limits : Limits) : Episode :=
  let (assessments, dropped, truncated) := dropOldest limits.maxEpisodeAssessments
    (episode.assessments ++ [digest]) episode.assessmentsDropped episode.historyTruncated
  { episode with
    assessments := assessments, assessmentsDropped := dropped, historyTruncated := truncated }

/-- The verdict of the latest assessment that is still kept. -/
def previousVerdict (episode : Episode) : Verdict :=
  (episode.assessments.getLast?.map AssessmentDigest.verdict).getD .noEvidence

/-- An episode that reached the end of its lifecycle. -/
def terminal (episode : Episode) : Bool := episode.state == .resolved || episode.state == .expired

/-- The body of the loop of `observe_locked` over the open episodes of a scope for which
congestion is no longer asserted. -/
def quiesce (episode : Episode) (assessment : CongestionAssessment) (now : Timestamp)
    (limits : Limits) : Episode :=
  let revision := episode.revision + 1
  let transition : EpisodeTransition :=
    { revision := revision
      kind := .quiesced
      at_ := now
      severityBefore := episode.currentSeverity
      severityAfter := .none
      verdictBefore := episode.previousVerdict
      verdictAfter := assessment.verdict
      confidence := UInt32.ofNat assessment.confidence
      cause := ascii "verdict_without_congestion_assertion"
      citations := assessment.citations }
  let changed :=
    { episode with
      state := .quiescent
      currentSeverity := .none
      lastUpdated := now
      revision := revision
      observations := episode.observations + 1 }
  (changed.appendTransition transition limits).appendAssessment (digestOf assessment) limits

/-- The episode `observe_locked` creates for a key it does not know. -/
def opened (key : EpisodeKey) (assessment : CongestionAssessment) (now : Timestamp)
    (limits : Limits) : Episode :=
  let transition : EpisodeTransition :=
    { revision := 1
      kind := .opened
      at_ := now
      severityAfter := assessment.severity
      verdictAfter := assessment.verdict
      confidence := UInt32.ofNat assessment.confidence
      cause := ascii "congestion_asserted"
      citations := assessment.citations }
  let created : Episode :=
    { id := computeEpisodeId key
      key := key
      state := .open
      revision := 1
      currentSeverity := assessment.severity
      peakSeverity := assessment.severity
      confidence := UInt32.ofNat assessment.confidence
      firstSeen := now
      lastSeen := now
      lastUpdated := now
      observations := 1
      citations := assessment.citations
      sources := assessment.sources }
  (created.appendTransition transition limits).appendAssessment (digestOf assessment) limits

/-- The kind of the transition when an asserted episode is already known. -/
def refreshKind (episode : Episode) (assessment : CongestionAssessment) : EpisodeTransitionKind :=
  if episode.terminal then .reopened
  else if toUnderlying assessment.severity > toUnderlying episode.currentSeverity then .escalated
  else if toUnderlying assessment.severity < toUnderlying episode.currentSeverity then .deescalated
  else .updated

/-- The end of `observe_locked`: a known episode is refreshed, or reopened when it was over. -/
def refresh (episode : Episode) (assessment : CongestionAssessment) (now : Timestamp)
    (limits : Limits) : Episode :=
  let revision := episode.revision + 1
  let transition : EpisodeTransition :=
    { revision := revision
      kind := episode.refreshKind assessment
      at_ := now
      severityBefore := episode.currentSeverity
      severityAfter := assessment.severity
      verdictBefore := episode.previousVerdict
      verdictAfter := assessment.verdict
      confidence := UInt32.ofNat assessment.confidence
      cause := ascii (if episode.terminal then "reopened_by_fresh_evidence"
        else "refreshed_by_fresh_evidence")
      citations := assessment.citations }
  let changed :=
    { episode with
      state := .open
      currentSeverity := assessment.severity
      peakSeverity :=
        if toUnderlying assessment.severity > toUnderlying episode.peakSeverity then
          assessment.severity
        else episode.peakSeverity
      confidence := UInt32.ofNat assessment.confidence
      lastSeen := now
      lastUpdated := now
      observations := episode.observations + 1
      citations := assessment.citations
      sources := if assessment.sources.isEmpty then episode.sources else assessment.sources
      revision := revision }
  (changed.appendTransition transition limits).appendAssessment (digestOf assessment) limits

/-- The state and the transition that `advance` finds due, if any. -/
def due (episode : Episode) (now : Timestamp) (policy : EpisodePolicy) :
    Option (EpisodeState × EpisodeTransitionKind) :=
  let idle := now - episode.lastSeen
  if idle.isNegative then none
  else if episode.state = .open ∧ idle > policy.resolveAfter then some (.quiescent, .quiesced)
  else if episode.state = .quiescent ∧ idle > ⟨policy.resolveAfter.nanos * 2⟩ then
    some (.resolved, .resolved)
  else if (episode.state = .resolved ∨ episode.state = .quiescent) ∧ idle > policy.expireAfter then
    some (.expired, .expired)
  else none

/-- The rest of the loop body of `advance`: the episode moves to the state that is due. Nothing
was observed, so no assessment is recorded. -/
def moveTo (episode : Episode) (next : EpisodeState) (kind : EpisodeTransitionKind)
    (now : Timestamp) (limits : Limits) : Episode :=
  let revision := episode.revision + 1
  let ended := next == .resolved || next == .expired
  let severity := if ended then .none else episode.currentSeverity
  let transition : EpisodeTransition :=
    { revision := revision
      kind := kind
      at_ := now
      severityBefore := episode.currentSeverity
      severityAfter := severity
      verdictBefore := episode.previousVerdict
      verdictAfter := episode.previousVerdict
      confidence := episode.confidence
      cause := ascii "policy_window_elapsed" }
  let changed :=
    { episode with
      state := next
      lastUpdated := now
      revision := revision
      resolvedAt := if ended then now else episode.resolvedAt
      currentSeverity := severity }
  changed.appendTransition transition limits

end Episode

/-- `EpisodeRegistry`. -/
structure EpisodeRegistry where
  limits : Limits
  episodes : OrdMap EpisodeId Episode := OrdMap.empty
  droppedEpisodes : Nat := 0
  deriving DecidableEq

namespace EpisodeRegistry

/-- The update that reports the present state of an episode. -/
def updateOf (episode : Episode) (kind : EpisodeUpdateKind) : EpisodeUpdate :=
  { id := episode.id
    kind := kind
    state := episode.state
    revision := episode.revision
    severity := episode.currentSeverity }

/-- The part of `observe_locked` for an assessment that does not assert congestion: the open
episodes of its scope become quiescent. The update reports the first of them. -/
def observeQuiet (r : EpisodeRegistry) (assessment : CongestionAssessment) (now : Timestamp) :
    EpisodeUpdate × EpisodeRegistry :=
  let (first, episodes) := r.episodes.mapAccum
    (fun first _ episode =>
      if episode.key.scope = assessment.subject ∧ episode.state = .open then
        let quiet := episode.quiesce assessment now r.limits
        (some (first.getD (updateOf quiet .quiesced)), quiet)
      else (first, episode))
    none
  (first.getD {}, { r with episodes := episodes })

/-- The key of the episode an assessment asserts. -/
def keyOf (assessment : CongestionAssessment) : EpisodeKey :=
  { scope := assessment.subject
    tenant := assessment.tenant
    mechanism := primaryMechanism assessment.mechanisms
    generation := assessment.generation
    policyVersion := assessment.explanation.policyVersion }

/-- The loop of `observe_locked` that looks for the oldest episode in a terminal state. -/
def victim (r : EpisodeRegistry) : Option (EpisodeId × Episode) :=
  r.episodes.entries.foldl
    (fun victim entry =>
      if entry.2.terminal then
        match victim with
        | none => some entry
        | some oldest => if entry.2.lastUpdated < oldest.2.lastUpdated then some entry else victim
      else victim)
    none

/-- Room for one more episode: a full registry gives up its oldest terminal episode, and refuses
when every episode is still live. -/
def makeRoom (r : EpisodeRegistry) (subject : EvidenceSubject) : Status × EpisodeRegistry :=
  if r.episodes.size ≥ r.limits.maxEpisodes then
    match r.victim with
    | none =>
      (.error (makeError .limitExceeded
        "episode budget exhausted and no terminal episode can be retired" subject.str),
       { r with droppedEpisodes := r.droppedEpisodes + 1 })
    | some (id, _) =>
      (.ok (), { r with
        episodes := r.episodes.erase id, droppedEpisodes := r.droppedEpisodes + 1 })
  else (.ok (), r)

/-- The update kind that reports a refresh. -/
def refreshUpdateKind : EpisodeTransitionKind → EpisodeUpdateKind
  | .escalated => .escalated
  | .deescalated => .deescalated
  | .reopened => .opened
  | _ => .updated

/-- The part of `observe_locked` for an assessment that asserts congestion. -/
def observeAsserted (r : EpisodeRegistry) (assessment : CongestionAssessment) (now : Timestamp) :
    Result EpisodeUpdate × EpisodeRegistry :=
  let key := keyOf assessment
  if key.mechanism = .none then
    (.error (makeError .preconditionFailed
      "a congestion assertion must name at least one mechanism" assessment.subject.str), r)
  else
    let id := computeEpisodeId key
    match r.episodes.find? id with
    | none =>
      match r.makeRoom assessment.subject with
      | (.error e, r) => (.error e, r)
      | (.ok (), r) =>
        (.ok { id := id, kind := .opened, state := .open, revision := 1
               severity := assessment.severity, created := true },
         { r with episodes := r.episodes.emplace id (Episode.opened key assessment now r.limits) })
    | some episode =>
      let fresh := episode.refresh assessment now r.limits
      (.ok { updateOf fresh (refreshUpdateKind (episode.refreshKind assessment)) with id := id },
       { r with episodes := r.episodes.insert id fresh })

/-- `EpisodeRegistry::observe`. The policy is not read. -/
def observe (r : EpisodeRegistry) (assessment : CongestionAssessment) (_policy : EpisodePolicy)
    (now : Timestamp) : Result EpisodeUpdate × EpisodeRegistry :=
  if !assessment.subject.valid then
    (.error (makeError .invalidArgument "episode observation requires a subject"), r)
  else if !assessment.congestionAsserted then
    let (update, r) := r.observeQuiet assessment now
    (.ok update, r)
  else r.observeAsserted assessment now

/-- The variables the loop of `advance` threads through the episodes. -/
structure AdvanceState where
  updates : List EpisodeUpdate
  token : CancellationToken
  cancelled : Bool

/-- The update kind that reports a window that elapsed. -/
def advanceUpdateKind : EpisodeTransitionKind → EpisodeUpdateKind
  | .quiesced => .quiesced
  | .resolved => .resolved
  | .expired => .expired
  | _ => .updated

/-- The loop body of `advance`. The token is polled before each episode. -/
def advanceEpisode (limits : Limits) (now : Timestamp) (policy : EpisodePolicy)
    (st : AdvanceState) (episode : Episode) : AdvanceState × Episode :=
  if st.cancelled then (st, episode)
  else
    let (cancelled, token) := st.token.cancelled
    if cancelled then ({ st with token := token, cancelled := true }, episode)
    else match episode.due now policy with
    | none => ({ st with token := token }, episode)
    | some (next, kind) =>
      let moved := episode.moveTo next kind now limits
      ({ st with
          token := token
          updates := st.updates ++ [updateOf moved (advanceUpdateKind kind)] }, moved)

/-- `EpisodeRegistry::advance`. A cancelled call keeps what it has done so far. -/
def advance (r : EpisodeRegistry) (now : Timestamp) (policy : EpisodePolicy)
    (token : CancellationToken) : Result (List EpisodeUpdate) × EpisodeRegistry :=
  let (st, episodes) := r.episodes.mapAccum
    (fun st _ episode => advanceEpisode r.limits now policy st episode)
    { updates := [], token := token, cancelled := false }
  let r := { r with episodes := episodes }
  if st.cancelled then (.error (makeError .cancelled "episode advance cancelled"), r)
  else (.ok st.updates, r)

/-- `EpisodeRegistry::restore`. -/
def restore (r : EpisodeRegistry) (episode : Episode) : Status × EpisodeRegistry :=
  if !episode.id.valid then
    (.error (makeError .invalidArgument "restored episode has no identity"), r)
  else match r.episodes.find? episode.id with
  | some known =>
    if known.revision > episode.revision then
      (.error (makeError .conflict "a newer revision of this episode is already loaded"
        episode.id.str), r)
    else (.ok (), { r with episodes := r.episodes.insert episode.id episode })
  | none =>
    if r.episodes.size ≥ r.limits.maxEpisodes then
      (.error (makeError .limitExceeded "episode budget exhausted while restoring"
        episode.id.str), r)
    else (.ok (), { r with episodes := r.episodes.emplace episode.id episode })

/-- What `list` and `all` sort by. -/
def sortKey (episode : Episode) : Timestamp ×ₗ EpisodeId := toLex (episode.firstSeen, episode.id)

/-- `EpisodeRegistry::all`. -/
def all (r : EpisodeRegistry) : List Episode :=
  r.episodes.values.insertionSort (fun a b => sortKey a ≤ sortKey b)

/-- `EpisodeRegistry::list`. The budget counts matches in identity order, before the sort. -/
def list (r : EpisodeRegistry) (filter : EpisodeFilter) : List Episode :=
  let matching := r.episodes.values.filter (fun episode =>
    (filter.scope == none || filter.scope == some episode.key.scope)
      && (filter.includeClosed || !episode.terminal))
  (matching.take (min filter.maxResults r.limits.maxEpisodeFilterResults)).insertionSort
    (fun a b => sortKey a ≤ sortKey b)

/-- `EpisodeRegistry::get`. -/
def get (r : EpisodeRegistry) (id : EpisodeId) : Result Episode :=
  match r.episodes.find? id with
  | none => .error (makeError .notFound "episode is not known" id.str)
  | some episode => .ok episode

/-! ### Runs -/

/-- A call that changes the registry. -/
inductive Call where
  | observe (assessment : CongestionAssessment) (policy : EpisodePolicy) (now : Timestamp)
  | advance (now : Timestamp) (policy : EpisodePolicy) (token : CancellationToken)
  | restore (episode : Episode)

/-- What a call returns. -/
inductive Reply where
  | observed (result : Result EpisodeUpdate)
  | advanced (result : Result (List EpisodeUpdate))
  | restored (result : Status)

/-- One call. -/
def step (r : EpisodeRegistry) : Call → Reply × EpisodeRegistry
  | .observe assessment policy now =>
    let (result, r) := r.observe assessment policy now
    (.observed result, r)
  | .advance now policy token =>
    let (result, r) := r.advance now policy token
    (.advanced result, r)
  | .restore episode =>
    let (result, r) := r.restore episode
    (.restored result, r)

end EpisodeRegistry

end CongestionObservatory
