import CongestionObservatory.Lib.Sort
import CongestionObservatory.Episode.Episode

/-!
# `CongestionObservatory.Correlation.Group`: grouping episodes

`correlate` (`correlation/group.cpp`) groups episodes that may share a cause. The episodes are
ordered by the time they were first seen and their identity. Each is offered to the groups in
the order they were opened. A group compares it with its reference, the episode that opened it,
and records the decision. The first group that accepts takes the episode. When none does, the
episode opens a group, unless there are as many groups as there may be.

The token is polled before each episode and before each comparison. `correlateOrdered` is
`correlate` after its first sort: where two episodes agree in both sort keys the source leaves
their order to `std::sort`, and statements that must not depend on it are about
`correlateOrdered`.
-/

set_option autoImplicit false

namespace CongestionObservatory

open Lib

/-- `CorrelationPolicy`. No function reads `window_span`, which bounds what may be grouped. -/
structure CorrelationPolicy where
  windowSpan : Duration := Duration.fromSeconds 30
  maxGap : Duration := Duration.fromSeconds 10
  requireSameMechanism : Bool := true
  requireSameGeneration : Bool := true
  mergeAcrossTenants : Bool := false
  mergeAcrossScopeKinds : Bool := false
  maxGroupMembers : Nat := 64
  maxGroups : Nat := 1024
  deriving DecidableEq

/-- `MergeDecisionCode`. -/
inductive MergeDecisionCode where
  | mergedSameScope
  | mergedAdjacentInterval
  | mergedSharedSources
  | rejectedGenerationMismatch
  | rejectedMechanismMismatch
  | rejectedWindowSeparated
  | rejectedScopeKindMismatch
  | rejectedTenantBoundary
  | rejectedGroupFull
  | rejectedPolicyVersionMismatch
  | rejectedGroupLimit
  deriving DecidableEq, Repr

/-- `merge_accepted`. -/
def mergeAccepted : MergeDecisionCode → Bool
  | .mergedSameScope | .mergedAdjacentInterval | .mergedSharedSources => true
  | _ => false

/-- `MergeDecision`. -/
structure MergeDecision where
  member : EpisodeId := DigestId.default
  reference : EpisodeId := DigestId.default
  code : MergeDecisionCode := .mergedSameScope
  merged : Bool := false
  detail : Text := []
  deriving DecidableEq

/-- `CorrelationGroup`. -/
structure CorrelationGroup where
  id : GroupId := DigestId.default
  members : List EpisodeId := []
  windowStart : Timestamp := Timestamp.zero
  windowEnd : Timestamp := Timestamp.zero
  mechanism : Mechanism := .none
  generation : GenerationVector := {}
  sources : List SourceId := []
  decisions : List MergeDecision := []
  peakSeverity : Severity := .none
  sizeCapped : Bool := false
  ambiguousMembership : Bool := false
  deriving DecidableEq

/-- `compute_group_id`. -/
def computeGroupId (members : List EpisodeId) : GroupId :=
  let hasher := (({} : StableHasher).update (ascii "congestion-observatory/group/1")).separator
  DigestId.fromDigest ((sortUnique members).foldl
    (fun hasher member => (hasher.update member.str).separator) hasher).digest128

/-- The first test of `intervals_within`. -/
def intervalsOverlap (lhs rhs : Episode) : Prop :=
  lhs.firstSeen ≤ rhs.lastSeen ∧ rhs.firstSeen ≤ lhs.lastSeen

instance (lhs rhs : Episode) : Decidable (intervalsOverlap lhs rhs) :=
  inferInstanceAs (Decidable (_ ∧ _))

/-- Where the gap between two intervals that do not overlap starts and ends, `gap_start` being
the later of the two as in the source. -/
def gapStart (lhs rhs : Episode) : Timestamp :=
  if lhs.firstSeen > rhs.lastSeen then lhs.firstSeen else rhs.firstSeen

@[inherit_doc gapStart]
def gapEnd (lhs rhs : Episode) : Timestamp :=
  if lhs.firstSeen > rhs.lastSeen then rhs.lastSeen else lhs.lastSeen

/-- `intervals_within`. The subtraction is a 64-bit one. -/
def intervalsWithin (lhs rhs : Episode) (maxGap : Duration) : Prop :=
  intervalsOverlap lhs rhs ∨ gapStart lhs rhs - gapEnd lhs rhs ≤ maxGap

instance (lhs rhs : Episode) (maxGap : Duration) : Decidable (intervalsWithin lhs rhs maxGap) :=
  inferInstanceAs (Decidable (_ ∨ _))

/-- The texts of a detail that names two values that differ. -/
def differs (lhs rhs : Text) : Text := lhs ++ ascii " != " ++ rhs

/-- The decision about an episode and a group of `size` members, with its detail. The checks
are made in this order. -/
def judge (policy : CorrelationPolicy) (memberCap : Nat) (episode reference : Episode)
    (size : Nat) : MergeDecisionCode × Text :=
  if policy.requireSameGeneration ∧ episode.key.generation ≠ reference.key.generation then
    (.rejectedGenerationMismatch,
      differs episode.key.generation.str reference.key.generation.str)
  else if policy.requireSameMechanism ∧ episode.key.mechanism ≠ reference.key.mechanism then
    (.rejectedMechanismMismatch,
      differs episode.key.mechanism.toText reference.key.mechanism.toText)
  else if episode.key.policyVersion ≠ reference.key.policyVersion then
    (.rejectedPolicyVersionMismatch,
      differs episode.key.policyVersion reference.key.policyVersion)
  else if ¬ policy.mergeAcrossScopeKinds ∧ episode.key.scope.kind ≠ reference.key.scope.kind then
    (.rejectedScopeKindMismatch,
      differs episode.key.scope.kind.toText reference.key.scope.kind.toText)
  else if ¬ policy.mergeAcrossTenants ∧ episode.key.tenant.valid ∧ reference.key.tenant.valid ∧
      episode.key.tenant ≠ reference.key.tenant then
    (.rejectedTenantBoundary, differs episode.key.tenant.str reference.key.tenant.str)
  else if size ≥ memberCap then (.rejectedGroupFull, ascii "group member cap reached")
  else if ¬ intervalsWithin episode reference policy.maxGap then
    (.rejectedWindowSeparated, ascii "observed intervals are further apart than max_gap")
  else if episode.key.scope = reference.key.scope then (.mergedSameScope, [])
  else (.mergedAdjacentInterval, [])

/-- `WorkingGroup`. The episodes are in the order they were taken, the reference first. -/
structure WorkingGroup where
  members : List EpisodeId
  windowStart : Timestamp
  windowEnd : Timestamp
  decisions : List MergeDecision
  episodes : List Episode
  sizeCapped : Bool := false
  ambiguousMembership : Bool := false
  opened : episodes ≠ []
  members_eq : members = episodes.map Episode.id

namespace WorkingGroup

/-- `group.episodes.front()`. -/
def reference (group : WorkingGroup) : Episode := group.episodes.head group.opened

/-- A new group for an episode no group took. -/
def ofEpisode (episode : Episode) : WorkingGroup where
  members := [episode.id]
  windowStart := episode.firstSeen
  windowEnd := episode.lastSeen
  decisions := [⟨episode.id, episode.id, .mergedSameScope, true, ascii "group opened"⟩]
  episodes := [episode]
  opened := List.cons_ne_nil _ _
  members_eq := rfl

/-- The group with the episode in it. -/
def take (group : WorkingGroup) (episode : Episode) : WorkingGroup :=
  { group with
    members := group.members ++ [episode.id]
    episodes := group.episodes ++ [episode]
    windowStart :=
      if episode.firstSeen < group.windowStart ∨ group.windowStart.isZero then episode.firstSeen
      else group.windowStart
    windowEnd :=
      if episode.lastSeen > group.windowEnd then episode.lastSeen else group.windowEnd
    opened := List.append_ne_nil_of_left_ne_nil group.opened _
    members_eq := by rw [group.members_eq, List.map_append, List.map_singleton] }

/-- The group with a decision recorded, and what the decision says of the group. -/
def record (group : WorkingGroup) (episode : Episode) (code : MergeDecisionCode) (detail : Text) :
    WorkingGroup :=
  { group with
    decisions := group.decisions ++
      [⟨episode.id, group.reference.id, code, mergeAccepted code, detail⟩]
    sizeCapped := group.sizeCapped || code == .rejectedGroupFull
    ambiguousMembership := group.ambiguousMembership || code == .rejectedWindowSeparated ||
      code == .rejectedGroupFull }

/-- One comparison: whether the group takes the episode, and the group after it. -/
def compare (policy : CorrelationPolicy) (memberCap : Nat) (episode : Episode)
    (group : WorkingGroup) : Bool × WorkingGroup :=
  let (code, detail) := judge policy memberCap episode group.reference group.members.length
  let recorded := group.record episode code detail
  if mergeAccepted code then (true, recorded.take episode) else (false, recorded)

/-- The largest peak severity of the members. -/
def peakSeverity (group : WorkingGroup) : Severity :=
  group.episodes.foldl (fun peak member =>
    if toUnderlying member.peakSeverity > toUnderlying peak then member.peakSeverity else peak)
    .none

/-- The sources of the members, by name. -/
def sources (group : WorkingGroup) : List SourceId :=
  ((group.episodes.flatMap Episode.sources).foldl
    (fun sources source => sources.emplace source.name source)
    (OrdMap.empty : OrdMap Name SourceId)).values

/-- The group as it is returned. -/
def result (group : WorkingGroup) : CorrelationGroup where
  id := computeGroupId (sortUnique group.members)
  members := sortUnique group.members
  windowStart := group.windowStart
  windowEnd := group.windowEnd
  mechanism := group.reference.key.mechanism
  generation := group.reference.key.generation
  sources := group.sources
  decisions := group.decisions.insertionSort
    fun lhs rhs => toLex (lhs.member, lhs.reference) ≤ toLex (rhs.member, rhs.reference)
  peakSeverity := group.peakSeverity
  sizeCapped := group.sizeCapped
  ambiguousMembership := group.ambiguousMembership

end WorkingGroup

/-- A poll of the token between two steps of `correlate`. -/
def pollCorrelation (token : CancellationToken) : Result CancellationToken :=
  match token.cancelled with
  | (true, _) => .error (makeError .cancelled "correlation cancelled")
  | (false, token) => .ok token

/-- The loop over the groups: whether one took the episode, and the groups after it. -/
def offerEpisode (policy : CorrelationPolicy) (memberCap : Nat) (episode : Episode) :
    List WorkingGroup → CancellationToken → Result (Bool × List WorkingGroup × CancellationToken)
  | [], token => .ok (false, [], token)
  | group :: rest, token => do
    let token ← pollCorrelation token
    match group.compare policy memberCap episode with
    | (true, group) => .ok (true, group :: rest, token)
    | (false, group) =>
      let (placed, rest, token) ← offerEpisode policy memberCap episode rest token
      .ok (placed, group :: rest, token)

/-- One turn of the loop over the episodes. -/
def placeEpisode (policy : CorrelationPolicy) (limits : Limits)
    (state : List WorkingGroup × CancellationToken) (episode : Episode) :
    Result (List WorkingGroup × CancellationToken) := do
  let memberCap := min policy.maxGroupMembers limits.maxGroupMembers
  let token ← pollCorrelation state.2
  let (placed, groups, token) ← offerEpisode policy memberCap episode state.1 token
  if placed then .ok (groups, token)
  else if groups.length ≥ min policy.maxGroups limits.maxGroups then .ok (groups, token)
  else .ok (groups ++ [.ofEpisode episode], token)

/-- The groups after the loop over the episodes. -/
def placeEpisodes (ordered : List Episode) (policy : CorrelationPolicy) (limits : Limits)
    (token : CancellationToken) : Result (List WorkingGroup) := do
  let (groups, _) ← ordered.foldlM (placeEpisode policy limits) ([], token)
  .ok groups

/-- The groups as they are returned, by the start of their window and their identity. -/
def finishGroups (groups : List WorkingGroup) : List CorrelationGroup :=
  (groups.map WorkingGroup.result).insertionSort
    fun lhs rhs => toLex (lhs.windowStart, lhs.id) ≤ toLex (rhs.windowStart, rhs.id)

/-- `correlate`, of episodes already in order. -/
def correlateOrdered (ordered : List Episode) (policy : CorrelationPolicy) (limits : Limits)
    (token : CancellationToken) : Result (List CorrelationGroup) := do
  let groups ← placeEpisodes ordered policy limits token
  .ok (finishGroups groups)

/-- The order of the episodes: by the time they were first seen, then by identity. -/
def placementKey (episode : Episode) : Timestamp ×ₗ EpisodeId :=
  toLex (episode.firstSeen, episode.id)

/-- The first sort of `correlate`. -/
def inOrder (episodes : List Episode) : List Episode :=
  episodes.insertionSort fun lhs rhs => placementKey lhs ≤ placementKey rhs

/-- `correlate`. -/
def correlate (episodes : List Episode) (policy : CorrelationPolicy) (limits : Limits)
    (token : CancellationToken) : Result (List CorrelationGroup) :=
  correlateOrdered (inOrder episodes) policy limits token

end CongestionObservatory
