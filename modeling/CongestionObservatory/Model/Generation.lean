import CongestionObservatory.Core.Time
import CongestionObservatory.Model.Identities

/-!
# `CongestionObservatory.Model.Generation`: generations, incarnations and the fence

`evaluateFence` (`model/generation.cpp`) decides whether an observation may influence the
current state. It compares the observation with the state its source has reached and reports
why it was accepted or rejected.
-/

set_option autoImplicit false

namespace CongestionObservatory

open Lib

/-- `GenerationVector`. -/
structure GenerationVector where
  epoch : UInt64 := 0
  generation : UInt64 := 0
  revision : UInt64 := 0
  deriving DecidableEq, Repr

/-- `GenerationVector::str`. -/
def GenerationVector.str (g : GenerationVector) : Text :=
  decimal g.epoch.toNat ++ ascii "/" ++ decimal g.generation.toNat ++ ascii "/"
    ++ decimal g.revision.toNat

/-- The vector of all zeros. -/
def GenerationVector.zero : GenerationVector := {}

/-- `GenerationOrder`. -/
inductive GenerationOrder where
  | older
  | equal
  | newer
  | incomparable
  deriving DecidableEq, Repr

/-- `compare_generation`. A higher epoch with a lower generation is incomparable. -/
def compareGeneration (candidate reference : GenerationVector) : GenerationOrder :=
  if candidate.epoch = reference.epoch then
    if candidate.generation = reference.generation then
      if candidate.revision = reference.revision then .equal
      else if candidate.revision < reference.revision then .older else .newer
    else if candidate.generation < reference.generation then .older else .newer
  else if candidate.epoch < reference.epoch then .older
  else if candidate.generation < reference.generation then .incomparable
  else .newer

/-- `AuthorityLevel`: how much a source is trusted. -/
inductive AuthorityLevel where
  | unknown
  | unverified
  | reported
  | measured
  | corroborated
  | undeclared (raw : UInt8) (h : raw ≥ 5)
  deriving DecidableEq, Repr

instance : ScopedEnum AuthorityLevel UInt8 where
  toUnderlying
    | .unknown => 0
    | .unverified => 1
    | .reported => 2
    | .measured => 3
    | .corroborated => 4
    | .undeclared raw _ => raw
  ofUnderlying raw :=
    if h : raw ≥ 5 then .undeclared raw h
    else [.unknown, .unverified, .reported, .measured, .corroborated].getD raw.toNat .unknown
  ofUnderlying_toUnderlying e := by
    cases e with
    | undeclared raw h => exact dif_pos h
    | _ => rfl

/-- `to_string(AuthorityLevel)`. -/
def AuthorityLevel.toText : AuthorityLevel → Text
  | .unknown => ascii "unknown"
  | .unverified => ascii "unverified"
  | .reported => ascii "reported"
  | .measured => ascii "measured"
  | .corroborated => ascii "corroborated"
  | .undeclared _ _ => ascii "unknown"

/-- `FenceVector`: the address of an observation. -/
structure FenceVector where
  source : SourceId := EntityId.default
  boot : UInt64 := 0
  incarnation : UInt64 := 0
  gen : GenerationVector := {}
  sequence : UInt64 := 0
  deriving DecidableEq

/-- `FenceDecision`. -/
inductive FenceDecision where
  | acceptedFirstObservation
  | acceptedInOrder
  | acceptedGapDetected
  | acceptedReboot
  | acceptedEpochAdvance
  | acceptedGenerationAdvance
  | rejectedUnknownSource
  | rejectedStaleEpoch
  | rejectedStaleGeneration
  | rejectedStaleRevision
  | rejectedIncomparableGeneration
  | rejectedReplayedSequence
  | rejectedStaleIncarnation
  | rejectedAuthorityTooLow
  | rejectedInconsistentBoot
  deriving DecidableEq, Repr

/-- `fence_accepted`. -/
def fenceAccepted : FenceDecision → Bool
  | .acceptedFirstObservation | .acceptedInOrder | .acceptedGapDetected | .acceptedReboot
  | .acceptedEpochAdvance | .acceptedGenerationAdvance => true
  | _ => false

/-- `FenceOutcome`. -/
structure FenceOutcome where
  decision : FenceDecision := .rejectedUnknownSource
  detail : Text := []
  livenessReset : Bool := false
  sequenceGap : Bool := false
  gapSize : UInt64 := 0
  deriving DecidableEq, Repr

/-- `FenceOutcome::accepted`. -/
def FenceOutcome.accepted (o : FenceOutcome) : Bool := fenceAccepted o.decision

/-- `SourceFenceState`: the state a source has reached. -/
structure SourceFenceState where
  source : SourceId := EntityId.default
  last : FenceVector := {}
  lastSeen : Timestamp := Timestamp.zero
  lastAuthority : AuthorityLevel := .unknown
  live : Bool := false
  hasState : Bool := false
  accepted : Nat := 0
  rejected : Nat := 0
  deriving DecidableEq

/-- `std::to_string` of a 64-bit component. -/
def number (value : UInt64) : Text := decimal value.toNat

/-- The sequence check at the end of `evaluate_fence`: the sequence must advance, and a jump
is accepted and reported as a gap. -/
def evaluateSequence (incoming last : FenceVector) : FenceOutcome :=
  if incoming.sequence ≤ last.sequence then
    { decision := .rejectedReplayedSequence
      detail := ascii "sequence=" ++ number incoming.sequence ++ ascii " not after "
        ++ number last.sequence }
  else
    let expected := last.sequence + 1
    if incoming.sequence > expected then
      { decision := .acceptedGapDetected
        sequenceGap := true
        gapSize := incoming.sequence - expected
        detail := ascii "missing " ++ number (incoming.sequence - expected)
          ++ ascii " sequence numbers" }
    else
      { decision := .acceptedInOrder
        detail := ascii "sequence=" ++ number incoming.sequence }

/-- `evaluate_fence`. -/
def evaluateFence (incoming : FenceVector) (authority minimumAuthority : AuthorityLevel)
    (previous : SourceFenceState) : FenceOutcome :=
  let last := previous.last
  if !incoming.source.valid then
    { decision := .rejectedUnknownSource, detail := ascii "source identity missing" }
  else if toUnderlying authority < toUnderlying minimumAuthority then
    { decision := .rejectedAuthorityTooLow
      detail := ascii "authority=" ++ authority.toText ++ ascii " required="
        ++ minimumAuthority.toText }
  else if !previous.hasState then
    { decision := .acceptedFirstObservation
      detail := ascii "first observation from this source" }
  else if incoming.boot ≠ last.boot then
    if incoming.boot < last.boot then
      { decision := .rejectedStaleIncarnation
        detail := ascii "boot=" ++ number incoming.boot ++ ascii " superseded by boot="
          ++ number last.boot }
    else
      { decision := .acceptedReboot
        detail := ascii "boot=" ++ number incoming.boot ++ ascii " supersedes boot="
          ++ number last.boot
        livenessReset := true }
  else if incoming.incarnation < last.incarnation then
    { decision := .rejectedStaleIncarnation
      detail := ascii "incarnation=" ++ number incoming.incarnation ++ ascii " superseded by "
        ++ number last.incarnation }
  else if incoming.incarnation > last.incarnation then
    { decision := .rejectedInconsistentBoot
      detail := ascii "incarnation advanced without a new boot id" }
  else match compareGeneration incoming.gen last.gen with
  | .older =>
    -- The most specific difference is reported: epoch, then generation, then revision.
    if incoming.gen.epoch < last.gen.epoch then
      { decision := .rejectedStaleEpoch
        detail := ascii "epoch=" ++ number incoming.gen.epoch ++ ascii " superseded by "
          ++ number last.gen.epoch }
    else if incoming.gen.generation < last.gen.generation then
      { decision := .rejectedStaleGeneration
        detail := ascii "generation=" ++ number incoming.gen.generation
          ++ ascii " superseded by " ++ number last.gen.generation }
    else
      { decision := .rejectedStaleRevision
        detail := ascii "revision=" ++ number incoming.gen.revision ++ ascii " superseded by "
          ++ number last.gen.revision }
  | .incomparable =>
    { decision := .rejectedIncomparableGeneration
      detail := ascii "candidate=" ++ incoming.gen.str ++ ascii " reference=" ++ last.gen.str }
  | .newer =>
    if incoming.gen.epoch > last.gen.epoch then
      { decision := .acceptedEpochAdvance
        detail := ascii "epoch=" ++ number incoming.gen.epoch ++ ascii " supersedes "
          ++ number last.gen.epoch }
    else if incoming.gen.generation > last.gen.generation then
      { decision := .acceptedGenerationAdvance
        detail := ascii "generation=" ++ number incoming.gen.generation ++ ascii " supersedes "
          ++ number last.gen.generation }
    -- A revision advance stays inside the generation, so the sequence is still checked.
    else evaluateSequence incoming last
  | .equal => evaluateSequence incoming last

end CongestionObservatory
