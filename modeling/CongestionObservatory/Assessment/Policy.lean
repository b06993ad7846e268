import CongestionObservatory.Evidence.Evidence

/-!
# `CongestionObservatory.Assessment.Policy`: the classification policy

`ClassificationPolicy` (`assessment/policy.hpp`) holds every threshold that turns evidence into
a verdict. Its digest is part of a snapshot's identity.
-/

set_option autoImplicit false

namespace CongestionObservatory

/-- `ClassificationPolicy`. The defaults are the bit patterns of the literals beside them. -/
structure ClassificationPolicy where
  version : Text := ascii "co-policy-1"
  utilizationAttention : Double := ⟨0x3FE6666666666666⟩ -- 0.70
  utilizationHigh : Double := ⟨0x3FECCCCCCCCCCCCD⟩ -- 0.90
  pressureOccupancyRatio : Double := ⟨0x3FE3333333333333⟩ -- 0.60
  pressureDepthGrowthRatio : Double := ⟨0x3FF8000000000000⟩ -- 1.50
  dropRateThreshold : Double := ⟨0x3EB0C6F7A0B5ED8D⟩ -- 1e-6
  markRateThreshold : Double := ⟨0x3F1A36E2EB1C432D⟩ -- 1e-4
  pauseRateThreshold : Double := ⟨0x3EE4F8B588E368F1⟩ -- 1e-5
  retransmitRateThreshold : Double := ⟨0x3EE4F8B588E368F1⟩ -- 1e-5
  latencyInflationFactor : Double := ⟨0x4000000000000000⟩ -- 2.00
  demandCapacityRatio : Double := ⟨0x3FF0000000000000⟩ -- 1.00
  conflictRelativeTolerance : Double := ⟨0x3FB999999999999A⟩ -- 0.10
  corroboratingSourceTarget : UInt64 := 2
  evaluationWindow : Duration := Duration.fromSeconds 10
  pressureWindow : Duration := Duration.fromSeconds 5
  impairmentWindow : Duration := Duration.fromSeconds 10
  freshness : FreshnessPolicy := {}
  deriving DecidableEq

namespace ClassificationPolicy

/-- `ClassificationPolicy::digest`. -/
def digest (p : ClassificationPolicy) : UInt64 :=
  let hasher : StableHasher := {}
  let hasher := (hasher.update p.version).separator
  let hasher := hasher.updateU64 p.utilizationAttention.bits
  let hasher := hasher.updateU64 p.utilizationHigh.bits
  let hasher := hasher.updateU64 p.pressureOccupancyRatio.bits
  let hasher := hasher.updateU64 p.pressureDepthGrowthRatio.bits
  let hasher := hasher.updateU64 p.dropRateThreshold.bits
  let hasher := hasher.updateU64 p.markRateThreshold.bits
  let hasher := hasher.updateU64 p.pauseRateThreshold.bits
  let hasher := hasher.updateU64 p.retransmitRateThreshold.bits
  let hasher := hasher.updateU64 p.latencyInflationFactor.bits
  let hasher := hasher.updateU64 p.demandCapacityRatio.bits
  let hasher := hasher.updateU64 p.conflictRelativeTolerance.bits
  let hasher := hasher.updateU64 p.corroboratingSourceTarget
  let hasher := hasher.updateI64 p.evaluationWindow.nanos
  let hasher := hasher.updateI64 p.pressureWindow.nanos
  let hasher := hasher.updateI64 p.impairmentWindow.nanos
  let hasher := hasher.updateI64 p.freshness.freshWithin.nanos
  let hasher := hasher.updateI64 p.freshness.agingWithin.nanos
  let hasher := hasher.updateI64 p.freshness.staleWithin.nanos
  let hasher := hasher.updateI64 p.freshness.maxFutureSkew.nanos
  let hasher := hasher.updateBool p.freshness.requirePlausibleTimestamps
  hasher.digest64

/-- The thresholds that must be finite and not negative, with their names. -/
def ratios (p : ClassificationPolicy) : List (Double × String) :=
  [(p.utilizationAttention, "utilization_attention"), (p.utilizationHigh, "utilization_high"),
   (p.pressureOccupancyRatio, "pressure_occupancy_ratio"),
   (p.latencyInflationFactor, "latency_inflation_factor"),
   (p.demandCapacityRatio, "demand_capacity_ratio"),
   (p.conflictRelativeTolerance, "conflict_relative_tolerance")]

/-- `ClassificationPolicy::validate`. -/
def validate (p : ClassificationPolicy) : Status := do
  failIf (p.version = []) (makeError .invalidArgument "classification policy has no version")
  checkAll (fun ratio => failIf (¬ ratio.1.isFinite ∨ ratio.1 < 0)
    (makeError .invalidArgument
      ("policy threshold must be finite and non negative: " ++ ratio.2))) p.ratios
  failIf (p.utilizationAttention > p.utilizationHigh)
    (makeError .invalidArgument "utilization_attention must not exceed utilization_high")
  failIf (p.conflictRelativeTolerance > ⟨0x3FF0000000000000⟩) -- 1.0
    (makeError .outOfRange "conflict_relative_tolerance must not exceed 1.0")
  failIf (p.corroboratingSourceTarget = 0)
    (makeError .invalidArgument "corroborating_source_target must be at least one")
  failIf (p.freshness.freshWithin ≤ Duration.zero)
    (makeError .invalidArgument "fresh_within must be positive")
  failIf (p.freshness.agingWithin < p.freshness.freshWithin)
    (makeError .invalidArgument "aging_within must not be shorter than fresh_within")
  failIf (p.freshness.staleWithin < p.freshness.agingWithin)
    (makeError .invalidArgument "stale_within must not be shorter than aging_within")
  failIf (p.evaluationWindow ≤ Duration.zero)
    (makeError .invalidArgument "evaluation_window must be positive")

end ClassificationPolicy

end CongestionObservatory
