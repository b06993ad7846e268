import CongestionObservatory.Runtime.Runtime
import CongestionObservatory.Proofs.Evidence.Freshness
import CongestionObservatory.Proofs.Evidence.Sweep
import CongestionObservatory.Proofs.Runtime.Soundness
import Mathlib.Data.Multiset.AddSub

/-!
# `CongestionObservatory.Proofs.Runtime.Maintenance`: maintenance and usable evidence

`run_maintenance` sweeps the records that were observed before a horizon, four times
`stale_within` ago. A usable record is at most `stale_within` old, so it should survive.

Both the horizon and the age are computed in 64 bits. `maintenance_keeps_usable_iff` says which
records are removed although they are usable: those whose age is at most `stale_within` while the
horizon wraps, and those whose age itself wraps (`Misjudged`).
-/

set_option autoImplicit false

namespace CongestionObservatory

open Lib EvidenceStore

namespace Runtime

/-- The records of the first store that the second has lost, up to what a self-move may change.
A record is counted as often as it is lost. -/
def gone (s s' : EvidenceStore) : Multiset EvidenceRecord :=
  (s.records.map EvidenceRecord.withoutOwnedMembers : Multiset EvidenceRecord)
    - (s'.records.map EvidenceRecord.withoutOwnedMembers : Multiset EvidenceRecord)

theorem gone_self (s : EvidenceStore) : gone s s = 0 := by
  have hcancel := @Multiset.add_sub_cancel_right _ _ 0
    (s.records.map EvidenceRecord.withoutOwnedMembers : Multiset EvidenceRecord)
  rwa [Multiset.zero_add] at hcancel

/-- A sweep loses exactly the records it comes to and finds expired. -/
theorem gone_sweep (s : EvidenceStore) (move : SelfMove) (horizon : Timestamp) (maxRecords : Nat)
    (token : CancellationToken) :
    gone s (s.sweep move horizon maxRecords token).2
      = (s.sweptRecords horizon maxRecords token).map EvidenceRecord.withoutOwnedMembers := by
  have hperm := sweep_records_perm s move move.keeps horizon maxRecords token
  have hsum := Multiset.coe_eq_coe.mpr hperm
  rw [← Multiset.coe_add, Multiset.add_comm] at hsum
  rw [gone, ← hsum]
  exact Multiset.add_sub_cancel_right

/-- The record can be dated, and the arithmetic takes it for usable: its age is within the window
and its validity although it is removed, which needs a window whose quadruple wraps; or its age
wraps into a negative one. -/
def Misjudged (policy : ClassificationPolicy) (now : Timestamp) (r : EvidenceRecord) : Prop :=
  Datable r now policy.freshness ∧
    (2 ^ 61 ≤ policy.freshness.staleWithin.nanos.toInt ∧
      exactAge r now ≤ policy.freshness.staleWithin.nanos.toInt ∧
      exactAge r now ≤ r.validity.nanos.toInt ∨
     2 ^ 63 ≤ exactAge r now ∧ exactAge r now - 2 ^ 64 ≤ r.validity.nanos.toInt)

/-- Among the records before the horizon the usable ones are the misjudged ones. -/
theorem usable_iff_misjudged {policy : ClassificationPolicy} (hpolicy : policy.validate = .ok ())
    {now : Timestamp} (hnow : 0 ≤ now.nanos.toInt) {r : EvidenceRecord}
    (hexpired : r.observedAt < now - retentionHorizon policy) :
    (assessFreshness r now policy.freshness).freshness ∈ [Freshness.fresh, .aging, .stale] ↔
      Misjudged policy now r := by
  obtain ⟨hfresh, haging, hstale⟩ := ClassificationPolicy.freshness_of_validate hpolicy
  rw [Duration.lt_iff] at hfresh
  rw [Duration.le_iff] at haging hstale
  have hzero : Duration.zero.nanos.toInt = 0 := rfl
  have hwindow := policy.freshness.staleWithin.nanos.toInt_lt
  have hobserved := r.observedAt.nanos.toInt_lt
  have hobserved' := r.observedAt.nanos.le_toInt
  have hnow' := now.nanos.toInt_lt
  -- A window below 2 ^ 61 gives the horizon it should.
  have hhorizon : policy.freshness.staleWithin.nanos.toInt < 2 ^ 61 →
      policy.freshness.staleWithin.nanos.toInt * 4 < exactAge r now := by
    intro hshort
    have hquadruple : (retentionHorizon policy).nanos.toInt
        = policy.freshness.staleWithin.nanos.toInt * 4 := by
      show (policy.freshness.staleWithin.nanos * 4).toInt = _
      rw [Int64.toInt_mul]
      have hfour : (4 : Int64).toInt = 4 := rfl
      rw [hfour, Int.bmod_def]
      omega
    have hdifference : (now - retentionHorizon policy).nanos.toInt
        = (now.nanos.toInt - (retentionHorizon policy).nanos.toInt).bmod (2 ^ 64) :=
      Int64.toInt_sub _ _
    rw [Timestamp.lt_iff, hdifference, hquadruple, Int.bmod_def] at hexpired
    unfold exactAge
    omega
  rw [usable_iff, Misjudged]
  simp only [Duration.le_iff, age_toInt]
  have hage : exactAge r now < 2 ^ 63 ∧
        (exactAge r now).bmod (2 ^ 64) = exactAge r now ∨
      2 ^ 63 ≤ exactAge r now ∧ (exactAge r now).bmod (2 ^ 64) = exactAge r now - 2 ^ 64 ∧
        (exactAge r now).bmod (2 ^ 64) < 0 := by
    rw [Int.bmod_def]
    unfold exactAge
    omega
  constructor
  · rintro ⟨hdatable, hle, hvalid⟩
    refine ⟨hdatable, ?_⟩
    rcases hage with ⟨hyoung, heq⟩ | ⟨hold, heq, -⟩
    · rw [heq] at hle hvalid
      have hlong : 2 ^ 61 ≤ policy.freshness.staleWithin.nanos.toInt := by
        by_contra hshort
        have hlate := hhorizon (by omega)
        omega
      exact Or.inl ⟨hlong, hle, hvalid⟩
    · rw [heq] at hvalid
      exact Or.inr ⟨hold, hvalid⟩
  · rintro ⟨hdatable, ⟨-, hle, hvalid⟩ | ⟨hold, hvalid⟩⟩
    · refine ⟨hdatable, ?_, ?_⟩
      · omega
      · omega
    · refine ⟨hdatable, ?_, ?_⟩
      · omega
      · omega

/-- What maintenance does to the store: nothing when the registry refuses, else one sweep. -/
theorem runMaintenance_store (rt : Runtime) (move : SelfMove) (now : Timestamp)
    (advanceToken sweepToken : CancellationToken) :
    (∃ e, (rt.registry.advance now rt.config.episode advanceToken).1 = .error e ∧
      (rt.runMaintenance move now advanceToken sweepToken).2.store = rt.store) ∨
    (∃ updates, (rt.registry.advance now rt.config.episode advanceToken).1 = .ok updates ∧
      (rt.runMaintenance move now advanceToken sweepToken).2.store
        = (rt.store.sweep move (now - retentionHorizon rt.config.classification)
            rt.config.limits.maxWindowRecords sweepToken).2) := by
  unfold runMaintenance
  split
  · rename_i e registry heq
    exact Or.inl ⟨e, by rw [heq], rfl⟩
  · rename_i updates registry heq
    refine Or.inr ⟨updates, by rw [heq], ?_⟩
    dsimp only
    split
    · rename_i e store hswept
      rw [hswept]
    · rename_i swept store hswept
      rw [hswept]

/-- Maintenance removes no usable record exactly when the registry refuses to advance, so that
nothing is swept, or none of the records the sweep comes to and finds before its horizon is
misjudged. -/
theorem maintenance_keeps_usable_iff (rt : Runtime) (move : SelfMove) (now : Timestamp)
    (advanceToken sweepToken : CancellationToken)
    (hpolicy : rt.config.classification.validate = .ok ()) (hnow : 0 ≤ now.nanos.toInt) :
    (∀ r ∈ gone rt.store (rt.runMaintenance move now advanceToken sweepToken).2.store,
      (assessFreshness r now rt.config.classification.freshness).freshness
        ∉ [Freshness.fresh, .aging, .stale]) ↔
    ∀ updates, (rt.registry.advance now rt.config.episode advanceToken).1 = .ok updates →
      ∀ r ∈ rt.store.sweptRecords (now - retentionHorizon rt.config.classification)
          rt.config.limits.maxWindowRecords sweepToken,
        ¬ Misjudged rt.config.classification now r := by
  rcases runMaintenance_store rt move now advanceToken sweepToken with
      ⟨e, hadvance, hstore⟩ | ⟨updates, hadvance, hstore⟩
  · rw [hadvance, hstore, gone_self]
    refine iff_of_true (fun r hr => absurd hr (Multiset.notMem_zero r)) fun updates h => ?_
    cases h
  · rw [hadvance, hstore, gone_sweep]
    have hbefore : ∀ r ∈ rt.store.sweptRecords
        (now - retentionHorizon rt.config.classification)
        rt.config.limits.maxWindowRecords sweepToken,
        r.observedAt < now - retentionHorizon rt.config.classification := by
      intro r hr
      have hmem := List.mem_of_mem_take hr
      exact of_decide_eq_true (List.mem_filter.mp hmem).2
    -- What a self-move may change is not read when a record is dated.
    have hsame : ∀ r : EvidenceRecord, assessFreshness r.withoutOwnedMembers now
        rt.config.classification.freshness
        = assessFreshness r now rt.config.classification.freshness := fun _ => rfl
    constructor
    · intro h _ _ r hr
      rw [← usable_iff_misjudged hpolicy hnow (hbefore r hr), ← hsame]
      exact h _ (Multiset.mem_coe.mpr (List.mem_map.mpr ⟨r, hr, rfl⟩))
    · intro h r hr
      obtain ⟨r', hr', rfl⟩ := List.mem_map.mp (Multiset.mem_coe.mp hr)
      rw [hsame, usable_iff_misjudged hpolicy hnow (hbefore r' hr')]
      exact h updates rfl r' hr'

/-- A configuration whose records stay usable for 109 years. Four times that is over the range. -/
def centuryConfig : RuntimeConfig :=
  { classification := { freshness := { staleWithin := ⟨3458764513820540928⟩ } } }

/-- A runtime that has ingested one observation. -/
def hearing (config : RuntimeConfig) (record : EvidenceRecord) : Runtime :=
  { initial config with
    store := (({ limits := config.limits } : EvidenceStore).ingest record record.observedAt {}
      none).2 }

/-- Under the long window maintenance removes a record that is a second old and fresh. -/
theorem maintenance_removes_fresh :
    let now : Timestamp := ⟨1767225600000000000⟩
    let rt := hearing centuryConfig (sampleDrop 1 ⟨1767225599000000000⟩)
    centuryConfig.classification.validate = .ok () ∧ 0 ≤ now.nanos.toInt ∧
      ¬ ∀ r ∈ gone rt.store (rt.runMaintenance .transfer now .never .never).2.store,
        (assessFreshness r now rt.config.classification.freshness).freshness
          ∉ [Freshness.fresh, .aging, .stale] := by
  refine ⟨by decide +kernel, by decide +kernel, ?_⟩
  decide +kernel

/-- Under the default window the record of five minutes ago goes, and it was expired. -/
theorem maintenance_removes_expired :
    let now : Timestamp := ⟨1767225600000000000⟩
    let rt := hearing {} (sampleDrop 1 ⟨1767225300000000000⟩)
    gone rt.store (rt.runMaintenance .transfer now .never .never).2.store ≠ 0 ∧
      ∀ r ∈ gone rt.store (rt.runMaintenance .transfer now .never .never).2.store,
        (assessFreshness r now rt.config.classification.freshness).freshness
          ∉ [Freshness.fresh, .aging, .stale] := by
  intro now rt
  refine ⟨by decide +kernel, (maintenance_keeps_usable_iff rt .transfer now .never .never
    (by decide +kernel) (by decide +kernel)).mpr ?_⟩
  intro updates _ r hr
  have hage : ∀ r ∈ rt.store.sweptRecords (now - retentionHorizon rt.config.classification)
      rt.config.limits.maxWindowRecords .never,
      exactAge r now = 300000000000 ∧
        rt.config.classification.freshness.staleWithin.nanos.toInt = 60000000000 := by
    decide +kernel
  obtain ⟨hminutes, hwindow⟩ := hage r hr
  rintro ⟨-, ⟨hlong, -⟩ | ⟨hold, -⟩⟩
  · omega
  · omega

end Runtime

end CongestionObservatory
