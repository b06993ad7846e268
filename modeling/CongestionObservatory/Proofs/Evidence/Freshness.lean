import CongestionObservatory.Assessment.Policy
import Mathlib.Tactic.Linarith

/-!
# `CongestionObservatory.Proofs.Evidence.Freshness`: freshness in exact integers

`assess_freshness` computes with unchecked 64-bit operators. `usable_iff` and `fresh_iff` say
when a record is usable and when it is fresh, in terms of the checks before the age (`Datable`)
and of the age as computed.

`fresh_exact_iff` compares this with the exact integers. A sum or difference that leaves the
range upwards makes the code stricter or wraps a very large age into a negative one; one that
leaves it downwards moves a bound into the far future. `Wraps` are the cases that matter.
-/

set_option autoImplicit false

namespace CongestionObservatory

open Lib

/-- The checks before the age: the record is live, its clock and its timestamps are known, and
the timestamps are plausible if they have to be. -/
structure Datable (record : EvidenceRecord) (now : Timestamp) (policy : FreshnessPolicy) :
    Prop where
  not_recovered : record.recoveredFromSnapshot = false
  not_retired : record.retired = false
  clock_known : record.clock ≠ .unknown
  observed : record.observedAt.isZero = false
  received : record.receivedAt.isZero = false
  ordered : policy.requirePlausibleTimestamps = true →
    record.observedAt ≤ record.receivedAt + policy.maxFutureSkew ∧
    record.receivedAt ≤ now + policy.maxFutureSkew ∧
    record.observedAt ≤ now + policy.maxFutureSkew

/-- A record that fails a check before the age has unknown freshness. Otherwise the age decides. -/
theorem assessFreshness_cases (record : EvidenceRecord) (now : Timestamp)
    (policy : FreshnessPolicy) :
    ¬ Datable record now policy ∧ (assessFreshness record now policy).freshness = .unknown ∨
    Datable record now policy ∧ (assessFreshness record now policy).freshness =
      if now - record.observedAt > policy.staleWithin ∨ now - record.observedAt > record.validity
      then .expired
      else if now - record.observedAt > policy.agingWithin then .stale
      else if now - record.observedAt > policy.freshWithin then .aging
      else .fresh := by
  unfold assessFreshness
  dsimp only
  by_cases hrecovered : record.recoveredFromSnapshot = true
  · rw [if_pos hrecovered]
    exact Or.inl ⟨fun h => by simp [h.not_recovered] at hrecovered, rfl⟩
  rw [if_neg hrecovered]
  by_cases hretired : record.retired = true
  · rw [if_pos hretired]
    exact Or.inl ⟨fun h => by simp [h.not_retired] at hretired, rfl⟩
  rw [if_neg hretired]
  by_cases hclock : record.clock = .unknown
  · rw [if_pos hclock]
    exact Or.inl ⟨fun h => h.clock_known hclock, rfl⟩
  rw [if_neg hclock]
  by_cases hzero : (record.observedAt.isZero || record.receivedAt.isZero) = true
  · rw [if_pos hzero]
    exact Or.inl ⟨fun h => by simp [h.observed, h.received] at hzero, rfl⟩
  rw [if_neg hzero]
  -- The three comparisons with the skew are one check here.
  by_cases hskew : policy.requirePlausibleTimestamps = true →
      record.observedAt ≤ record.receivedAt + policy.maxFutureSkew ∧
      record.receivedAt ≤ now + policy.maxFutureSkew ∧
      record.observedAt ≤ now + policy.maxFutureSkew
  · rw [Bool.or_eq_true, not_or, Bool.not_eq_true, Bool.not_eq_true] at hzero
    refine Or.inr ⟨⟨Bool.not_eq_true _ ▸ hrecovered, Bool.not_eq_true _ ▸ hretired, hclock,
      hzero.1, hzero.2, hskew⟩, ?_⟩
    have hpassed : ∀ late : Prop, ∀ _ : Decidable late,
        (policy.requirePlausibleTimestamps = true → ¬ late) →
        ¬ (policy.requirePlausibleTimestamps && decide late) = true := by
      intro late _ h
      simpa using h
    rw [if_neg (hpassed _ _ fun h => not_lt.mpr (hskew h).1),
      if_neg (hpassed _ _ fun h => not_lt.mpr (hskew h).2.1),
      if_neg (hpassed _ _ fun h => not_lt.mpr (hskew h).2.2)]
    split
    · rfl
    split
    · rfl
    split
    · rfl
    · rfl
  · refine Or.inl ⟨fun h => hskew h.ordered, ?_⟩
    split
    · rfl
    split
    · rfl
    split
    · rfl
    · rename_i h₁ h₂ h₃
      refine absurd (fun hrequired => ?_) hskew
      simp only [hrequired, Bool.true_and, decide_eq_true_eq, not_lt, gt_iff_lt] at h₁ h₂ h₃
      exact ⟨h₁, h₂, h₃⟩

/-- A record is usable, that is fresh, aging or stale, when it can be dated and its age is within
the window and its own validity. -/
theorem usable_iff (record : EvidenceRecord) (now : Timestamp) (policy : FreshnessPolicy) :
    (assessFreshness record now policy).freshness ∈ [Freshness.fresh, .aging, .stale] ↔
      Datable record now policy ∧ now - record.observedAt ≤ policy.staleWithin ∧
      now - record.observedAt ≤ record.validity := by
  rcases assessFreshness_cases record now policy with ⟨hnot, heq⟩ | ⟨hdatable, heq⟩
  · rw [heq]
    simp [hnot]
  · rw [heq, ← not_lt, ← not_lt, ← not_or]
    by_cases hexpired :
        now - record.observedAt > policy.staleWithin ∨ now - record.observedAt > record.validity
    · rw [if_pos hexpired]
      refine iff_of_false (by simp) fun h => h.2 ?_
      exact hexpired
    · rw [if_neg hexpired]
      refine iff_of_true ?_ ⟨hdatable, hexpired⟩
      split
      · simp
      split
      · simp
      · simp

theorem fresh_iff (record : EvidenceRecord) (now : Timestamp) (policy : FreshnessPolicy) :
    (assessFreshness record now policy).freshness = .fresh ↔
      Datable record now policy ∧ now - record.observedAt ≤ policy.staleWithin ∧
      now - record.observedAt ≤ record.validity ∧ now - record.observedAt ≤ policy.agingWithin ∧
      now - record.observedAt ≤ policy.freshWithin := by
  rcases assessFreshness_cases record now policy with ⟨hnot, heq⟩ | ⟨hdatable, heq⟩
  · rw [heq]
    simp [hnot]
  · rw [heq]
    constructor
    · intro h
      split at h
      · cases h
      split at h
      · cases h
      split at h
      · cases h
      rename_i hexpired hstale haging
      rw [not_or, not_lt, not_lt] at hexpired
      exact ⟨hdatable, hexpired.1, hexpired.2, not_lt.mp hstale, not_lt.mp haging⟩
    · rintro ⟨-, hstale, hvalidity, haging, hfresh⟩
      rw [if_neg (not_or.mpr ⟨not_lt.mpr hstale, not_lt.mpr hvalidity⟩), if_neg (not_lt.mpr haging),
        if_neg (not_lt.mpr hfresh)]

/-! ### Exact integers -/

/-- The exact age of a record. -/
def exactAge (record : EvidenceRecord) (now : Timestamp) : Int :=
  now.nanos.toInt - record.observedAt.nanos.toInt

/-- The age as computed is the exact one, or it went around the range once. -/
theorem age_toInt (record : EvidenceRecord) (now : Timestamp) :
    (now - record.observedAt).nanos.toInt = (exactAge record now).bmod (2 ^ 64) :=
  Int64.toInt_sub _ _

theorem add_toInt (t : Timestamp) (d : Duration) :
    (t + d).nanos.toInt = (t.nanos.toInt + d.nanos.toInt).bmod (2 ^ 64) :=
  Int64.toInt_add _ _

theorem ClassificationPolicy.freshness_of_validate {p : ClassificationPolicy}
    (h : p.validate = .ok ()) :
    Duration.zero < p.freshness.freshWithin ∧
      p.freshness.freshWithin ≤ p.freshness.agingWithin ∧
      p.freshness.agingWithin ≤ p.freshness.staleWithin := by
  unfold ClassificationPolicy.validate at h
  simp only [seq_eq_ok, failIf_eq_ok, not_le, not_lt] at h
  obtain ⟨-, -, -, -, -, hfresh, haging, hstale, -⟩ := h
  exact ⟨hfresh, haging, hstale⟩

/-- A fresh record is young, and plausible if it has to be, in exact integers. -/
def FreshExactly (record : EvidenceRecord) (now : Timestamp) (policy : FreshnessPolicy) : Prop :=
  (assessFreshness record now policy).freshness = .fresh →
    exactAge record now ≤ policy.freshWithin.nanos.toInt ∧
    exactAge record now ≤ record.validity.nanos.toInt ∧
    (policy.requirePlausibleTimestamps = true →
      record.observedAt.nanos.toInt
        ≤ record.receivedAt.nanos.toInt + policy.maxFutureSkew.nanos.toInt ∧
      record.receivedAt.nanos.toInt ≤ now.nanos.toInt + policy.maxFutureSkew.nanos.toInt ∧
      record.observedAt.nanos.toInt ≤ now.nanos.toInt + policy.maxFutureSkew.nanos.toInt)

/-- An age of 2 ^ 63 ns or more, or a plausibility bound below the range, which only a negative
skew can give. -/
def Wraps (record : EvidenceRecord) (now : Timestamp) (policy : FreshnessPolicy) : Prop :=
  2 ^ 63 ≤ exactAge record now ∨
  policy.requirePlausibleTimestamps = true ∧
    (record.receivedAt.nanos.toInt + policy.maxFutureSkew.nanos.toInt < -2 ^ 63 ∨
     now.nanos.toInt + policy.maxFutureSkew.nanos.toInt < -2 ^ 63)

/-- A validated policy grants freshness in exact integers exactly when nothing wraps, or the
record is refused in spite of it: by a check before the age, or by the age modulo 2 ^ 64. -/
theorem fresh_exact_iff (record : EvidenceRecord) (now : Timestamp) (policy : ClassificationPolicy)
    (hpolicy : policy.validate = .ok ()) :
    FreshExactly record now policy.freshness ↔
      (Wraps record now policy.freshness → Datable record now policy.freshness →
        policy.freshness.freshWithin.nanos.toInt < (exactAge record now).bmod (2 ^ 64) ∨
        record.validity.nanos.toInt < (exactAge record now).bmod (2 ^ 64)) := by
  obtain ⟨hfresh, haging, hstale⟩ := ClassificationPolicy.freshness_of_validate hpolicy
  rw [Duration.lt_iff] at hfresh
  rw [Duration.le_iff] at haging hstale
  have hzero : Duration.zero.nanos.toInt = 0 := rfl
  have hwindow := policy.freshness.freshWithin.nanos.toInt_lt
  have hvalidity := record.validity.nanos.le_toInt
  have hobserved := record.observedAt.nanos.toInt_lt
  have hobserved' := record.observedAt.nanos.le_toInt
  have hreceived := record.receivedAt.nanos.toInt_lt
  have hreceived' := record.receivedAt.nanos.le_toInt
  have hnow := now.nanos.toInt_lt
  have hnow' := now.nanos.le_toInt
  unfold FreshExactly Wraps
  rw [fresh_iff]
  simp only [Duration.le_iff, age_toInt]
  constructor
  · intro hexact hwraps hdatable
    by_contra hnot
    rw [not_or, not_lt, not_lt] at hnot
    obtain ⟨hage, hown, hskew⟩ :=
      hexact ⟨hdatable, by omega, hnot.2, by omega, hnot.1⟩
    -- Each wrap contradicts the inequality it is about.
    rcases hwraps with hold | ⟨hrequired, hlow | hlow⟩
    · omega
    · have hbound := (hskew hrequired).1
      omega
    · have hbound := (hskew hrequired).2.1
      omega
  · rintro hrefused ⟨hdatable, -, hown, -, hage⟩
    have hnowrap := fun h => hrefused h hdatable
    rw [imp_iff_not (by omega), not_or, not_and, not_or, not_lt, not_lt] at hnowrap
    obtain ⟨hyoung, hskew⟩ := hnowrap
    have hrange : exactAge record now = (exactAge record now).bmod (2 ^ 64) ∨
        exactAge record now < -2 ^ 63 := by
      rw [Int.bmod_def]
      unfold exactAge at hyoung ⊢
      omega
    refine ⟨by omega, by omega, fun hrequired => ?_⟩
    obtain ⟨hfirst, hsecond⟩ := hskew hrequired
    obtain ⟨hbefore, harrived, hseen⟩ := hdatable.ordered hrequired
    rw [Timestamp.le_iff, add_toInt, Int.bmod_def] at hbefore harrived hseen
    exact ⟨by omega, by omega, by omega⟩

/-- An observation of the year 1700, received today: the age wraps and the record is fresh. -/
def ancientDrop (now : Timestamp) : EvidenceRecord :=
  { kind := .dropCount, observedAt := ⟨-8520336000000000000⟩, receivedAt := now
    clock := .collectorWallClock }

theorem ancientDrop_fresh :
    let now : Timestamp := ⟨1767225600000000000⟩
    ({} : ClassificationPolicy).validate = .ok () ∧
      (assessFreshness (ancientDrop now) now {}).freshness = .fresh ∧
      exactAge (ancientDrop now) now = 10287561600000000000 ∧
      ¬ FreshExactly (ancientDrop now) now {} := by
  refine ⟨by decide +kernel, by decide +kernel, by decide +kernel, fun h => ?_⟩
  exact absurd (h (by decide +kernel)).1 (by decide +kernel)

/-- An observation of a second ago is fresh under the default policy, and it is a second old. -/
theorem recentDrop_fresh_exactly :
    let now : Timestamp := ⟨1767225600000000000⟩
    let record := { ancientDrop now with observedAt := ⟨1767225599000000000⟩ }
    (assessFreshness record now {}).freshness = .fresh ∧ FreshExactly record now {} := by
  intro now record
  refine ⟨by decide +kernel, (fresh_exact_iff record now {} (by decide +kernel)).mpr ?_⟩
  intro hwraps
  refine absurd hwraps ?_
  unfold Wraps
  decide +kernel

end CongestionObservatory
