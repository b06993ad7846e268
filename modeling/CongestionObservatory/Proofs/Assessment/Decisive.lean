import CongestionObservatory.Assessment.Classify

/-!
# `CongestionObservatory.Proofs.Assessment.Decisive`: what confirms congestion

`Decisive` is the abstract statement of the impairment rule, in terms of the records: a ratio
at or above its threshold, a positive observation that no ratio quantifies, or latency samples
that grew by the policy's factor. `impairmentIsDecisive_iff` connects it to the features the
code computes, and `run_confirmed_iff` to the rule cascade: none of the early returns hides or
fakes a decisive record. `confirmed_iff_decisive` is the result for `classifySubject`, whatever
arithmetic the values are computed with.

`cumulative_never_confirms_iff` asks when cumulative counters alone confirm nothing. The loop
of `observe_rate` looks at the semantics only for a counting unit, so a cumulative counter in a
ratio or in bytes is still decisive.
-/

set_option autoImplicit false

namespace CongestionObservatory

open Lib Lib.NumberOrder

/-! ### The decisive predicate -/

section Decisive

variable {α : Type} [Arithmetic α]

open Arithmetic (ofDouble)

/-- The kinds that are decided by a rate, each with its threshold. -/
def rateThresholds (policy : ClassificationPolicy) : List (EvidenceKind × α) :=
  [(.dropCount, ofDouble policy.dropRateThreshold), (.markCount, ofDouble policy.markRateThreshold),
   (.pauseCount, ofDouble policy.pauseRateThreshold),
   (.retransmitCount, ofDouble policy.retransmitRateThreshold)]

/-- A positive ratio at or above the threshold. Some record has one exactly when the largest
ratio is positive and at or above the threshold. -/
def HarmfulRatio (threshold : α) (r : EvidenceRecord) : Prop :=
  r.value.unit = .ratio ∧ 0 < (r.scalar : α) ∧ threshold ≤ r.scalar

variable (α)

/-- A positive value in another unit, as `observe_rate` takes it for harm: a counting unit must
not be a cumulative counter. -/
def UnquantifiedHarm (r : EvidenceRecord) : Prop :=
  r.value.unit ≠ .ratio ∧ 0 < (r.scalar : α) ∧
    (isCountingUnit r.value.unit = true → r.value.semantics ≠ .cumulativeCounter)

/-- At least two positive latency samples whose maximum over minimum reaches the factor. A sample
that is no number is counted, but it is neither the maximum nor the minimum, unless it is the
first one, which no later sample replaces. -/
def LatencyInflated (policy : ClassificationPolicy) (records : List EvidenceRecord) : Prop :=
  let samples : List α := latencySamples records
  2 ≤ samples.length ∧ (∀ first ∈ samples.head?, IsNumber first) ∧
    ∃ lo ∈ samples, ∃ hi ∈ samples, (∀ v ∈ samples, IsNumber v → lo ≤ v ∧ v ≤ hi) ∧
      ofDouble policy.latencyInflationFactor ≤ hi / lo

/-- The records demonstrate harm under the policy. -/
def Decisive (policy : ClassificationPolicy) (records : List EvidenceRecord) : Prop :=
  (∃ r ∈ records, ∃ threshold : α, (r.kind, threshold) ∈ rateThresholds policy ∧
    (HarmfulRatio threshold r ∨ UnquantifiedHarm α r)) ∨ LatencyInflated α policy records

variable {α}

/-! ### The loops -/

/-- The rate after the loop is the start value or a ratio of the list, and bounds both. -/
theorem observe_foldl_rate (l : List EvidenceRecord) :
    ∀ o : RateObservation α, IsNumber o.rate →
      IsNumber (l.foldl observeRecord o).rate ∧
      ((l.foldl observeRecord o).rate = o.rate ∨
        ∃ r ∈ l, r.value.unit = .ratio ∧ (l.foldl observeRecord o).rate = r.scalar) ∧
      o.rate ≤ (l.foldl observeRecord o).rate ∧
      ∀ r ∈ l, r.value.unit = .ratio → IsNumber (r.scalar : α) →
        r.scalar ≤ (l.foldl observeRecord o).rate := by
  induction l with
  | nil =>
      intro o ho
      exact ⟨ho, Or.inl rfl, ho, fun r hr => absurd hr List.not_mem_nil⟩
  | cons a rest ih =>
      intro o ho
      rw [List.foldl_cons]
      -- One record raises the rate to its own ratio or leaves it.
      have hstep : IsNumber (observeRecord o a).rate ∧
          ((observeRecord o a).rate = o.rate ∨
            a.value.unit = .ratio ∧ (observeRecord o a).rate = a.scalar) ∧
          o.rate ≤ (observeRecord o a).rate ∧
          (a.value.unit = .ratio → IsNumber (a.scalar : α) →
            a.scalar ≤ (observeRecord o a).rate) := by
        unfold observeRecord
        by_cases hunit : a.value.unit = .ratio
        · simp only [hunit, if_true]
          by_cases hgt : a.scalar > o.rate
          · simp only [hgt, if_true]
            exact ⟨isNumber_of_lt hgt, Or.inr ⟨trivial, trivial⟩, le_of_lt hgt, fun _ h => h⟩
          · simp only [hgt, if_false]
            exact ⟨ho, Or.inl trivial, ho, fun _ h => le_of_not_lt ho h hgt⟩
        · have hrate : ∀ o' : RateObservation α, o'.rate = o.rate → IsNumber o'.rate ∧
              (o'.rate = o.rate ∨ a.value.unit = .ratio ∧ o'.rate = a.scalar) ∧
              o.rate ≤ o'.rate ∧
              (a.value.unit = .ratio → IsNumber (a.scalar : α) → a.scalar ≤ o'.rate) := by
            intro o' h
            rw [h]
            exact ⟨ho, Or.inl rfl, ho, fun h => absurd h hunit⟩
          rw [if_neg hunit]
          refine hrate _ ?_
          split
          · split <;> rfl
          · split
            · rfl
            · split <;> rfl
      obtain ⟨hnumber, hfrom', hle', ha⟩ := hstep
      obtain ⟨hresult, hfrom, hle, hall⟩ := ih (observeRecord o a) hnumber
      refine ⟨hresult, ?_, NumberOrder.trans _ _ _ hle' hle, fun r hr hunit hr' => ?_⟩
      · rcases hfrom with h | ⟨r, hr, hunit, h⟩
        · rcases hfrom' with h' | ⟨hunit, h'⟩
          · exact Or.inl (h.trans h')
          · exact Or.inr ⟨a, List.mem_cons_self, hunit, h.trans h'⟩
        · exact Or.inr ⟨r, List.mem_cons_of_mem _ hr, hunit, h⟩
      · rcases List.mem_cons.mp hr with rfl | hr
        · exact NumberOrder.trans _ _ _ (ha hunit hr') hle
        · exact hall r hr hunit hr'

/-- The flag after the loop: it was set, or some record shows unquantified harm. -/
theorem observe_foldl_unquantified (l : List EvidenceRecord) :
    ∀ o : RateObservation α, (l.foldl observeRecord o).unquantified = true ↔
      o.unquantified = true ∨ ∃ r ∈ l, UnquantifiedHarm α r := by
  induction l with
  | nil =>
      intro o
      simp
  | cons a rest ih =>
      intro o
      have hstep : (observeRecord o a).unquantified = true ↔
          o.unquantified = true ∨ UnquantifiedHarm α a := by
        unfold observeRecord UnquantifiedHarm
        by_cases hunit : a.value.unit = .ratio
        · simp [hunit]
        · by_cases hcount : isCountingUnit a.value.unit = true
          · by_cases hsem : a.value.semantics = .cumulativeCounter
            · simp [hunit, hcount, hsem]
            · by_cases hpos : a.scalar > (0 : α) <;> simp [hunit, hcount, hsem, hpos]
          · by_cases hpos : a.scalar > (0 : α) <;> simp [hunit, hcount, hpos]
      rw [List.foldl_cons, ih, hstep, List.exists_mem_cons_iff, or_assoc]

theorem observeRate_exceeds_iff (l : List EvidenceRecord) (kind : EvidenceKind) (threshold : α) :
    (decide ((observeRate l kind).rate ≥ threshold) && decide ((observeRate l kind).rate > (0 : α)))
        = true ↔ ∃ r ∈ l, r.kind = kind ∧ HarmfulRatio threshold r := by
  obtain ⟨-, hfrom, -, hall⟩ :=
    observe_foldl_rate (l.filter fun r => r.kind = kind) ({} : RateObservation α)
      Arithmetic.zero_le_zero
  simp only [Bool.and_eq_true, decide_eq_true_eq]
  constructor
  · rintro ⟨hge, hpos⟩
    rcases hfrom with h | ⟨r, hr, hunit, h⟩
    · have hzero : (observeRate l kind).rate = (0 : α) := h
      rw [hzero] at hpos
      exact absurd hpos (NumberOrder.lt_irrefl _)
    · obtain ⟨hmem, hkind⟩ := List.mem_filter.mp hr
      have hrate : (observeRate l kind).rate = (r.scalar : α) := h
      rw [hrate] at hge hpos
      exact ⟨r, hmem, by simpa using hkind, hunit, hpos, hge⟩
  · rintro ⟨r, hr, hkind, hunit, hpos, hge⟩
    have hle : r.scalar ≤ (observeRate l kind).rate :=
      hall r (List.mem_filter.mpr ⟨hr, by simpa using hkind⟩) hunit (isNumber_of_lt hpos)
    exact ⟨NumberOrder.trans _ _ _ hge hle, lt_of_lt_of_le hpos hle⟩

theorem observeRate_unquantified_iff (l : List EvidenceRecord) (kind : EvidenceKind) :
    (observeRate l kind : RateObservation α).unquantified = true ↔
      ∃ r ∈ l, r.kind = kind ∧ UnquantifiedHarm α r := by
  unfold observeRate
  rw [observe_foldl_unquantified]
  simp [List.mem_filter, and_assoc]

/-- What the loop over the samples holds: the first sample, while it is no number, and else the
least and the greatest of those that are numbers. -/
structure HoldsRange (samples : List α) (range : α × α × Nat) : Prop where
  count : range.2.2 = samples.length
  stuck : ∀ first ∈ samples.head?, ¬ IsNumber first → range.1 = first
  range : ∀ first ∈ samples.head?, IsNumber first →
    range.1 ∈ samples ∧ range.2.1 ∈ samples ∧
      ∀ v ∈ samples, IsNumber v → range.1 ≤ v ∧ v ≤ range.2.1

theorem latencyRange_spec (samples : List α) : HoldsRange samples (latencyRange samples) := by
  -- The induction takes the last sample off, as the loop saw it last.
  induction samples using List.reverseRecOn with
  | nil => exact ⟨rfl, fun _ h => absurd h (by simp), fun _ h => absurd h (by simp)⟩
  | append_singleton init x ih =>
      obtain ⟨hcount, hstuck, hrange⟩ := ih
      unfold latencyRange at hcount hstuck hrange ⊢
      rw [List.foldl_append, List.foldl_cons, List.foldl_nil]
      generalize List.foldl _ ((0 : α), (0 : α), 0) init = acc at hcount hstuck hrange ⊢
      obtain ⟨lo, hi, count⟩ := acc
      dsimp only at hcount hstuck hrange ⊢
      subst hcount
      refine ⟨by simp, fun first hfirst hnot => ?_, fun first hfirst hnumber => ?_⟩
      · cases init with
        | nil => simpa using hfirst
        | cons y init =>
            have hlo := hstuck first hfirst hnot
            rw [if_neg]
            · exact hlo
            · rw [hlo]
              simp only [List.length_cons, Nat.add_eq_zero_iff, one_ne_zero, and_false, false_or]
              exact fun h => hnot (isNumber_of_lt h)
      · cases init with
        | nil =>
            have hx : x = first := by simpa using hfirst
            subst hx
            simp only [List.length_nil, true_or, if_true, List.nil_append, List.mem_singleton,
              true_and]
            rintro v rfl -
            exact ⟨hnumber, hnumber⟩
        | cons y init =>
            obtain ⟨hlo, hhi, hall⟩ := hrange first hfirst hnumber
            have hfirst' : first ∈ y :: init := List.mem_of_mem_head? hfirst
            have hlonumber : IsNumber lo := NumberOrder.refl_left _ _ (hall _ hfirst' hnumber).1
            have hhinumber : IsNumber hi := NumberOrder.refl_right _ _ (hall _ hfirst' hnumber).2
            have hne : ¬ (y :: init).length = 0 := Nat.succ_ne_zero _
            simp only [hne, false_or]
            refine ⟨?_, ?_, fun v hv hvnumber => ?_⟩
            · split
              · simp
              · exact List.mem_append_left _ hlo
            · split
              · simp
              · exact List.mem_append_left _ hhi
            · rcases List.mem_append.mp hv with hv | hv
              · obtain ⟨h1, h2⟩ := hall v hv hvnumber
                constructor
                · split
                  · exact NumberOrder.trans _ _ _ (le_of_lt ‹x < lo›) h1
                  · exact h1
                · split
                  · exact NumberOrder.trans _ _ _ h2 (le_of_lt ‹x > hi›)
                  · exact h2
              · obtain rfl := List.mem_singleton.mp hv
                constructor
                · split
                  · exact hvnumber
                  · exact le_of_not_lt hvnumber hlonumber ‹¬ v < lo›
                · split
                  · exact hvnumber
                  · exact le_of_not_lt hhinumber hvnumber ‹¬ v > hi›

variable (α) in
/-- The latency flag of the features. -/
def inflatedFlag (policy : ClassificationPolicy) (records : List EvidenceRecord) : Bool :=
  let range : α × α × Nat := latencyRange (latencySamples records)
  let inflatable := decide (range.2.2 ≥ 2) && decide (range.1 > 0)
  inflatable && decide ((if inflatable then range.2.1 / range.1 else 0)
    ≥ ofDouble policy.latencyInflationFactor)

/-- A sample that is a number is positive. -/
theorem latencySamples_pos {records : List EvidenceRecord} {v : α}
    (hv : v ∈ (latencySamples records : List α)) (hnumber : IsNumber v) : 0 < v := by
  have hnot : ¬ v ≤ 0 := by simpa using (List.mem_filter.mp hv).2
  by_contra hle
  exact hnot (le_of_not_lt Arithmetic.zero_le_zero hnumber hle)

theorem inflatedFlag_iff (policy : ClassificationPolicy) (records : List EvidenceRecord) :
    inflatedFlag α policy records = true ↔ LatencyInflated α policy records := by
  obtain ⟨hcount, hstuck, hrange⟩ := latencyRange_spec (latencySamples records : List α)
  have hpositive : ∀ v ∈ (latencySamples records : List α), IsNumber v → 0 < v :=
    fun _ => latencySamples_pos
  unfold inflatedFlag LatencyInflated
  generalize (latencySamples records : List α) = samples at hcount hstuck hrange hpositive ⊢
  simp only [Bool.and_eq_true, decide_eq_true_eq, hcount]
  constructor
  · rintro ⟨⟨hlen, hmin⟩, hfactor⟩
    rw [if_pos ⟨hlen, hmin⟩] at hfactor
    have hfirst : ∀ first ∈ samples.head?, IsNumber first := by
      intro first hfirst
      by_contra hnot
      rw [hstuck first hfirst hnot] at hmin
      exact hnot (isNumber_of_lt hmin)
    obtain ⟨first, rest, rfl⟩ := List.exists_cons_of_length_pos (by omega : 0 < samples.length)
    obtain ⟨hlo, hhi, hall⟩ := hrange first rfl (hfirst first rfl)
    exact ⟨hlen, hfirst, _, hlo, _, hhi, hall, hfactor⟩
  · rintro ⟨hlen, hfirst, lo, hlo, hi, hhi, hall, hfactor⟩
    obtain ⟨first, rest, rfl⟩ := List.exists_cons_of_length_pos (by omega : 0 < samples.length)
    obtain ⟨hlo', hhi', hall'⟩ := hrange first rfl (hfirst first rfl)
    have hbounds := hall first List.mem_cons_self (hfirst first rfl)
    have hbounds' := hall' first List.mem_cons_self (hfirst first rfl)
    -- Both pairs are least and greatest, so they compare as equal.
    have hlonumber := NumberOrder.refl_left _ _ hbounds.1
    have hhinumber := NumberOrder.refl_right _ _ hbounds.2
    have hlonumber' := NumberOrder.refl_left _ _ hbounds'.1
    have hhinumber' := NumberOrder.refl_right _ _ hbounds'.2
    have hfactor' := hfactor
    rw [Arithmetic.div_eq_div (hpositive hi hhi hhinumber) (hall' hi hhi hhinumber).2
      (hall _ hhi' hhinumber').2 (hpositive lo hlo hlonumber) (hall _ hlo' hlonumber').1
      (hall' lo hlo hlonumber).1] at hfactor'
    have hpos := hpositive _ hlo' hlonumber'
    refine ⟨⟨hlen, hpos⟩, ?_⟩
    rw [if_pos ⟨hlen, hpos⟩]
    exact hfactor'

end Decisive

/-! ### The features -/

section Features

variable (α : Type) [Arithmetic α] (request : ClassificationRequest) (policy : ClassificationPolicy)
  (records : List (Option EvidenceRecord))

/-- The usable impairment records. -/
def usableImpairment : List EvidenceRecord := usableOfRole request policy records .impairment

/-- The rule engine of a classification. -/
def engineOf : RuleEngine α :=
  { request := request, policy := policy, features := extractFeatures α request records policy }

theorem features_recordsInWindow :
    (extractFeatures α request records policy).recordsInWindow
      = (recordsInWindow request records).length := by
  unfold extractFeatures impairmentFeatures
  dsimp only
  split <;> rfl

theorem features_recordsGenerationMismatch :
    (extractFeatures α request records policy).recordsGenerationMismatch
      = (recordsInWindow request records).countP
          fun record => !generationMatches record request.generation := by
  unfold extractFeatures impairmentFeatures
  dsimp only
  split <;> rfl

theorem features_unsupportedRecords :
    (extractFeatures α request records policy).unsupportedRecords
      = (recordsInWindow request records).countP fun record => record.support == .unsupported := by
  unfold extractFeatures impairmentFeatures
  dsimp only
  split <;> rfl

theorem features_anyFreshDeciding :
    (extractFeatures α request records policy).anyFreshDeciding
      = !(usableRecords request policy records).isEmpty := by
  unfold extractFeatures impairmentFeatures
  dsimp only
  split <;> rfl

theorem not_decisive_nil : ¬ Decisive α policy [] := by
  rintro (⟨r, hr, -⟩ | ⟨hlen, -⟩)
  · exact absurd hr List.not_mem_nil
  · simp [latencySamples] at hlen

/-- The test of R04 on the features is the decisive predicate on the usable impairment
records. -/
theorem impairmentIsDecisive_iff :
    (engineOf α request policy records).impairmentIsDecisive = true ↔
      Decisive α policy (usableImpairment request policy records) := by
  unfold RuleEngine.impairmentIsDecisive engineOf extractFeatures impairmentFeatures
  dsimp only
  change _ ↔ Decisive α policy (usableOfRole request policy records .impairment)
  generalize usableOfRole request policy records .impairment = group
  split
  · rename_i hnil
    rw [hnil]
    simp [not_decisive_nil]
  · have hlatency := inflatedFlag_iff (α := α) policy group
    unfold inflatedFlag at hlatency
    dsimp only at hlatency ⊢
    rw [Bool.true_and]
    -- The flag is a disjunction: four kinds above their thresholds, the latency, and four kinds
    -- whose rate is unknown. The predicate names the kind once, with its threshold.
    simp only [Bool.or_eq_true, observeRate_exceeds_iff, observeRate_unquantified_iff, hlatency]
    unfold Decisive rateThresholds
    simp only [List.mem_cons, Prod.mk.injEq, List.not_mem_nil, or_false]
    constructor
    · rintro ((((((⟨r, hr, hk, h⟩ | ⟨r, hr, hk, h⟩) | ⟨r, hr, hk, h⟩) | ⟨r, hr, hk, h⟩) | h) |
        (((⟨r, hr, hk, h⟩ | ⟨r, hr, hk, h⟩) | ⟨r, hr, hk, h⟩) | ⟨r, hr, hk, h⟩)))
      · exact Or.inl ⟨r, hr, _, Or.inl ⟨hk, rfl⟩, Or.inl h⟩
      · exact Or.inl ⟨r, hr, _, Or.inr (Or.inl ⟨hk, rfl⟩), Or.inl h⟩
      · exact Or.inl ⟨r, hr, _, Or.inr (Or.inr (Or.inl ⟨hk, rfl⟩)), Or.inl h⟩
      · exact Or.inl ⟨r, hr, _, Or.inr (Or.inr (Or.inr ⟨hk, rfl⟩)), Or.inl h⟩
      · exact Or.inr h
      · exact Or.inl ⟨r, hr, _, Or.inl ⟨hk, rfl⟩, Or.inr h⟩
      · exact Or.inl ⟨r, hr, _, Or.inr (Or.inl ⟨hk, rfl⟩), Or.inr h⟩
      · exact Or.inl ⟨r, hr, _, Or.inr (Or.inr (Or.inl ⟨hk, rfl⟩)), Or.inr h⟩
      · exact Or.inl ⟨r, hr, _, Or.inr (Or.inr (Or.inr ⟨hk, rfl⟩)), Or.inr h⟩
    · rintro (⟨r, hr, threshold, ⟨hk, rfl⟩ | ⟨hk, rfl⟩ | ⟨hk, rfl⟩ | ⟨hk, rfl⟩, h | h⟩ | h)
      · exact Or.inl (Or.inl (Or.inl (Or.inl (Or.inl ⟨r, hr, hk, h⟩))))
      · exact Or.inr (Or.inl (Or.inl (Or.inl ⟨r, hr, hk, h⟩)))
      · exact Or.inl (Or.inl (Or.inl (Or.inl (Or.inr ⟨r, hr, hk, h⟩))))
      · exact Or.inr (Or.inl (Or.inl (Or.inr ⟨r, hr, hk, h⟩)))
      · exact Or.inl (Or.inl (Or.inl (Or.inr ⟨r, hr, hk, h⟩)))
      · exact Or.inr (Or.inl (Or.inr ⟨r, hr, hk, h⟩))
      · exact Or.inl (Or.inl (Or.inr ⟨r, hr, hk, h⟩))
      · exact Or.inr (Or.inr ⟨r, hr, hk, h⟩)
      · exact Or.inl (Or.inr h)

end Features

/-! ### The rule cascade -/

namespace RuleEngine

variable {α : Type} [Arithmetic α] (e : RuleEngine α)

@[simp] theorem step_verdict (ruleId decision reasonCode : String) (a : CongestionAssessment α) :
    (e.step ruleId decision reasonCode a).verdict = a.verdict := by
  unfold step
  split <;> rfl

@[simp] theorem block_verdict (code detail : Text) (a : CongestionAssessment α) :
    (block code detail a).verdict = a.verdict := by
  unfold block
  split
  · rfl
  · split <;> rfl

@[simp] theorem collectConflictBlockers_verdict (a : CongestionAssessment α) :
    (e.collectConflictBlockers a).verdict = a.verdict := by
  have hif : ∀ (c : Prop) [Decidable c] (x y : CongestionAssessment α),
      (if c then x else y).verdict = if c then x.verdict else y.verdict := by
    intro c _ x y
    split <;> rfl
  unfold collectConflictBlockers
  simp only [List.foldl_cons, List.foldl_nil, hif, block_verdict, step_verdict, ite_self]

/-- The rules from R07 on never confirm congestion. -/
theorem rulesFromContention_verdict (a : CongestionAssessment α) :
    (e.rulesFromContention a).verdict ≠ .congestionConfirmed := by
  unfold rulesFromContention
  dsimp only
  split
  · rw [step_verdict]
    exact Verdict.noConfusion
  split
  · rw [step_verdict, block_verdict]
    exact Verdict.noConfusion
  split
  · rw [step_verdict]
    exact Verdict.noConfusion
  · rw [step_verdict]
    exact Verdict.noConfusion

/-- The rules after R04 never confirm congestion. -/
theorem rulesFromSaturation_verdict (a : CongestionAssessment α) :
    (e.rulesFromSaturation a).verdict ≠ .congestionConfirmed := by
  unfold rulesFromSaturation
  dsimp only
  split
  · rw [step_verdict]
    exact Verdict.noConfusion
  split
  · rw [step_verdict]
    exact Verdict.noConfusion
  · exact e.rulesFromContention_verdict _

/-- R04 confirms exactly on a decisive impairment. -/
theorem rulesFromImpairment_confirmed_iff (a : CongestionAssessment α) :
    (e.rulesFromImpairment a).verdict = .congestionConfirmed ↔ e.impairmentIsDecisive = true := by
  unfold rulesFromImpairment
  dsimp only
  by_cases h : e.impairmentIsDecisive = true
  · rw [if_pos h]
    exact iff_of_true (e.step_verdict _ _ _ _) h
  · rw [if_neg h]
    exact iff_of_false (e.rulesFromSaturation_verdict _) h

/-- R03 lets the impairment decide exactly when there is a usable record. -/
theorem rulesFromFreshness_confirmed_iff (a : CongestionAssessment α) :
    (e.rulesFromFreshness a).verdict = .congestionConfirmed ↔
      e.features.anyFreshDeciding = true ∧ e.impairmentIsDecisive = true := by
  unfold rulesFromFreshness
  dsimp only
  by_cases h : e.features.anyFreshDeciding = true
  · rw [if_neg (by simp [h]), rulesFromImpairment_confirmed_iff]
    exact ⟨fun hd => ⟨h, hd⟩, And.right⟩
  · rw [if_pos (by simp [h])]
    refine iff_of_false ?_ fun hd => h hd.1
    -- Each of the four reports keeps the verdict that was set before it.
    rw [collectConflictBlockers_verdict]
    repeat' split
    all_goals
      rw [step_verdict, block_verdict]
      exact Verdict.noConfusion

/-- R02 returns early exactly when every record of the window is unsupported. -/
theorem rulesFromSupport_confirmed_iff (a : CongestionAssessment α)
    (hwindow : e.features.recordsInWindow ≠ 0) :
    (e.rulesFromSupport a).verdict = .congestionConfirmed ↔
      e.features.unsupportedRecords ≠ e.features.recordsInWindow ∧
      e.features.anyFreshDeciding = true ∧ e.impairmentIsDecisive = true := by
  unfold rulesFromSupport
  dsimp only
  by_cases hpos : e.features.unsupportedRecords > 0
  · rw [if_pos hpos]
    by_cases heq : e.features.unsupportedRecords = e.features.recordsInWindow
    · rw [if_pos heq]
      exact iff_of_false Verdict.noConfusion fun h => h.1 heq
    · rw [if_neg heq, rulesFromFreshness_confirmed_iff]
      exact ⟨fun h => ⟨heq, h⟩, And.right⟩
  · rw [if_neg hpos, rulesFromFreshness_confirmed_iff]
    have hne : e.features.unsupportedRecords ≠ e.features.recordsInWindow := by omega
    exact ⟨fun h => ⟨hne, h⟩, And.right⟩

/-- The cascade confirms congestion exactly when the early returns do not fire and the
impairment is decisive. -/
theorem assessRules_confirmed_iff (a : CongestionAssessment α) :
    (e.assessRules a).verdict = .congestionConfirmed ↔
      e.features.recordsInWindow ≠ 0 ∧
      e.features.recordsGenerationMismatch ≠ e.features.recordsInWindow ∧
      e.features.unsupportedRecords ≠ e.features.recordsInWindow ∧
      e.features.anyFreshDeciding = true ∧ e.impairmentIsDecisive = true := by
  unfold assessRules
  by_cases hwindow : e.features.recordsInWindow = 0
  · rw [if_pos hwindow]
    refine iff_of_false ?_ fun h => h.1 hwindow
    show (e.step _ _ _ _).verdict ≠ _
    rw [step_verdict, block_verdict]
    exact Verdict.noConfusion
  rw [if_neg hwindow]
  unfold rulesFromGeneration
  dsimp only
  by_cases hpos : e.features.recordsGenerationMismatch > 0
  · rw [if_pos hpos]
    by_cases heq : e.features.recordsGenerationMismatch = e.features.recordsInWindow
    · rw [if_pos heq]
      exact iff_of_false Verdict.noConfusion fun h => h.2.1 heq
    · rw [if_neg heq, rulesFromSupport_confirmed_iff e _ hwindow]
      exact ⟨fun h => ⟨hwindow, heq, h⟩, fun h => h.2.2⟩
  · rw [if_neg hpos, rulesFromSupport_confirmed_iff e _ hwindow]
    have hne : e.features.recordsGenerationMismatch ≠ e.features.recordsInWindow := by omega
    exact ⟨fun h => ⟨hwindow, hne, h⟩, fun h => h.2.2⟩

/-- The final pass keeps the verdict and derives the assertion from it. -/
theorem finalize_verdict (citations : List EvidenceId) (a : CongestionAssessment α) :
    (e.finalize citations a).verdict = a.verdict ∧
      (e.finalize citations a).congestionAsserted = isCongestionAssertion a.verdict := by
  have hif : ∀ (c : Prop) [Decidable c] (code detail : Text) (x : CongestionAssessment α),
      (if c then block code detail x else x).verdict = x.verdict := by
    intro c _ code detail x
    split
    · exact block_verdict code detail x
    · rfl
  unfold finalize
  dsimp only
  simp only [hif, collectConflictBlockers_verdict, and_self]

end RuleEngine

/-! ### Confirmed congestion -/

section Confirmed

/-- A request that `classify_subject` does not refuse. -/
def ValidRequest (request : ClassificationRequest) : Prop :=
  request.subject.valid = true ∧ request.windowStart ≤ request.windowEnd

variable {α : Type} [Arithmetic α] (request : ClassificationRequest)
  (policy : ClassificationPolicy)

variable (α) in
/-- `classify_subject` returns `kCongestionConfirmed`. -/
def Confirmed (records : List (Option EvidenceRecord)) : Prop :=
  ∃ a, classifySubject α request records policy = .ok a ∧ a.verdict = .congestionConfirmed

variable {request}

/-- A valid request is classified by the rule engine. -/
theorem classifySubject_valid (h : ValidRequest request) (records : List (Option EvidenceRecord)) :
    classifySubject α request records policy
      = .ok ((engineOf α request policy records).run (collectCitations request policy records)) := by
  have hsubject : failIf (¬ request.subject.valid)
      (makeError .invalidArgument "classification requires a subject") = .ok () :=
    failIf_eq_ok.mpr (not_not.mpr h.1)
  have hwindow : failIf (request.windowEnd < request.windowStart)
      (makeError .invalidArgument "classification window ends before it starts") = .ok () :=
    failIf_eq_ok.mpr (not_lt.mpr h.2)
  unfold classifySubject
  rw [hsubject, hwindow]
  rfl

/-- An invalid request is refused. -/
theorem classifySubject_invalid (h : ¬ ValidRequest request)
    (records : List (Option EvidenceRecord)) :
    ∃ e, classifySubject α request records policy = .error e := by
  cases hc : classifySubject α request records policy with
  | error e => exact ⟨e, rfl⟩
  | ok a =>
      exfalso
      unfold classifySubject at hc
      simp only [seq_eq_ok, failIf_eq_ok, not_not, not_lt] at hc
      exact h ⟨hc.1, hc.2.1⟩

/-- Only a valid request is classified. -/
theorem validRequest_of_ok {records : List (Option EvidenceRecord)} {a : CongestionAssessment α}
    (h : classifySubject α request records policy = .ok a) : ValidRequest request := by
  by_contra hinvalid
  obtain ⟨error, herror⟩ := classifySubject_invalid (α := α) policy hinvalid records
  rw [herror] at h
  cases h

/-- A decisive usable record keeps every early return from firing. -/
theorem early_rules_of_usable {records : List (Option EvidenceRecord)} {r : EvidenceRecord}
    (hr : r ∈ usableRecords request policy records) :
    (recordsInWindow request records).length ≠ 0 ∧
    (recordsInWindow request records).countP
        (fun record => !generationMatches record request.generation)
      ≠ (recordsInWindow request records).length ∧
    (recordsInWindow request records).countP (fun record => record.support == .unsupported)
      ≠ (recordsInWindow request records).length := by
  obtain ⟨hmatching, hdeciding⟩ := List.mem_filter.mp hr
  obtain ⟨hwindow, hgen⟩ := List.mem_filter.mp hmatching
  refine ⟨?_, fun h => ?_, fun h => ?_⟩
  · exact fun h => List.ne_nil_of_mem hwindow (List.length_eq_zero_iff.mp h)
  · have hall := List.countP_eq_length.mp h r hwindow
    rw [hgen] at hall
    cases hall
  · have hall := List.countP_eq_length.mp h r hwindow
    unfold isDeciding at hdeciding
    simp_all

theorem run_confirmed_iff (records : List (Option EvidenceRecord)) (citations : List EvidenceId) :
    ((engineOf α request policy records).run citations).verdict = .congestionConfirmed ↔
      Decisive α policy (usableImpairment request policy records) := by
  unfold RuleEngine.run
  rw [(RuleEngine.finalize_verdict _ _ _).1, RuleEngine.assessRules_confirmed_iff,
    impairmentIsDecisive_iff]
  constructor
  · rintro ⟨-, -, -, -, h⟩
    exact h
  · intro h
    -- A decisive list is not empty, and its records are usable.
    have hne : usableImpairment request policy records ≠ [] := by
      intro hnil
      rw [hnil] at h
      exact not_decisive_nil α policy h
    obtain ⟨r, hr⟩ := List.exists_mem_of_ne_nil _ hne
    have husable : r ∈ usableRecords request policy records := (List.mem_filter.mp hr).1
    obtain ⟨h1, h2, h3⟩ := early_rules_of_usable policy husable
    show (extractFeatures α request records policy).recordsInWindow ≠ 0 ∧
      (extractFeatures α request records policy).recordsGenerationMismatch
        ≠ (extractFeatures α request records policy).recordsInWindow ∧
      (extractFeatures α request records policy).unsupportedRecords
        ≠ (extractFeatures α request records policy).recordsInWindow ∧
      (extractFeatures α request records policy).anyFreshDeciding = true ∧ _
    rw [features_recordsInWindow, features_recordsGenerationMismatch, features_unsupportedRecords,
      features_anyFreshDeciding]
    refine ⟨h1, h2, h3, ?_, h⟩
    simpa using List.ne_nil_of_mem husable

theorem confirmed_iff (h : ValidRequest request) (records : List (Option EvidenceRecord)) :
    Confirmed α request policy records ↔
      Decisive α policy (usableImpairment request policy records) := by
  unfold Confirmed
  rw [classifySubject_valid policy h]
  simp only [Except.ok.injEq, exists_eq_left', run_confirmed_iff]

theorem asserted_iff (h : ValidRequest request) (records : List (Option EvidenceRecord)) :
    ∃ asserted, (classifySubject α request records policy).map
        CongestionAssessment.congestionAsserted = .ok asserted ∧
      (asserted = true ↔ Decisive α policy (usableImpairment request policy records)) := by
  rw [classifySubject_valid policy h]
  refine ⟨_, rfl, ?_⟩
  rw [← run_confirmed_iff policy records (collectCitations request policy records)]
  unfold RuleEngine.run
  rw [(RuleEngine.finalize_verdict _ _ _).1, (RuleEngine.finalize_verdict _ _ _).2]
  simp [isCongestionAssertion]

/-- The congestion verdict of a valid request depends only on the usable impairment records: it
is confirmed exactly when they are decisive, and two lists of records with the same usable
impairment records get the same answer. -/
theorem confirmed_iff_decisive (α : Type) [Arithmetic α] (request : ClassificationRequest)
    (policy : ClassificationPolicy) (hrequest : ValidRequest request) :
    (∀ records, Confirmed α request policy records ↔
      Decisive α policy (usableImpairment request policy records)) ∧
    ∀ records records', usableImpairment request policy records
        = usableImpairment request policy records' →
      (classifySubject α request records policy).map CongestionAssessment.congestionAsserted
        = (classifySubject α request records' policy).map
            CongestionAssessment.congestionAsserted := by
  refine ⟨confirmed_iff policy hrequest, fun records records' hsame => ?_⟩
  obtain ⟨asserted, heq, hiff⟩ := @asserted_iff α _ _ policy hrequest records
  obtain ⟨asserted', heq', hiff'⟩ := @asserted_iff α _ _ policy hrequest records'
  rw [← hsame] at hiff'
  rw [heq, heq', Bool.eq_iff_iff.mpr (hiff.trans hiff'.symm)]

/-- An observation of one link by one source at one instant. -/
def linkObservation (kind : EvidenceKind) (value : EvidenceValue) (source : String)
    (sequence : UInt64) : EvidenceRecord :=
  { id := ⟨0, sequence⟩
    kind := kind
    subject := .link (EntityId.unchecked (ascii "leaf1-up"))
    provenance := { source := EntityId.unchecked (ascii source), authority := .measured }
    fence :=
      { source := EntityId.unchecked (ascii source), boot := 1, incarnation := 1
        sequence := sequence }
    observedAt := ⟨1000000000⟩
    receivedAt := ⟨1000000000⟩
    clock := .collectorWallClock
    value := value }

/-- The request about that link at that instant. -/
def linkRequest : ClassificationRequest :=
  { subject := .link (EntityId.unchecked (ascii "leaf1-up"))
    windowStart := ⟨0⟩
    windowEnd := ⟨1000000000⟩
    evaluatedAt := ⟨1000000000⟩ }

theorem linkRequest_valid : ValidRequest linkRequest := by
  unfold ValidRequest
  decide +kernel

/-- The result at one request, where a dropped packet is decisive, for the exact numbers. -/
theorem confirmed_iff_decisive_link :
    (ValidRequest linkRequest ∧
      (usableImpairment linkRequest {} [some (linkObservation .dropCount
        { scalar := ⟨0x3FF0000000000000⟩, unit := .packets, semantics := .deltaCounter }
        "agent1" 1)]).length = 1) ∧
    (∀ records, Confirmed ℚ linkRequest {} records ↔
      Decisive ℚ {} (usableImpairment linkRequest {} records)) ∧
    ∀ records records', usableImpairment linkRequest {} records
        = usableImpairment linkRequest {} records' →
      (classifySubject ℚ linkRequest records {}).map CongestionAssessment.congestionAsserted
        = (classifySubject ℚ linkRequest records' {}).map
            CongestionAssessment.congestionAsserted :=
  ⟨⟨linkRequest_valid, by decide +kernel⟩,
    confirmed_iff_decisive ℚ linkRequest {} linkRequest_valid⟩

/-! ### Cumulative counters -/

/-- Drop, mark, pause or retransmit: the kinds decided by a rate. -/
def isRateKind (kind : EvidenceKind) : Bool :=
  kind == .dropCount || kind == .markCount || kind == .pauseCount || kind == .retransmitCount

theorem isRateKind_of_mem {policy : ClassificationPolicy} {kind : EvidenceKind} {threshold : α}
    (h : (kind, threshold) ∈ rateThresholds policy) : isRateKind kind = true := by
  unfold rateThresholds at h
  simp only [List.mem_cons, Prod.mk.injEq, List.not_mem_nil, or_false] at h
  rcases h with ⟨rfl, -⟩ | ⟨rfl, -⟩ | ⟨rfl, -⟩ | ⟨rfl, -⟩ <;> rfl

/-- A usable record that the loop of `observe_rate` does not take for harm even when its
semantics are cumulative: a ratio that is not positive or not at the threshold, a counting unit,
or a value that is not positive. -/
def HarmlessUnit (threshold : Double) (r : EvidenceRecord) : Prop :=
  ¬ HarmfulRatio threshold r ∧
    (r.value.unit = .ratio ∨ isCountingUnit r.value.unit = true ∨ ¬ (0 : Double) < r.scalar)

/-- The first of several latency samples is compared with itself and reaches the factor. -/
def ReachesAlone (policy : ClassificationPolicy) (samples : List Double) : Prop :=
  2 ≤ samples.length ∧ ∃ first ∈ samples.head?, IsNumber first ∧
    policy.latencyInflationFactor ≤ first / first

/-- With fewer than two positive samples the others are no numbers, so the first one is alone. -/
theorem latencyInflated_iff_alone (policy : ClassificationPolicy) (records : List EvidenceRecord)
    (hfew : ((latencySamples records : List Double).filter fun value => 0 < value).length < 2) :
    LatencyInflated Double policy records ↔ ReachesAlone policy (latencySamples records) := by
  have hpositive : ∀ v ∈ (latencySamples records : List Double), IsNumber v → 0 < v :=
    fun _ => latencySamples_pos
  unfold LatencyInflated ReachesAlone
  dsimp only
  generalize (latencySamples records : List Double) = samples at hfew hpositive ⊢
  -- At most one of the samples is a number.
  have hsame : ∀ v ∈ samples, ∀ w ∈ samples, IsNumber v → IsNumber w → v = w := by
    intro v hv w hw hvnumber hwnumber
    have hmem : ∀ u ∈ samples, IsNumber u → u ∈ samples.filter fun value => 0 < value :=
      fun u hu hnumber => List.mem_filter.mpr ⟨hu, decide_eq_true (hpositive u hu hnumber)⟩
    have hv' := hmem v hv hvnumber
    have hw' := hmem w hw hwnumber
    generalize samples.filter (fun value => decide (0 < value)) = positive at hfew hv' hw'
    cases positive with
    | nil => exact absurd hv' List.not_mem_nil
    | cons x rest =>
        rw [List.length_cons] at hfew
        have hrest : rest = [] := List.length_eq_zero_iff.mp (by omega)
        subst hrest
        rw [List.mem_singleton.mp hv', List.mem_singleton.mp hw']
  constructor
  · rintro ⟨hlen, hfirst, lo, hlo, hi, hhi, hall, hfactor⟩
    obtain ⟨first, rest, rfl⟩ := List.exists_cons_of_length_pos (by omega : 0 < samples.length)
    have hnumber := hfirst first rfl
    obtain ⟨hlofirst, hfirsthi⟩ := hall first List.mem_cons_self hnumber
    rw [hsame lo hlo first List.mem_cons_self (NumberOrder.refl_left _ _ hlofirst) hnumber,
      hsame hi hhi first List.mem_cons_self (NumberOrder.refl_right _ _ hfirsthi) hnumber]
      at hfactor
    exact ⟨hlen, first, rfl, hnumber, hfactor⟩
  · rintro ⟨hlen, first, hfirst, hnumber, hfactor⟩
    have hmem : first ∈ samples := List.mem_of_mem_head? hfirst
    refine ⟨hlen, fun v hv => ?_, first, hmem, first, hmem, fun v hv hvnumber => ?_, hfactor⟩
    · rw [Option.mem_unique hv hfirst]
      exact hnumber
    · rw [hsame v hv first hmem hvnumber hnumber]
      exact ⟨hnumber, hnumber⟩

/-- When every usable drop, mark, pause and retransmit record is a cumulative counter and there
are fewer than two positive latency samples, congestion is not confirmed exactly when the
request is refused, or every such record has a harmless unit and no positive sample, counted with
samples that are no numbers, reaches the factor alone. -/
theorem cumulative_never_confirms_iff (request : ClassificationRequest)
    (policy : ClassificationPolicy) (records : List (Option EvidenceRecord))
    (hcumulative : ∀ r ∈ usableImpairment request policy records, isRateKind r.kind = true →
      r.value.semantics = .cumulativeCounter)
    (hlatency : ((latencySamples (usableImpairment request policy records) : List Double).filter
      fun value => 0 < value).length < 2) :
    ¬ Confirmed Double request policy records ↔
      (ValidRequest request →
        (∀ r ∈ usableImpairment request policy records, ∀ threshold,
          (r.kind, threshold) ∈ rateThresholds policy → HarmlessUnit threshold r) ∧
        ¬ ReachesAlone policy (latencySamples (usableImpairment request policy records))) := by
  rw [← latencyInflated_iff_alone policy _ hlatency]
  -- A refused request has no assessment, so that nothing is confirmed.
  by_cases hvalid : ValidRequest request
  · rw [confirmed_iff policy hvalid]
    constructor
    · intro hnot _
      refine ⟨fun r hr threshold hkind => ?_, fun hinflated => hnot (Or.inr hinflated)⟩
      refine ⟨fun hharm => hnot (Or.inl ⟨r, hr, threshold, hkind, Or.inl hharm⟩), ?_⟩
      by_contra hunit
      rw [not_or, not_or, not_not] at hunit
      obtain ⟨hratio, hcounting, hpos⟩ := hunit
      refine hnot (Or.inl ⟨r, hr, threshold, hkind, Or.inr ⟨hratio, hpos, fun h => ?_⟩⟩)
      exact absurd h hcounting
    · rintro hall (⟨r, hr, threshold, hkind, hharm | ⟨hratio, hpos, hsem⟩⟩ | hinflated)
      · exact ((hall hvalid).1 r hr threshold hkind).1 hharm
      · rcases ((hall hvalid).1 r hr threshold hkind).2 with h | h | h
        · exact hratio h
        · exact hsem h (hcumulative r hr (isRateKind_of_mem hkind))
        · exact h hpos
      · exact (hall hvalid).2 hinflated
  · refine iff_of_true ?_ fun h => absurd h hvalid
    rintro ⟨a, ha, -⟩
    exact hvalid (validRequest_of_ok policy ha)

/-- One cumulative counter in a ratio, far above the drop threshold. -/
def cumulativeRatioRecords : List (Option EvidenceRecord) :=
  [some (linkObservation .dropCount
    { scalar := ⟨0x3FE0000000000000⟩, unit := .ratio, semantics := .cumulativeCounter }
    "agent1" 1)]

/-- The cumulative counter meets the assumptions and still confirms congestion. -/
theorem cumulative_ratio_confirms :
    ¬ ((∀ r ∈ usableImpairment linkRequest {} cumulativeRatioRecords, isRateKind r.kind = true →
        r.value.semantics = .cumulativeCounter) →
      ((latencySamples (usableImpairment linkRequest {} cumulativeRatioRecords) :
        List Double).filter fun value => 0 < value).length < 2 →
      ¬ Confirmed Double linkRequest {} cumulativeRatioRecords) := by
  intro hclaim
  have hlist : usableImpairment linkRequest {} cumulativeRatioRecords
      = [linkObservation .dropCount
          { scalar := ⟨0x3FE0000000000000⟩, unit := .ratio, semantics := .cumulativeCounter }
          "agent1" 1] := by decide +kernel
  refine hclaim (by decide +kernel) (by decide +kernel) ?_
  rw [confirmed_iff {} linkRequest_valid, hlist]
  refine Or.inl ⟨_, List.mem_singleton_self _, _, List.mem_cons_self, Or.inl ⟨rfl, ?_⟩⟩
  decide +kernel

/-- The result at a cumulative counter of packets. -/
theorem cumulative_never_confirms_packets :
    let records := [some (linkObservation .dropCount
      { scalar := ⟨0x3FF0000000000000⟩, unit := .packets, semantics := .cumulativeCounter }
      "agent1" 1)]
    (∀ r ∈ usableImpairment linkRequest {} records, isRateKind r.kind = true →
      r.value.semantics = .cumulativeCounter) ∧
    (¬ Confirmed Double linkRequest {} records ↔
      (ValidRequest linkRequest →
        (∀ r ∈ usableImpairment linkRequest {} records, ∀ threshold,
          (r.kind, threshold) ∈ rateThresholds {} → HarmlessUnit threshold r) ∧
        ¬ ReachesAlone {} (latencySamples (usableImpairment linkRequest {} records)))) :=
  ⟨by decide +kernel,
    cumulative_never_confirms_iff linkRequest {} _ (by decide +kernel) (by decide +kernel)⟩

end Confirmed

end CongestionObservatory
