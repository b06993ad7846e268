import CongestionObservatory.Proofs.Assessment.Decisive
import Mathlib.Algebra.Order.Field.Basic

/-!
# `CongestionObservatory.Proofs.Assessment.OrderIndependence`: the order of the records

Almost everything `classify_subject` computes is a count, a maximum or a sorted list, and does
not depend on the order of its records. The exception is in `assess_agreement`: it reads the
value semantics of the first record before it sorts. `comparableRecords_eq_of_perm` says when
that does no harm: the units differ anyway, or the group is uniformly cumulative or uniformly
not (`UniformGroup`).

`order_independent_iff` is the exact condition. A group with one unit that mixes cumulative and
other counters agrees or is incomparable, by which record comes first.
-/

set_option autoImplicit false

namespace CongestionObservatory

open Lib

/-! ### Folds that forget the order -/

theorem ite_gt_eq_max (v x : ℚ) : (if x > v then x else v) = max v x := by
  rw [max_def]
  split
  · rw [if_pos (le_of_lt ‹x > v›)]
  · split
    · exact le_antisymm ‹v ≤ x› (not_lt.mp ‹¬ x > v›)
    · rfl

/-- The maximum over the records that satisfy a condition. -/
theorem foldl_maxWhere_perm (p : EvidenceRecord → Prop) [DecidablePred p]
    {l l' : List EvidenceRecord} (h : l.Perm l') (v : ℚ) :
    l.foldl (fun value r => if p r ∧ r.scalar > value then r.scalar else value) v
      = l'.foldl (fun value r => if p r ∧ r.scalar > value then r.scalar else value) v := by
  have hstep : ∀ (value : ℚ) (r : EvidenceRecord),
      (if p r ∧ r.scalar > value then r.scalar else value)
        = if p r then max value r.scalar else value := by
    intro value r
    by_cases hp : p r
    · simp only [hp, true_and, if_true]
      exact ite_gt_eq_max value r.scalar
    · simp [hp]
  refine h.foldl_eq' (fun x _ y _ z => ?_) v
  simp only [hstep]
  by_cases hx : p x <;> by_cases hy : p y <;> simp [hx, hy, max_right_comm]

theorem maxRatio_eq_of_perm {l l' : List EvidenceRecord} (h : l.Perm l') :
    (maxRatio l : ℚ) = maxRatio l' :=
  foldl_maxWhere_perm (fun r => r.value.unit = .ratio) h 0

theorem maxOfKind_eq_of_perm {l l' : List EvidenceRecord} (h : l.Perm l') (kind : EvidenceKind) :
    (maxOfKind l kind : ℚ) = maxOfKind l' kind :=
  foldl_maxWhere_perm (fun r => r.kind = kind) h 0

theorem maxScalar_eq_of_perm {l l' : List EvidenceRecord} (h : l.Perm l') :
    (maxScalar l : ℚ) = maxScalar l' := by
  unfold maxScalar
  congr 1
  refine h.foldl_eq' (fun x _ y _ z => ?_) none
  have hmax : ∀ a b : ℚ, (if a > b then some a else some b) = some (max b a) := by
    intro a b
    rw [← ite_gt_eq_max]
    split <;> rfl
  cases z with
  | none =>
      simp only [hmax]
      rw [max_comm]
  | some v =>
      simp only [hmax]
      rw [max_right_comm]

/-- The loop of `observe_rate`, component by component. -/
theorem observe_foldl_eq (l : List EvidenceRecord) : ∀ o : RateObservation ℚ,
    l.foldl observeRecord o =
      { rate := l.foldl (fun value r =>
          if r.value.unit = .ratio ∧ r.scalar > value then r.scalar else value) o.rate
        unquantified := o.unquantified || l.any fun r => decide (r.value.unit ≠ .ratio)
          && decide (r.scalar > (0 : ℚ))
          && !(isCountingUnit r.value.unit && decide (r.value.semantics = .cumulativeCounter))
        counterWithoutDelta := o.counterWithoutDelta || l.any fun r =>
          decide (r.value.unit ≠ .ratio) && isCountingUnit r.value.unit
            && decide (r.value.semantics = .cumulativeCounter)
        observed := o.observed || l.any fun r => decide (r.scalar > (0 : ℚ))
          && (decide (r.value.unit = .ratio)
            || !(isCountingUnit r.value.unit
              && decide (r.value.semantics = .cumulativeCounter))) } := by
  induction l with
  | nil =>
      intro o
      simp
  | cons a rest ih =>
      intro o
      rw [List.foldl_cons, ih, List.foldl_cons]
      unfold observeRecord
      by_cases hunit : a.value.unit = .ratio
      · simp [hunit, isCountingUnit, Bool.or_assoc]
      · by_cases hcount : isCountingUnit a.value.unit = true
        · by_cases hsem : a.value.semantics = .cumulativeCounter
          · simp [hunit, hcount, hsem]
          · by_cases hpos : a.scalar > (0 : ℚ) <;> simp [hunit, hcount, hsem, hpos]
        · by_cases hpos : a.scalar > (0 : ℚ) <;> simp [hunit, hcount, hpos]

theorem observeRate_eq_of_perm {l l' : List EvidenceRecord} (h : l.Perm l') (kind : EvidenceKind) :
    (observeRate l kind : RateObservation ℚ) = observeRate l' kind := by
  unfold observeRate
  have hf := h.filter fun r => decide (r.kind = kind)
  rw [observe_foldl_eq, observe_foldl_eq,
    foldl_maxWhere_perm (fun r => r.value.unit = .ratio) hf, hf.any_eq, hf.any_eq, hf.any_eq]

theorem latencyRange_eq_of_perm {l l' : List ℚ} (h : l.Perm l') :
    latencyRange l = latencyRange l' := by
  obtain ⟨hcount, -, hrange⟩ := latencyRange_spec l
  obtain ⟨hcount', -, hrange'⟩ := latencyRange_spec l'
  have hnumber : ∀ q : ℚ, NumberOrder.IsNumber q := fun q => le_refl q
  cases l with
  | nil => rw [h.nil_eq]
  | cons x rest =>
      cases l' with
      | nil => exact absurd h.symm (List.not_perm_nil_cons _ _)
      | cons x' rest' =>
          obtain ⟨hlo, hhi, hall⟩ := hrange x rfl (hnumber x)
          obtain ⟨hlo', hhi', hall'⟩ := hrange' x' rfl (hnumber x')
          refine Prod.ext ?_ (Prod.ext ?_ ?_)
          · exact le_antisymm (hall _ (h.mem_iff.mpr hlo') (hnumber _)).1
              (hall' _ (h.mem_iff.mp hlo) (hnumber _)).1
          · exact le_antisymm (hall' _ (h.mem_iff.mp hhi) (hnumber _)).2
              (hall _ (h.mem_iff.mpr hhi') (hnumber _)).2
          · rw [hcount, hcount', h.length_eq]

theorem bestFreshness_right_comm (a b c : Freshness) :
    bestFreshness (bestFreshness a b) c = bestFreshness (bestFreshness a c) b := by
  cases a <;> cases b <;> cases c <;> rfl

/-! ### Agreement -/

/-- The semantics of the first record do not matter: the units differ, or all records are
cumulative counters, or none is. -/
def UniformGroup (group : List EvidenceRecord) : Prop :=
  (∃ a ∈ group, ∃ b ∈ group, a.value.unit ≠ b.value.unit) ∨
    (∀ r ∈ group, r.value.semantics = .cumulativeCounter) ∨
    ∀ r ∈ group, r.value.semantics ≠ .cumulativeCounter

theorem comparableRecords_cons (first : EvidenceRecord) (rest : List EvidenceRecord) :
    comparableRecords (first :: rest) = true ↔
      (∀ a ∈ first :: rest, ∀ b ∈ first :: rest, a.value.unit = b.value.unit) ∧
      (first.value.semantics = .cumulativeCounter → rest = []) := by
  have hunits : ((first :: rest).all fun r => r.value.unit == first.value.unit) = true ↔
      ∀ a ∈ first :: rest, ∀ b ∈ first :: rest, a.value.unit = b.value.unit := by
    rw [List.all_eq_true]
    constructor
    · intro h a ha b hb
      exact (eq_of_beq (h a ha)).trans (eq_of_beq (h b hb)).symm
    · intro h a ha
      exact beq_iff_eq.mpr (h a ha first List.mem_cons_self)
  have hlength : (first :: rest).length > 1 ↔ rest ≠ [] := by
    rw [List.length_cons]
    cases rest with
    | nil => simp
    | cons b rest => simp
  unfold comparableRecords
  dsimp only
  rw [Bool.and_eq_true, hunits]
  refine and_congr_right fun _ => ?_
  by_cases hsem : first.value.semantics = .cumulativeCounter
  · simp only [hsem, beq_self_eq_true, Bool.true_and, Bool.not_eq_true', decide_eq_false_iff_not,
      hlength, not_not, true_implies]
  · simp [hsem]

/-- In a uniform group every order is comparable, or none. -/
theorem comparableRecords_eq_of_perm {l l' : List EvidenceRecord} (h : l.Perm l')
    (huniform : UniformGroup l) : comparableRecords l = comparableRecords l' := by
  cases l with
  | nil => rw [h.nil_eq]
  | cons first rest =>
      cases l' with
      | nil => exact absurd h.symm (List.not_perm_nil_cons _ _)
      | cons first' rest' =>
          rw [Bool.eq_iff_iff, comparableRecords_cons, comparableRecords_cons]
          have hunits : (∀ a ∈ first :: rest, ∀ b ∈ first :: rest, a.value.unit = b.value.unit) ↔
              ∀ a ∈ first' :: rest', ∀ b ∈ first' :: rest', a.value.unit = b.value.unit := by
            simp only [h.mem_iff]
          have hrest : rest = [] ↔ rest' = [] := by
            have hlen := h.length_eq
            rw [List.length_cons, List.length_cons] at hlen
            rw [← List.length_eq_zero_iff, ← List.length_eq_zero_iff]
            omega
          rcases huniform with ⟨a, ha, b, hb, hne⟩ | hall | hnone
          · refine iff_of_false (fun hc => hne (hc.1 a ha b hb)) fun hc => hne ?_
            exact hc.1 a (h.mem_iff.mp ha) b (h.mem_iff.mp hb)
          · have h1 := hall first List.mem_cons_self
            have h2 := hall first' (h.mem_iff.mpr List.mem_cons_self)
            rw [hunits, h1, h2, hrest]
          · have h1 := hnone first List.mem_cons_self
            have h2 := hnone first' (h.mem_iff.mpr List.mem_cons_self)
            rw [hunits]
            simp [h1, h2]

/-- The fields of a position in the order the sort compares them. -/
def Position.sortKey (p : Position ℚ) : ℚ ×ₗ Name ×ₗ EvidenceId :=
  toLex (p.scalar, toLex (p.source, p.id))

theorem Position.sortKey_injective : Function.Injective Position.sortKey := by
  rintro ⟨a, b, c⟩ ⟨a', b', c'⟩ h
  cases h
  rfl

/-- The exact positions are ordered by the comparison of the sort. -/
instance : LinearOrder (Position ℚ) :=
  LinearOrder.lift' Position.sortKey Position.sortKey_injective

theorem Position.precedes_iff (p q : Position ℚ) : q.precedes p = true ↔ q < p := by
  show _ ↔ q.sortKey < p.sortKey
  unfold Position.precedes Position.sortKey
  rw [Prod.Lex.toLex_lt_toLex, Prod.Lex.toLex_lt_toLex]
  by_cases hscalar : q.scalar = p.scalar
  · rw [if_neg (not_not.mpr ⟨hscalar.le, hscalar.ge⟩)]
    by_cases hsource : q.source = p.source
    · simp [hscalar, hsource]
    · simp [hscalar, hsource]
  · rw [if_pos fun h => hscalar (le_antisymm h.1 h.2)]
    simp [hscalar]

/-- The exact positions are sorted in ascending order. -/
theorem orderedPositions_eq (records : List EvidenceRecord) :
    (orderedPositions records : List (Position ℚ))
      = (records.map EvidenceRecord.position).insertionSort (· ≤ ·) := by
  unfold orderedPositions
  congr 1
  funext p q
  rw [← Bool.not_eq_true, Position.precedes_iff, not_lt]

/-- Beyond the comparability test, the agreement is computed from the sorted positions. -/
theorem assessAgreement_eq_of_perm {l l' : List EvidenceRecord} (h : l.Perm l')
    (hcomparable : comparableRecords l = comparableRecords l') (tolerance : ℚ)
    (maxCitations : Nat) :
    assessAgreement l tolerance maxCitations = assessAgreement l' tolerance maxCitations := by
  have hsorted : (orderedPositions l : List (Position ℚ)) = orderedPositions l' := by
    rw [orderedPositions_eq, orderedPositions_eq]
    exact insertionSort_eq_of_perm (h.map EvidenceRecord.position)
  have hnil : l = [] ↔ l' = [] :=
    ⟨fun heq => by rw [heq] at h; exact h.nil_eq.symm, fun heq => by rw [heq] at h; exact h.eq_nil⟩
  unfold assessAgreement
  rw [hsorted, hcomparable, h.length_eq]
  simp only [hnil]

/-- A group is reported as incomparable exactly when the test says so. -/
theorem groupAgreement_incomparable_iff (α : Type) [Arithmetic α] (request : ClassificationRequest)
    (policy : ClassificationPolicy) (group : List EvidenceRecord) :
    groupAgreement α request policy group = .incomparable ↔
      group ≠ [] ∧ comparableRecords group = false := by
  unfold groupAgreement assessAgreement
  by_cases hnil : group = []
  · simp [hnil]
  · rw [if_neg hnil]
    dsimp only
    by_cases hc : comparableRecords group = true
    · rw [if_neg (by simp [hc])]
      refine iff_of_false ?_ (by simp [hc])
      split
      · exact Agreement.noConfusion
      split
      · exact Agreement.noConfusion
      split
      · exact Agreement.noConfusion
      · exact Agreement.noConfusion
    · rw [if_pos (by simp [hc])]
      exact iff_of_true rfl ⟨hnil, by simpa using hc⟩

/-! ### The features -/

section Features

variable (request : ClassificationRequest) (policy : ClassificationPolicy)
  {records records' : List (Option EvidenceRecord)}

theorem recordsInWindow_perm (h : records.Perm records') :
    (recordsInWindow request records).Perm (recordsInWindow request records') :=
  (h.filterMap id).filter _

theorem matchingRecords_perm (h : records.Perm records') :
    (matchingRecords request records).Perm (matchingRecords request records') :=
  (recordsInWindow_perm request h).filter _

theorem usableRecords_perm (h : records.Perm records') :
    (usableRecords request policy records).Perm (usableRecords request policy records') :=
  (matchingRecords_perm request h).filter _

theorem usableOfRole_perm (h : records.Perm records') (role : EvidenceRole) :
    (usableOfRole request policy records role).Perm (usableOfRole request policy records' role) :=
  (usableRecords_perm request policy h).filter _

theorem roleFreshness_eq_of_perm (h : records.Perm records') (role : EvidenceRole) :
    roleFreshness request policy records role = roleFreshness request policy records' role := by
  unfold roleFreshness
  refine ((matchingRecords_perm request h).filter _).foldl_eq' (fun x _ y _ z => ?_) Freshness.unknown
  exact bestFreshness_right_comm _ _ _

theorem seenNotFresh_eq_of_perm (h : records.Perm records') (role : EvidenceRole) :
    seenNotFresh request policy records role = seenNotFresh request policy records' role :=
  (matchingRecords_perm request h).any_eq

theorem isEmpty_eq_of_perm {l l' : List EvidenceRecord} (h : l.Perm l') :
    l.isEmpty = l'.isEmpty := by
  rw [Bool.eq_iff_iff, List.isEmpty_iff, List.isEmpty_iff]
  exact ⟨fun heq => by rw [heq] at h; exact h.nil_eq.symm,
    fun heq => by rw [heq] at h; exact h.eq_nil⟩

theorem impairmentFeatures_eq_of_perm {group group' : List EvidenceRecord}
    (h : group.Perm group')
    (hagree : groupAgreement ℚ request policy group = groupAgreement ℚ request policy group')
    (features : FeatureSnapshot ℚ) :
    impairmentFeatures request policy group features
      = impairmentFeatures request policy group' features := by
  have hnil : group = [] ↔ group' = [] :=
    ⟨fun heq => by rw [heq] at h; exact h.nil_eq.symm, fun heq => by rw [heq] at h; exact h.eq_nil⟩
  have hsamples : (latencySamples group : List ℚ).Perm (latencySamples group') :=
    ((h.filter _).map _).filter _
  unfold impairmentFeatures
  rw [observeRate_eq_of_perm h, observeRate_eq_of_perm h, observeRate_eq_of_perm h,
    observeRate_eq_of_perm h, latencyRange_eq_of_perm hsamples, hagree]
  simp only [hnil]

/-- The four roles whose agreement is assessed. -/
def agreementRoles : List EvidenceRole := [.utilization, .pressure, .demand, .impairment]

/-- The features of permuted records are equal when the four agreements are. -/
theorem extractFeatures_eq_of_perm (h : records.Perm records')
    (hagree : ∀ role ∈ agreementRoles,
      groupAgreement ℚ request policy (usableOfRole request policy records role)
        = groupAgreement ℚ request policy (usableOfRole request policy records' role)) :
    extractFeatures ℚ request records policy = extractFeatures ℚ request records' policy := by
  have hwindow := recordsInWindow_perm request h
  have husable := usableRecords_perm request policy h
  have hgroup := fun role => usableOfRole_perm request policy h role
  have hu := hagree .utilization (by simp [agreementRoles])
  have hp := hagree .pressure (by simp [agreementRoles])
  have hd := hagree .demand (by simp [agreementRoles])
  have hi := hagree .impairment (by simp [agreementRoles])
  unfold extractFeatures
  dsimp only
  rw [impairmentFeatures_eq_of_perm request policy (hgroup .impairment) hi]
  congr 1
  simp only [h.length_eq, hwindow.length_eq, hwindow.countP_eq, hwindow.any_eq,
    sortUnique_eq_of_perm (husable.map _), isEmpty_eq_of_perm husable,
    isEmpty_eq_of_perm (hgroup _), maxScalar_eq_of_perm (hgroup _),
    maxRatio_eq_of_perm (hgroup _), maxOfKind_eq_of_perm (hgroup _), anyRatioUnit,
    (hgroup _).any_eq, seenNotFresh_eq_of_perm request policy h,
    roleFreshness_eq_of_perm request policy h, hu, hp, hd]

theorem collectCitations_eq_of_perm (h : records.Perm records') :
    collectCitations request policy records = collectCitations request policy records' := by
  unfold collectCitations
  dsimp only
  rw [sortUnique_eq_of_perm]
  refine List.Perm.map _ ?_
  exact List.Perm.flatMap_left _ fun role _ => usableOfRole_perm request policy h role

end Features

/-! ### The rules keep the features -/

namespace RuleEngine

variable {α : Type} [Arithmetic α] (e : RuleEngine α)

@[simp] theorem step_features (ruleId decision reasonCode : String) (a : CongestionAssessment α) :
    (e.step ruleId decision reasonCode a).features = a.features := by
  unfold step
  split <;> rfl

@[simp] theorem block_features (code detail : Text) (a : CongestionAssessment α) :
    (block code detail a).features = a.features := by
  unfold block
  split
  · rfl
  · split <;> rfl

@[simp] theorem ite_features (c : Prop) [Decidable c] (x y : CongestionAssessment α) :
    (if c then x else y).features = if c then x.features else y.features := by
  split <;> rfl

theorem collectConflictBlockers_features (a : CongestionAssessment α) :
    (e.collectConflictBlockers a).features = a.features := by
  unfold collectConflictBlockers
  simp only [List.foldl_cons, List.foldl_nil, ite_features, block_features, step_features,
    ite_self]

theorem rulesFromSaturation_features (a : CongestionAssessment α) :
    (e.rulesFromSaturation a).features = a.features := by
  unfold rulesFromSaturation rulesFromContention
  simp only [ite_features, block_features, step_features, ite_self]

theorem rulesFromFreshness_features (a : CongestionAssessment α) :
    (e.rulesFromFreshness a).features = a.features := by
  unfold rulesFromFreshness rulesFromImpairment
  simp only [ite_features, block_features, step_features, collectConflictBlockers_features,
    rulesFromSaturation_features, ite_self]

theorem assessRules_features (a : CongestionAssessment α) :
    (e.assessRules a).features = a.features := by
  unfold assessRules rulesFromGeneration rulesFromSupport
  simp only [ite_features, block_features, step_features, rulesFromFreshness_features, ite_self]

theorem run_features (citations : List EvidenceId) : (e.run citations).features = e.features := by
  unfold run finalize
  simp only [ite_features, block_features, collectConflictBlockers_features, assessRules_features,
    ite_self]

end RuleEngine

/-! ### Order independence -/

/-- What a classification reports: the verdict with its mechanisms, severity and confidence,
the agreement values, the blockers, the citations and the sources. -/
structure ReportedOutputs where
  verdict : Verdict
  mechanisms : MechanismSet
  severity : Severity
  confidence : Nat
  agreements : List Agreement
  blockers : List Blocker
  citations : List EvidenceId
  sources : List SourceId
  deriving DecidableEq

/-- The reported part of an assessment. The agreement values are those of utilization,
pressure, demand and impairment, and the deciding one. -/
def CongestionAssessment.reported {α : Type} [Arithmetic α] (a : CongestionAssessment α) : ReportedOutputs :=
  { verdict := a.verdict
    mechanisms := a.mechanisms
    severity := a.severity
    confidence := a.confidence
    agreements := [a.features.utilizationAgreement, a.features.pressureAgreement,
      a.features.demandAgreement, a.features.impairmentAgreement, a.decidingAgreement]
    blockers := a.blockers
    citations := a.citations
    sources := a.sources }

/-- Every permutation of the records is reported the same. -/
def OrderIndependent (request : ClassificationRequest) (policy : ClassificationPolicy)
    (records : List (Option EvidenceRecord)) : Prop :=
  ∀ records', records.Perm records' →
    (classifySubject ℚ request records' policy).map CongestionAssessment.reported
      = (classifySubject ℚ request records policy).map CongestionAssessment.reported

section OrderIndependent

variable {α : Type} [Arithmetic α] {request : ClassificationRequest}
  {policy : ClassificationPolicy} {records records' : List (Option EvidenceRecord)}

/-- The agreement of one role in the features. -/
def roleAgreement (features : FeatureSnapshot α) : EvidenceRole → Agreement
  | .utilization => features.utilizationAgreement
  | .pressure => features.pressureAgreement
  | .demand => features.demandAgreement
  | .impairment => features.impairmentAgreement
  | _ => .unknown

theorem features_agreement {role : EvidenceRole} (hrole : role ∈ agreementRoles) :
    roleAgreement (extractFeatures α request records policy) role
      = groupAgreement α request policy (usableOfRole request policy records role) := by
  have hnil : groupAgreement α request policy [] = .unknown := rfl
  simp only [agreementRoles, List.mem_cons, List.not_mem_nil, or_false] at hrole
  unfold extractFeatures impairmentFeatures
  rcases hrole with rfl | rfl | rfl | rfl
  · dsimp only
    split <;> rfl
  · dsimp only
    split <;> rfl
  · dsimp only
    split <;> rfl
  · dsimp only
    split
    · rename_i hempty
      rw [hempty, hnil]
      rfl
    · rfl

/-- Equal reports have equal agreements in each role. -/
theorem agreement_eq_of_reported (hvalid : ValidRequest request)
    (h : (classifySubject ℚ request records' policy).map CongestionAssessment.reported
      = (classifySubject ℚ request records policy).map CongestionAssessment.reported)
    (role : EvidenceRole) (hrole : role ∈ agreementRoles) :
    groupAgreement ℚ request policy (usableOfRole request policy records' role)
      = groupAgreement ℚ request policy (usableOfRole request policy records role) := by
  rw [classifySubject_valid policy hvalid, classifySubject_valid policy hvalid] at h
  have hagreements := congrArg ReportedOutputs.agreements (Except.ok.inj h)
  simp only [CongestionAssessment.reported, RuleEngine.run_features, engineOf, List.cons.injEq]
    at hagreements
  obtain ⟨hu, hp, hd, hi, -⟩ := hagreements
  rw [← features_agreement hrole, ← features_agreement hrole]
  simp only [agreementRoles, List.mem_cons, List.not_mem_nil, or_false] at hrole
  rcases hrole with rfl | rfl | rfl | rfl
  · exact hu
  · exact hp
  · exact hd
  · exact hi

/-- A usable record of a role, moved to the front, comes first in its group. -/
theorem usableOfRole_front {role : EvidenceRole} {r : EvidenceRecord}
    (hr : r ∈ usableOfRole request policy records role) :
    ∃ records', records.Perm records' ∧
      ∃ rest, usableOfRole request policy records' role = r :: rest := by
  have hmem : some r ∈ records := by
    have h := (List.mem_filter.mp (List.mem_filter.mp (List.mem_filter.mp
      (List.mem_filter.mp hr).1).1).1).1
    simpa using h
  refine ⟨some r :: records.erase (some r), List.perm_cons_erase hmem,
    usableOfRole request policy (records.erase (some r)) role, ?_⟩
  -- The record passes the four filters that select the group.
  obtain ⟨h3, hrole⟩ := List.mem_filter.mp hr
  obtain ⟨h2, hdeciding⟩ := List.mem_filter.mp h3
  obtain ⟨h1, hgen⟩ := List.mem_filter.mp h2
  obtain ⟨-, hsubject⟩ := List.mem_filter.mp h1
  unfold usableOfRole usableRecords matchingRecords recordsInWindow
  simp only [List.filterMap_cons, id, List.filter_cons, hsubject, hgen, hdeciding, hrole, if_true]

/-- `classify_subject` reports every permutation of its records the same exactly when it
refuses the request, or each of the four groups of usable records (utilization, pressure,
demand, impairment) has differing units, only cumulative counters, or none. -/
theorem order_independent_iff (request : ClassificationRequest) (policy : ClassificationPolicy)
    (records : List (Option EvidenceRecord)) :
    OrderIndependent request policy records ↔
      (ValidRequest request → ∀ role ∈ agreementRoles,
        UniformGroup (usableOfRole request policy records role)) := by
  constructor
  · intro hindependent hvalid role hrole
    by_contra hmixed
    unfold UniformGroup at hmixed
    simp only [not_or, not_exists, not_and, not_not, not_forall] at hmixed
    obtain ⟨hunits, ⟨n, hn, hnot⟩, ⟨c, hc, hcumulative⟩⟩ := hmixed
    -- One order puts the cumulative counter first, another the other record.
    obtain ⟨recordsC, hpermC, restC, hgroupC⟩ := usableOfRole_front hc
    obtain ⟨recordsN, hpermN, restN, hgroupN⟩ := usableOfRole_front hn
    have hgC := usableOfRole_perm request policy hpermC role
    have hgN := usableOfRole_perm request policy hpermN role
    have hC := agreement_eq_of_reported hvalid (hindependent _ hpermC) role hrole
    have hN := agreement_eq_of_reported hvalid (hindependent _ hpermN) role hrole
    rw [hgroupC] at hC hgC
    rw [hgroupN] at hN hgN
    have hincomparable : groupAgreement ℚ request policy (c :: restC) = .incomparable := by
      refine (groupAgreement_incomparable_iff ℚ _ _ _).mpr ⟨List.cons_ne_nil _ _, ?_⟩
      rw [Bool.eq_false_iff]
      intro hcomparable
      have hrest := ((comparableRecords_cons c restC).mp hcomparable).2 hcumulative
      rw [hrest] at hgC
      have hnc : n = c := by simpa using hgC.mem_iff.mp hn
      rw [hnc] at hnot
      exact hnot hcumulative
    have hcomparable : groupAgreement ℚ request policy (n :: restN) ≠ .incomparable := by
      rw [Ne, groupAgreement_incomparable_iff]
      rintro ⟨-, hfalse⟩
      have htrue : comparableRecords (n :: restN) = true := by
        refine (comparableRecords_cons n restN).mpr ⟨fun a ha b hb => ?_, fun h => absurd h hnot⟩
        exact hunits a (hgN.mem_iff.mpr ha) b (hgN.mem_iff.mpr hb)
      rw [htrue] at hfalse
      cases hfalse
    exact hcomparable (hN.trans (hC.symm.trans hincomparable))
  · intro huniform records' hperm
    by_cases hvalid : ValidRequest request
    · rw [classifySubject_valid policy hvalid, classifySubject_valid policy hvalid]
      have hagree : ∀ role ∈ agreementRoles,
          groupAgreement ℚ request policy (usableOfRole request policy records role)
            = groupAgreement ℚ request policy (usableOfRole request policy records' role) := by
        intro role hrole
        have hgroup := usableOfRole_perm request policy hperm role
        have hcomparable := comparableRecords_eq_of_perm hgroup (huniform hvalid role hrole)
        unfold groupAgreement
        rw [assessAgreement_eq_of_perm hgroup hcomparable]
      unfold engineOf
      rw [extractFeatures_eq_of_perm request policy hperm hagree,
        collectCitations_eq_of_perm request policy hperm]
    · -- A refused request is refused before the records are looked at.
      unfold classifySubject
      by_cases hsubject : request.subject.valid = true
      · have hwindow : request.windowEnd < request.windowStart :=
          not_le.mp fun hle => hvalid ⟨hsubject, hle⟩
        simp [failIf, hsubject, hwindow, bind, Except.bind]
      · simp [failIf, hsubject, bind, Except.bind]

/-- Two drop counters of one source, the second of them cumulative. -/
def mixedCounterRecords : List (Option EvidenceRecord) :=
  [some (linkObservation .dropCount
    { scalar := ⟨0x3FF0000000000000⟩, unit := .packets, semantics := .deltaCounter } "agent1" 1),
   some (linkObservation .dropCount
    { scalar := ⟨0x3FF0000000000000⟩, unit := .packets, semantics := .cumulativeCounter }
    "agent1" 2)]

/-- The impairment agreement of the two counters is `single_source` in one order and
`incomparable` in the other. -/
theorem mixed_counters_depend_on_order :
    ¬ OrderIndependent linkRequest {} mixedCounterRecords := by
  intro hindependent
  have h := agreement_eq_of_reported linkRequest_valid
    (hindependent mixedCounterRecords.reverse (List.reverse_perm _).symm)
    .impairment (by decide)
  exact absurd h (by decide +kernel)

end OrderIndependent

end CongestionObservatory
