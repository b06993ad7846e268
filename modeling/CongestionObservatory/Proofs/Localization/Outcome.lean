import CongestionObservatory.Lib.Sort
import CongestionObservatory.Proofs.Localization.Conclusion

/-!
# `CongestionObservatory.Proofs.Localization.Outcome`: what the outcome says

The candidates are ranked, cut to the budget and only then filtered and compared. The filter keeps
the first of the ranking, so what qualifies are the first of all candidates that would
(`qualifying_eq`). `outcome_means_iff` says when the outcome is right about all of those: when the
budget has room for every candidate close to the best one.

The blocker of a search that was cut is added after the exit for no candidate
(`depth_blocked_iff`).
-/

set_option autoImplicit false

namespace CongestionObservatory

open Lib

/-- The scores of the pool that reach the minimum. -/
def qualifiedPool (request : LocalizationRequest) (assessment : CongestionAssessment)
    (graph : CausalGraph) (records : List (Option EvidenceRecord)) (policy : ClassificationPolicy)
    (localizationPolicy : LocalizationPolicy) (limits : Limits) : List NodeScore :=
  (candidatePool request assessment graph records policy localizationPolicy limits).filter
    fun candidate => candidate.score ≥ localizationPolicy.minimumCandidateScore

/-- The score is less than the margin below every other one, so below the best one. -/
def NearBest (margin : Nat) (qualified : List NodeScore) (candidate : NodeScore) : Prop :=
  ∀ other ∈ qualified, other.score - candidate.score < margin

instance (margin : Nat) (qualified : List NodeScore) :
    DecidablePred (NearBest margin qualified) := fun candidate =>
  inferInstanceAs (Decidable (∀ other ∈ qualified, other.score - candidate.score < margin))

/-- The candidates close to the best one. -/
def nearBest (margin : Nat) (qualified : List NodeScore) : List NodeScore :=
  qualified.filter fun candidate => NearBest margin qualified candidate

theorem mem_nearBest_iff {margin : Nat} {qualified : List NodeScore} {q : NodeScore} :
    q ∈ nearBest margin qualified ↔ q ∈ qualified ∧ NearBest margin qualified q := by
  rw [nearBest, List.mem_filter, decide_eq_true_iff]

/-- The outcome is right about all candidates that qualify. -/
structure OutcomeMeans (margin : Nat) (qualified : List NodeScore) (outcome : LocalizationOutcome)
    (candidates : List LocalizationCandidate) : Prop where
  localized : outcome = .localized → ∃ first, candidates.head? = some first ∧
    ∀ q ∈ qualified, q.subject ≠ first.subject → q.score + margin ≤ first.score
  ambiguous : outcome = .ambiguous → ∀ q ∈ qualified, NearBest margin qualified q →
    ∃ c ∈ candidates, c.subject = q.subject
  unlocalized : outcome = .unlocalized → qualified = []

/-! ### The cut -/

/-- The score decides the ranking before the subject does. -/
theorem score_le_of_rankKey_le {a b : NodeScore} (h : rankKey a ≤ rankKey b) :
    b.score ≤ a.score := by
  rcases Prod.Lex.le_iff.mp h with hlt | ⟨heq, -⟩
  · exact (OrderDual.toDual_lt_toDual.mp hlt).le
  · exact (OrderDual.toDual_inj.mp heq).ge

/-- The candidates that qualify, in their order, before the cut. -/
def rankedQualified (localizationPolicy : LocalizationPolicy) (pool : List NodeScore) :
    List NodeScore :=
  (pool.insertionSort fun lhs rhs => rankKey lhs ≤ rankKey rhs).filter
    fun candidate => candidate.score ≥ localizationPolicy.minimumCandidateScore

section

variable {localizationPolicy : LocalizationPolicy} {limits : Limits}

theorem rankedQualified_perm (pool : List NodeScore) :
    (rankedQualified localizationPolicy pool).Perm
      (pool.filter fun c => c.score ≥ localizationPolicy.minimumCandidateScore) :=
  (List.perm_insertionSort _ pool).filter _

theorem rankedQualified_sorted (pool : List NodeScore) :
    (rankedQualified localizationPolicy pool).Pairwise fun a b => b.score ≤ a.score :=
  ((pairwise_insertionSort_key rankKey pool).imp fun h => score_le_of_rankKey_le h).filter _

/-- Cutting before the filter leaves the first of those that qualify. -/
theorem qualifying_eq (budget : Nat) (pool : List NodeScore) :
    qualifying localizationPolicy budget pool
      = (rankedQualified localizationPolicy pool).take budget := by
  -- In the ranking whatever qualifies comes before what does not, so the cut and the filter
  -- commute.
  refine filter_take_of_pairwise ?_ budget
  refine (pairwise_insertionSort_key rankKey pool).imp fun {a b} hab hb => ?_
  have hle := score_le_of_rankKey_le hab
  simp only [decide_eq_true_eq] at hb ⊢
  exact hb.trans hle

/-- Nothing qualifies when nothing could, or when no candidate may be kept. -/
theorem qualifying_eq_nil_iff (budget : Nat) (pool : List NodeScore) :
    qualifying localizationPolicy budget pool = [] ↔ budget = 0 ∨
      pool.filter (fun c => c.score ≥ localizationPolicy.minimumCandidateScore) = [] := by
  rw [qualifying_eq, List.take_eq_nil_iff]
  refine or_congr_right ?_
  rw [← List.length_eq_zero_iff, (rankedQualified_perm pool).length_eq, List.length_eq_zero_iff]

/-! ### The outcome of a ranking -/

section Ranking

variable {first : NodeScore} {rest : List NodeScore}

/-- The first candidate of a ranking is the best one. -/
theorem nearBest_iff (hsorted : (first :: rest).Pairwise fun a b => b.score ≤ a.score)
    {margin : Nat} {q : NodeScore} :
    NearBest margin (first :: rest) q ↔ first.score - q.score < margin := by
  constructor
  · exact fun hnear => hnear first List.mem_cons_self
  · intro hfirst other hother
    rcases List.mem_cons.mp hother with rfl | hother
    · exact hfirst
    · have hle := (List.pairwise_cons.mp hsorted).1 other hother
      omega

/-- How many candidates are near the best one, when no other one is. -/
theorem length_nearBest_le_one (hsorted : (first :: rest).Pairwise fun a b => b.score ≤ a.score)
    {margin : Nat} (hfar : ∀ q ∈ rest, q.score + margin ≤ first.score) :
    (nearBest margin (first :: rest)).length ≤ 1 := by
  have hnone : rest.filter (fun q => decide (NearBest margin (first :: rest) q)) = [] := by
    refine List.filter_eq_nil_iff.mpr fun q hq hnear => ?_
    have hlt := (nearBest_iff hsorted).mp (decide_eq_true_eq.mp hnear)
    have hle := hfar q hq
    omega
  rw [nearBest, List.filter_cons, hnone]
  split <;> simp

/-- Where the best candidate has room and the next one does not end an ambiguity, the others are
far from it exactly when there is room for all near ones. -/
theorem far_iff_length_le (hsorted : (first :: rest).Pairwise fun a b => b.score ≤ a.score)
    {budget : Nat} (hbudget : 1 ≤ budget)
    (hclear : isAmbiguous localizationPolicy ((first :: rest).take budget) = false) :
    (∀ q ∈ rest, q.score + localizationPolicy.ambiguityMargin ≤ first.score) ↔
      (nearBest localizationPolicy.ambiguityMargin (first :: rest)).length ≤ budget := by
  obtain ⟨hbest, hrest⟩ := List.pairwise_cons.mp hsorted
  constructor
  · exact fun hfar => (length_nearBest_le_one hsorted hfar).trans hbudget
  · intro hcount q hq
    cases rest with
    | nil => cases hq
    | cons second others =>
        have hsecond := hbest second List.mem_cons_self
        have hsort : q.score ≤ second.score := by
          rcases List.mem_cons.mp hq with rfl | hq
          · exact le_refl _
          · exact (List.pairwise_cons.mp hrest).1 q hq
        obtain ⟨b, rfl⟩ := Nat.exists_eq_add_of_le' hbudget
        cases b with
        | zero =>
            -- Only one candidate is kept, so at most one is near.
            by_contra hnear
            have hfirst : NearBest localizationPolicy.ambiguityMargin
                (first :: second :: others) first := (nearBest_iff hsorted).mpr (by omega)
            have hnext : NearBest localizationPolicy.ambiguityMargin
                (first :: second :: others) second := (nearBest_iff hsorted).mpr (by omega)
            rw [nearBest, List.filter_cons, if_pos (decide_eq_true hfirst), List.filter_cons,
              if_pos (decide_eq_true hnext), List.length_cons, List.length_cons] at hcount
            omega
        | succ b =>
            -- The next candidate is kept as well and was compared.
            have hfar : ¬ first.score - second.score < localizationPolicy.ambiguityMargin := by
              simpa [isAmbiguous] using hclear
            omega

theorem take_cons_of_pos {budget : Nat} (hbudget : 1 ≤ budget) :
    (first :: rest).take budget = first :: rest.take (budget - 1) := by
  obtain ⟨b, rfl⟩ := Nat.exists_eq_add_of_le' hbudget
  rfl

/-- An unambiguous cut names the best candidate, which is right exactly when the others are far. -/
theorem outcomeMeans_unambiguous_iff (hsorted : (first :: rest).Pairwise fun a b => b.score ≤ a.score)
    (hnodup : ((first :: rest).map NodeScore.subject).Nodup) {budget : Nat} (hbudget : 1 ≤ budget)
    (hclear : isAmbiguous localizationPolicy ((first :: rest).take budget) = false) :
    OutcomeMeans localizationPolicy.ambiguityMargin (first :: rest)
        (outcomeOf localizationPolicy ((first :: rest).take budget))
        ((reported localizationPolicy ((first :: rest).take budget)).map (toCandidate limits)) ↔
      (nearBest localizationPolicy.ambiguityMargin (first :: rest)).length ≤ budget := by
  have htake := @take_cons_of_pos first rest budget hbudget
  have houtcome : outcomeOf localizationPolicy ((first :: rest).take budget) = .localized := by
    rw [outcomeOf, if_neg (by simp [htake]), hclear]
    rfl
  have hreported : reported localizationPolicy ((first :: rest).take budget)
      = first :: rest.take (budget - 1) := by
    rw [reported, hclear, htake]
    rfl
  rw [houtcome, hreported, ← far_iff_length_le hsorted hbudget hclear]
  -- Each subject has one score, so "another subject" is another place in the ranking.
  have hothers : ∀ q ∈ rest, q.subject ≠ first.subject := by
    intro q hq hsame
    exact (List.nodup_cons.mp hnodup).1 (hsame ▸ List.mem_map_of_mem hq)
  constructor
  · intro h q hq
    obtain ⟨c, hc, hfar⟩ := h.localized rfl
    cases hc
    exact hfar q (List.mem_cons_of_mem _ hq) (hothers q hq)
  · intro hfar
    refine ⟨fun _ => ⟨toCandidate limits first, rfl, fun q hq hdiffers => ?_⟩,
      (fun h => by cases h), (fun h => by cases h)⟩
    rcases List.mem_cons.mp hq with rfl | hq
    · exact absurd rfl hdiffers
    · exact hfar q hq

/-- The near candidates come first, so a cut with room for all of them leaves all of them. -/
theorem mem_take_of_nearBest (hsorted : (first :: rest).Pairwise fun a b => b.score ≤ a.score)
    {margin budget : Nat} (hcount : (nearBest margin (first :: rest)).length ≤ budget)
    {q : NodeScore} (hq : q ∈ nearBest margin (first :: rest)) :
    q ∈ (first :: rest).take budget := by
  -- The scores fall along the ranking, so one that is near has only near ones before it.
  have hprefix : (first :: rest).Pairwise fun a b =>
      decide (NearBest margin (first :: rest) b) = true →
        decide (NearBest margin (first :: rest) a) = true := by
    refine hsorted.imp fun {a b} hab hb => ?_
    rw [decide_eq_true_eq, nearBest_iff hsorted] at hb ⊢
    omega
  have hall : ((first :: rest).take budget).filter (fun c =>
      decide (NearBest margin (first :: rest) c)) = nearBest margin (first :: rest) :=
    (filter_take_of_pairwise hprefix budget).trans (List.take_of_length_le hcount)
  rw [← hall] at hq
  exact (List.mem_filter.mp hq).1

/-- An ambiguous cut names its near candidates, which is right exactly when it leaves all of
them. -/
theorem outcomeMeans_ambiguous_iff (hsorted : (first :: rest).Pairwise fun a b => b.score ≤ a.score)
    (hnodup : ((first :: rest).map NodeScore.subject).Nodup) {budget : Nat} (hbudget : 1 ≤ budget)
    (hambiguous : isAmbiguous localizationPolicy ((first :: rest).take budget) = true) :
    OutcomeMeans localizationPolicy.ambiguityMargin (first :: rest)
        (outcomeOf localizationPolicy ((first :: rest).take budget))
        ((reported localizationPolicy ((first :: rest).take budget)).map (toCandidate limits)) ↔
      (nearBest localizationPolicy.ambiguityMargin (first :: rest)).length ≤ budget := by
  have htake := @take_cons_of_pos first rest budget hbudget
  have houtcome : outcomeOf localizationPolicy ((first :: rest).take budget) = .ambiguous := by
    rw [outcomeOf, if_neg (by simp [htake]), hambiguous]
    rfl
  have hreported : ∀ q, q ∈ reported localizationPolicy ((first :: rest).take budget) ↔
      q ∈ (first :: rest).take budget ∧
        NearBest localizationPolicy.ambiguityMargin (first :: rest) q := by
    intro q
    rw [reported, hambiguous, if_pos rfl, List.mem_filter, nearBest_iff hsorted, htake]
    exact and_congr_right fun _ => decide_eq_true_iff
  rw [houtcome]
  constructor
  · intro h
    -- The subjects of the near candidates are among those of the kept ones.
    have hsub : (nearBest localizationPolicy.ambiguityMargin (first :: rest)).map
        NodeScore.subject ⊆ ((first :: rest).take budget).map NodeScore.subject := by
      intro subject hsubject
      obtain ⟨q, hq, rfl⟩ := List.mem_map.mp hsubject
      obtain ⟨hmem, hnear⟩ := mem_nearBest_iff.mp hq
      obtain ⟨c, hc, hsame⟩ := h.ambiguous rfl q hmem hnear
      obtain ⟨kept, hkept, rfl⟩ := List.mem_map.mp hc
      exact hsame ▸ List.mem_map_of_mem ((hreported kept).mp hkept).1
    have hdistinct : ((nearBest localizationPolicy.ambiguityMargin (first :: rest)).map
        NodeScore.subject).Nodup := hnodup.sublist (List.filter_sublist.map _)
    have hle := (List.subperm_of_subset hdistinct hsub).length_le
    rw [List.length_map, List.length_map] at hle
    exact hle.trans (List.length_take_le _ _)
  · intro hcount
    refine ⟨(fun h => by cases h), fun _ q hq hnear => ?_, (fun h => by cases h)⟩
    have hkept := mem_take_of_nearBest hsorted hcount (mem_nearBest_iff.mpr ⟨hq, hnear⟩)
    exact ⟨toCandidate limits q, List.mem_map_of_mem ((hreported q).mpr ⟨hkept, hnear⟩), rfl⟩

end Ranking

/-- The outcome of a cut ranking is right about the whole ranking exactly when the budget has room
for every candidate near the best one. -/
theorem outcomeMeans_take_iff {qualified : List NodeScore} (budget : Nat)
    (hsorted : qualified.Pairwise fun a b => b.score ≤ a.score)
    (hnodup : (qualified.map NodeScore.subject).Nodup) :
    OutcomeMeans localizationPolicy.ambiguityMargin qualified
        (outcomeOf localizationPolicy (qualified.take budget))
        ((reported localizationPolicy (qualified.take budget)).map (toCandidate limits)) ↔
      (nearBest localizationPolicy.ambiguityMargin qualified).length ≤ budget ∧
        (qualified = [] ∨ 1 ≤ budget) := by
  cases qualified with
  | nil =>
      rw [List.take_nil]
      exact iff_of_true ⟨(fun h => nomatch h), (fun h => nomatch h), fun _ => rfl⟩
        ⟨Nat.zero_le _, .inl rfl⟩
  | cons first rest =>
      -- Without room nothing is left of the ranking, and the outcome says that nothing qualifies.
      rcases Nat.eq_zero_or_pos budget with rfl | hpos
      · rw [List.take_zero]
        refine iff_of_false (fun h => ?_) (fun h => ?_)
        · exact List.cons_ne_nil _ _ (h.unlocalized rfl)
        · exact h.2.elim (List.cons_ne_nil _ _) fun hpos => Nat.lt_irrefl 0 hpos
      · have hbudget : 1 ≤ budget := hpos
        rw [and_iff_left (Or.inr hbudget)]
        cases hambiguous : isAmbiguous localizationPolicy ((first :: rest).take budget) with
        | false => exact outcomeMeans_unambiguous_iff hsorted hnodup hbudget hambiguous
        | true => exact outcomeMeans_ambiguous_iff hsorted hnodup hbudget hambiguous

end

/-! ### The outcome of `localize` -/

section

variable {request : LocalizationRequest} {assessment : CongestionAssessment} {g : CausalGraph}
  {records : List (Option EvidenceRecord)} {policy : ClassificationPolicy}
  {localizationPolicy : LocalizationPolicy} {limits : Limits} {result : LocalizationResult}

theorem OutcomeMeans.congr {margin : Nat} {qualified qualified' : List NodeScore}
    (h : qualified.Perm qualified') {outcome : LocalizationOutcome}
    {candidates : List LocalizationCandidate} :
    OutcomeMeans margin qualified outcome candidates ↔
      OutcomeMeans margin qualified' outcome candidates := by
  have hgen : ∀ {qualified qualified' : List NodeScore}, qualified.Perm qualified' →
      OutcomeMeans margin qualified outcome candidates →
        OutcomeMeans margin qualified' outcome candidates := by
    intro qualified qualified' h hmeans
    refine ⟨fun hlocalized => ?_, fun hambiguous q hq hnear => ?_, fun hnone => ?_⟩
    · obtain ⟨first, hfirst, hfar⟩ := hmeans.localized hlocalized
      exact ⟨first, hfirst, fun q hq => hfar q (h.mem_iff.mpr hq)⟩
    · exact hmeans.ambiguous hambiguous q (h.mem_iff.mpr hq)
        fun other hother => hnear other (h.mem_iff.mp hother)
    · rw [hmeans.unlocalized hnone] at h
      exact h.nil_eq.symm
  exact ⟨hgen h, hgen h.symm⟩

theorem length_nearBest_eq_of_perm {margin : Nat} {qualified qualified' : List NodeScore}
    (h : qualified.Perm qualified') :
    (nearBest margin qualified).length = (nearBest margin qualified').length := by
  have hsame : (fun c => decide (NearBest margin qualified c))
      = fun c => decide (NearBest margin qualified' c) := by
    funext c
    refine decide_eq_decide.mpr (forall_congr' fun other => ?_)
    rw [h.mem_iff]
  rw [nearBest, nearBest, hsame]
  exact (h.filter _).length_eq

/-- A conclusion from the pool is right about it exactly when the budget has room for every
candidate near the best one. -/
theorem Concludes.outcomeMeans_iff (hg : g.WellIndexed) {cut : Bool}
    (h : Concludes localizationPolicy limits cut
      (qualifying localizationPolicy (candidateBudget localizationPolicy limits)
        (candidatePool request assessment g records policy localizationPolicy limits)) result) :
    OutcomeMeans localizationPolicy.ambiguityMargin
        (qualifiedPool request assessment g records policy localizationPolicy limits)
        result.outcome result.candidates ↔
      (nearBest localizationPolicy.ambiguityMargin
          (qualifiedPool request assessment g records policy localizationPolicy limits)).length
          ≤ candidateBudget localizationPolicy limits ∧
        (qualifiedPool request assessment g records policy localizationPolicy limits = [] ∨
          1 ≤ candidateBudget localizationPolicy limits) := by
  have hperm := @rankedQualified_perm localizationPolicy
    (candidatePool request assessment g records policy localizationPolicy limits)
  have hnodup : ((rankedQualified localizationPolicy
      (candidatePool request assessment g records policy localizationPolicy limits)).map
        NodeScore.subject).Nodup :=
    (hperm.map _).nodup_iff.mpr ((nodup_candidatePool hg).sublist (List.filter_sublist.map _))
  have hnil : rankedQualified localizationPolicy
      (candidatePool request assessment g records policy localizationPolicy limits) = [] ↔
      qualifiedPool request assessment g records policy localizationPolicy limits = [] := by
    rw [← List.length_eq_zero_iff, hperm.length_eq, List.length_eq_zero_iff]
    rfl
  rw [h.outcome, h.candidates, qualifying_eq, qualifiedPool, ← OutcomeMeans.congr hperm,
    ← length_nearBest_eq_of_perm hperm, outcomeMeans_take_iff _ (rankedQualified_sorted _) hnodup,
    hnil]
  rfl

/-- For an asserted symptom the outcome is right about all candidates that qualify exactly when
the budget has room for every one near the best. -/
theorem outcome_means_iff (calls : List GraphCall) (hassessment : request.assessment = some assessment)
    (hasserted : assessment.congestionAsserted = true)
    (h : localize request (.built calls) records policy localizationPolicy limits = .ok result) :
    OutcomeMeans localizationPolicy.ambiguityMargin
        (qualifiedPool request assessment (.built calls) records policy localizationPolicy limits)
        result.outcome result.candidates ↔
      (nearBest localizationPolicy.ambiguityMargin (qualifiedPool request assessment (.built calls)
          records policy localizationPolicy limits)).length
          ≤ candidateBudget localizationPolicy limits ∧
        (qualifiedPool request assessment (.built calls) records policy localizationPolicy limits
            = [] ∨ 1 ≤ candidateBudget localizationPolicy limits) :=
  (localize_asserted (CausalGraph.wellIndexed_built calls) hassessment hasserted h).outcomeMeans_iff
    (CausalGraph.wellIndexed_built calls)

end

/-! ### Two causes of one symptom -/

/-- A queue. -/
def queueNamed (name : String) : EvidenceSubject := .queue (EntityId.unchecked (ascii name))

/-- An edge with one citation. -/
def causes (cause effect : EvidenceSubject) (rule : String) : GraphCall :=
  .addEdge { from_ := cause, to_ := effect, kind := .bufferPressure, ruleId := ascii rule
             citations := [⟨0, 1⟩] } {}

/-- A record of buffer occupancy, fresh at 20 ns. -/
def bufferRecord (number : UInt64) (subject : EvidenceSubject) : EvidenceRecord :=
  { id := ⟨0, number⟩, kind := .bufferOccupancy, subject := subject
    observedAt := ⟨10⟩, receivedAt := ⟨10⟩, clock := .sourceMonotonic }

/-- An assessment that asserts congestion. -/
def assertion : CongestionAssessment := { congestionAsserted := true }

/-- A request about the queue `s`. -/
def symptomRequest : LocalizationRequest :=
  { symptom := queueNamed "s", windowStart := ⟨1⟩, windowEnd := ⟨20⟩, evaluatedAt := ⟨20⟩
    generation := ⟨1, 1, 1⟩, assessment := some assertion }

/-- Two queues with an edge to the symptom, and a record of each. -/
def twoCauses : List GraphCall :=
  [causes (queueNamed "a") (queueNamed "s") "r1", causes (queueNamed "b") (queueNamed "s") "r2"]

@[inherit_doc twoCauses]
def twoRecords : List (Option EvidenceRecord) :=
  [some (bufferRecord 5 (queueNamed "a")), some (bufferRecord 6 (queueNamed "b"))]

theorem twoCauses_means : ∃ result,
    localize symptomRequest (.built twoCauses) twoRecords {} {} {} = .ok result ∧
      OutcomeMeans 5 (qualifiedPool symptomRequest assertion (.built twoCauses) twoRecords {} {} {})
        result.outcome result.candidates := by
  obtain ⟨result, hresult⟩ := @exists_localize symptomRequest (.built twoCauses) twoRecords {} {} {}
    (by decide +kernel)
  exact ⟨result, hresult, (outcome_means_iff twoCauses rfl rfl hresult).mpr (by decide +kernel)⟩

/-- With room for one candidate the tie is not seen. -/
theorem twoCauses_cut : ∃ result,
    localize symptomRequest (.built twoCauses) twoRecords {} { maxCandidates := 1 } {}
        = .ok result ∧ result.outcome = .localized ∧
      ¬ OutcomeMeans 5 (qualifiedPool symptomRequest assertion (.built twoCauses) twoRecords {}
          { maxCandidates := 1 } {}) result.outcome result.candidates := by
  obtain ⟨result, hresult⟩ := @exists_localize symptomRequest (.built twoCauses) twoRecords {}
    { maxCandidates := 1 } {} (by decide +kernel)
  have hconcludes := localize_asserted (CausalGraph.wellIndexed_built twoCauses) rfl rfl hresult
  refine ⟨result, hresult, ?_, ?_⟩
  · rw [hconcludes.outcome]
    decide +kernel
  · have hiff := hconcludes.outcomeMeans_iff (CausalGraph.wellIndexed_built twoCauses)
    intro hmeans
    have hroom := hiff.mp hmeans
    revert hroom
    decide +kernel

/-! ### The blocker of a cut search -/

/-- A result names the depth among its blockers whenever the search was cut, exactly when it is not
the one for a cut search without a candidate that is kept. -/
theorem depth_blocked_iff (calls : List GraphCall) {request : LocalizationRequest}
    {records : List (Option EvidenceRecord)} {policy : ClassificationPolicy}
    {localizationPolicy : LocalizationPolicy} {limits : Limits} {result : LocalizationResult}
    (h : localize request (.built calls) records policy localizationPolicy limits = .ok result) :
    (result.depthLimited = true →
      (∃ b ∈ result.blockers, b.code = LocalizationBlockers.kDepthLimited) ∧
        ∃ b ∈ result.explanation.blockers, b.code = LocalizationBlockers.kDepthLimited) ↔
    ¬ ∃ assessment, request.assessment = some assessment ∧
      assessment.congestionAsserted = true ∧
      (∃ node, BreadthFirst.Distance (CausalGraph.built calls).CausedBy request.symptom node
          (searchDepth localizationPolicy limits) ∧
        ∃ cause, (CausalGraph.built calls).CausedBy node cause) ∧
      (candidateBudget localizationPolicy limits = 0 ∨
        qualifiedPool request assessment (.built calls) records policy localizationPolicy limits
          = []) := by
  have hg := CausalGraph.wellIndexed_built calls
  cases hasked : request.assessment.filter CongestionAssessment.congestionAsserted with
  | none =>
      obtain ⟨-, -, hlimited⟩ := localize_not_asserted hasked h
      refine iff_of_true (fun hcut => ?_) ?_
      · rw [hlimited] at hcut
        cases hcut
      · rintro ⟨assessment, hassessment, hasserted, -⟩
        rw [hassessment, Option.filter, if_pos hasserted] at hasked
        cases hasked
  | some assessment =>
      obtain ⟨hassessment, hasserted⟩ := Option.filter_eq_some_iff.mp hasked
      have hconcludes := localize_asserted hg hassessment hasserted h
      have hnone : qualifying localizationPolicy (candidateBudget localizationPolicy limits)
          (candidatePool request assessment (.built calls) records policy localizationPolicy limits)
            = [] ↔ candidateBudget localizationPolicy limits = 0 ∨ qualifiedPool request assessment
              (.built calls) records policy localizationPolicy limits = [] :=
        qualifying_eq_nil_iff _ _
      rw [hconcludes.explained, and_self, hconcludes.depthBlocked, hconcludes.depthLimited,
        depthLimited_iff hg, ne_eq, hnone]
      simp only [hassessment, Option.some.injEq, exists_eq_left', hasserted, true_and]
      rw [not_and]
      exact imp_congr_right fun hcut => and_iff_left hcut

/-- A chain of two edges to the symptom. -/
def chain : List GraphCall :=
  [causes (queueNamed "a") (queueNamed "s") "r1", causes (queueNamed "b") (queueNamed "a") "r2"]

/-- A search of depth one. -/
def shallow : LocalizationPolicy := { maxDepth := 1 }

theorem chain_blocked : ∃ result,
    localize symptomRequest (.built chain) twoRecords {} shallow {} = .ok result ∧
      result.depthLimited = true ∧
      ∃ b ∈ result.blockers, b.code = LocalizationBlockers.kDepthLimited := by
  obtain ⟨result, hresult⟩ := @exists_localize symptomRequest (.built chain) twoRecords {} shallow {}
    (by decide +kernel)
  have hconcludes := localize_asserted (CausalGraph.wellIndexed_built chain) rfl rfl hresult
  have hcut : result.depthLimited = true := by
    rw [hconcludes.depthLimited]
    decide +kernel
  refine ⟨result, hresult, hcut, ((depth_blocked_iff chain hresult).mpr ?_ hcut).1⟩
  rintro ⟨assessment, hassessment, -, -, hnone⟩
  cases hassessment
  revert hnone
  decide +kernel

/-- Without a record of the cause the search is cut and no blocker says so. -/
theorem chain_not_blocked : ∃ result,
    localize symptomRequest (.built chain) [] {} shallow {} = .ok result ∧
      result.depthLimited = true ∧
      ¬ ∃ b ∈ result.blockers, b.code = LocalizationBlockers.kDepthLimited := by
  obtain ⟨result, hresult⟩ := @exists_localize symptomRequest (.built chain) [] {} shallow {}
    (by decide +kernel)
  have hconcludes := localize_asserted (CausalGraph.wellIndexed_built chain) rfl rfl hresult
  refine ⟨result, hresult, ?_, ?_⟩
  · rw [hconcludes.depthLimited]
    decide +kernel
  · rw [hconcludes.depthBlocked]
    decide +kernel

end CongestionObservatory
