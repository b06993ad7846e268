import CongestionObservatory.Proofs.Localization.Traversal

/-!
# `CongestionObservatory.Proofs.Localization.Conclusion`: the exits of `localize`

`localize` returns early without an asserted symptom and for a graph without edges, and otherwise
concludes from the candidates that qualify. `localize_asserted` says what every result for an
asserted symptom has in common, the one for an empty graph included: the outcome, the candidates,
the flag and the blockers, all told by the candidates that qualify.
-/

set_option autoImplicit false

namespace CongestionObservatory

open Lib

/-- The depth the search may have. -/
def searchDepth (localizationPolicy : LocalizationPolicy) (limits : Limits) : Nat :=
  min localizationPolicy.maxDepth limits.maxLocalizationDepth

/-- The number of candidates that are kept. -/
def candidateBudget (localizationPolicy : LocalizationPolicy) (limits : Limits) : Nat :=
  min localizationPolicy.maxCandidates limits.maxResultCandidates

/-- The steps to the subjects that are scored. -/
def scoredSteps (request : LocalizationRequest) (graph : CausalGraph)
    (localizationPolicy : LocalizationPolicy) (limits : Limits) : List TraversalStep :=
  reachedSteps (traverse graph (searchDepth localizationPolicy limits) request.symptom)

/-- The scores of the subjects that were reached, before they are ranked. -/
def candidatePool (request : LocalizationRequest) (assessment : CongestionAssessment)
    (graph : CausalGraph) (records : List (Option EvidenceRecord)) (policy : ClassificationPolicy)
    (localizationPolicy : LocalizationPolicy) (limits : Limits) : List NodeScore :=
  nodeScores request assessment records policy limits localizationPolicy
    (scoredSteps request graph localizationPolicy limits)

/-- The outcome, from the candidates that qualify. -/
def outcomeOf (localizationPolicy : LocalizationPolicy) (qualified : List NodeScore) :
    LocalizationOutcome :=
  if qualified = [] then .unlocalized
  else if isAmbiguous localizationPolicy qualified then .ambiguous
  else .localized

/-- What a result says of the candidates that qualify. -/
structure Concludes (localizationPolicy : LocalizationPolicy) (limits : Limits)
    (cut : Bool) (qualified : List NodeScore) (result : LocalizationResult) : Prop where
  outcome : result.outcome = outcomeOf localizationPolicy qualified
  candidates : result.candidates = (reported localizationPolicy qualified).map (toCandidate limits)
  depthLimited : result.depthLimited = cut
  explained : result.explanation.blockers = result.blockers
  depthBlocked : (∃ b ∈ result.blockers, b.code = LocalizationBlockers.kDepthLimited) ↔
    qualified ≠ [] ∧ cut = true

section

variable {request : LocalizationRequest} {assessment : CongestionAssessment} {g : CausalGraph}
  {records : List (Option EvidenceRecord)} {policy : ClassificationPolicy}
  {localizationPolicy : LocalizationPolicy} {limits : Limits} {result : LocalizationResult}

theorem qualifying_nil (budget : Nat) : qualifying localizationPolicy budget [] = [] := by
  rw [qualifying, ranked, List.insertionSort_nil, List.take_nil, List.filter_nil]

/-- The blockers after a candidate qualified name the depth when the search was cut. -/
theorem exists_depthBlocker_iff (ambiguous depthLimited : Bool) :
    (∃ b ∈ ambiguousBlockers ambiguous ++ depthBlockers depthLimited,
      b.code = LocalizationBlockers.kDepthLimited) ↔ depthLimited = true := by
  cases ambiguous <;> cases depthLimited <;> decide +kernel

theorem concludes_conclude {cut : Bool} (hcut : result.depthLimited = cut)
    (hcandidates : result.candidates = []) (qualified : List NodeScore) :
    Concludes localizationPolicy limits cut qualified
      (conclude localizationPolicy limits result qualified) := by
  subst hcut
  cases qualified with
  | nil =>
      refine ⟨rfl, hcandidates, rfl, rfl, ?_⟩
      have hother : LocalizationBlockers.kNoEvidenceBackedPath
          ≠ LocalizationBlockers.kDepthLimited := by decide +kernel
      simp [conclude, LocalizationResult.withBlockers, hother]
  | cons best rest =>
      refine ⟨?_, rfl, rfl, rfl, ?_⟩
      · rw [outcomeOf, if_neg (List.cons_ne_nil _ _)]
        rfl
      · show (∃ b ∈ ambiguousBlockers _ ++ depthBlockers _, _) ↔ _
        rw [exists_depthBlocker_iff]
        simp

/-- Without edges nothing is scored. -/
theorem scoredSteps_eq_nil (hg : g.WellIndexed) (hempty : g.edges.size = 0) :
    scoredSteps request g localizationPolicy limits = [] ∧
      (traverse g (searchDepth localizationPolicy limits) request.symptom).depthLimited = false := by
  have hnone : g.edges.entries = [] := List.eq_nil_of_length_eq_zero hempty
  have hcaused : ∀ effect cause, ¬ g.CausedBy effect cause := by
    rintro effect cause ⟨edge, hedge, -⟩
    rw [OrdMap.values, hnone] at hedge
    cases hedge
  constructor
  · refine List.eq_nil_iff_forall_not_mem.mpr fun s hs => ?_
    obtain ⟨hdistance, hpos, -⟩ := distance_of_reached hg hs
    obtain ⟨d, hd⟩ := Nat.exists_eq_add_of_le' hpos
    rw [hd] at hdistance
    obtain ⟨effect, -, hstep⟩ := hdistance.1
    exact hcaused effect s.node hstep
  · rw [Bool.eq_false_iff, ne_eq, depthLimited_iff hg]
    rintro ⟨node, -, cause, hstep⟩
    exact hcaused node cause hstep

/-- What `localize` returns for an asserted symptom. -/
theorem localize_asserted (hg : g.WellIndexed) (hassessment : request.assessment = some assessment)
    (hasserted : assessment.congestionAsserted = true)
    (h : localize request g records policy localizationPolicy limits = .ok result) :
    Concludes localizationPolicy limits
      (traverse g (searchDepth localizationPolicy limits) request.symptom).depthLimited
      (qualifying localizationPolicy (candidateBudget localizationPolicy limits)
        (candidatePool request assessment g records policy localizationPolicy limits)) result := by
  have hfilter : request.assessment.filter CongestionAssessment.congestionAsserted
      = some assessment := by
    rw [hassessment, Option.filter, if_pos hasserted]
  unfold localize at h
  dsimp only at h
  rw [hfilter] at h
  split at h
  · cases h
  dsimp only at h
  split at h
  · -- An empty graph has no candidates either.
    next hempty =>
      cases h
      obtain ⟨hsteps, hdepth⟩ := @scoredSteps_eq_nil request g localizationPolicy limits hg hempty
      have hpool : candidatePool request assessment g records policy localizationPolicy limits
          = [] := by
        rw [candidatePool, hsteps]
        rfl
      rw [hdepth, hpool, qualifying_nil]
      refine ⟨rfl, rfl, rfl, rfl, ?_⟩
      have hother : LocalizationBlockers.kGraphEmpty ≠ LocalizationBlockers.kDepthLimited := by
        decide +kernel
      simp [LocalizationResult.withBlockers, hother]
  · cases h
    refine concludes_conclude ?_ ?_ _
    · rfl
    · rfl

/-- What `localize` returns for any other symptom. -/
theorem localize_not_asserted
    (hassessment : request.assessment.filter CongestionAssessment.congestionAsserted = none)
    (h : localize request g records policy localizationPolicy limits = .ok result) :
    result.outcome = .notAttempted ∧ result.candidates = [] ∧ result.depthLimited = false := by
  unfold localize at h
  dsimp only at h
  rw [hassessment] at h
  split at h
  · cases h
  · cases h
    exact ⟨rfl, rfl, rfl⟩

/-- A valid symptom has a result. -/
theorem exists_localize (hsymptom : request.symptom.valid = true) : ∃ result,
    localize request g records policy localizationPolicy limits = .ok result := by
  unfold localize
  dsimp only
  rw [if_neg (by simp [hsymptom])]
  split
  · exact ⟨_, rfl⟩
  · split
    · exact ⟨_, rfl⟩
    · exact ⟨_, rfl⟩

/-! ### The candidates -/

theorem ranked_sublist (budget : Nat) (pool : List NodeScore) :
    (ranked budget pool).Sublist (pool.insertionSort fun lhs rhs => rankKey lhs ≤ rankKey rhs) :=
  List.take_sublist _ _

theorem reported_sublist (qualified : List NodeScore) :
    (reported localizationPolicy qualified).Sublist qualified := by
  unfold reported
  split
  · exact List.filter_sublist
  · exact List.Sublist.refl _

/-- The candidates that are reported are some of the pool, ranked. -/
theorem reported_qualifying_sublist (budget : Nat) (pool : List NodeScore) :
    (reported localizationPolicy (qualifying localizationPolicy budget pool)).Sublist
      (pool.insertionSort fun lhs rhs => rankKey lhs ≤ rankKey rhs) :=
  ((reported_sublist _).trans List.filter_sublist).trans (ranked_sublist budget pool)

/-- Every score of the pool is that of a step that was reached. -/
theorem mem_candidatePool_iff {score : NodeScore} :
    score ∈ candidatePool request assessment g records policy localizationPolicy limits ↔
      ∃ step ∈ scoredSteps request g localizationPolicy limits,
        isStructuralOnly localizationPolicy
            (nodeEvidence request assessment records policy limits step) = false ∧
          score = nodeScore policy step
            (nodeEvidence request assessment records policy limits step) := by
  unfold candidatePool nodeScores
  rw [List.mem_filterMap]
  refine exists_congr fun step => and_congr_right fun _ => ?_
  dsimp only
  cases isStructuralOnly localizationPolicy
      (nodeEvidence request assessment records policy limits step) with
  | true => simp
  | false => simp [eq_comm]

theorem addBasis_fields (name : String) (points : Nat) (score : NodeScore) :
    (addBasis name points score).subject = score.subject ∧
      (addBasis name points score).depth = score.depth ∧
      (addBasis name points score).rules = score.rules := by
  unfold addBasis
  split
  · exact ⟨rfl, rfl, rfl⟩
  · exact ⟨rfl, rfl, rfl⟩

/-- The score is about the subject of the step, at its depth and with its rule. -/
theorem nodeScore_fields (policy : ClassificationPolicy) (step : TraversalStep) (e : NodeEvidence) :
    (nodeScore policy step e).subject = step.node ∧ (nodeScore policy step e).depth = step.depth ∧
      (nodeScore policy step e).rules = [step.incomingRule] := by
  unfold nodeScore
  simp only [addBasis_fields, and_self]

/-- No subject is scored twice. -/
theorem nodup_candidatePool (hg : g.WellIndexed) :
    ((candidatePool request assessment g records policy localizationPolicy limits).map
      NodeScore.subject).Nodup := by
  have hsub : ∀ steps : List TraversalStep,
      ((nodeScores request assessment records policy limits localizationPolicy steps).map
        NodeScore.subject).Sublist (steps.map TraversalStep.node) := by
    -- Passing subjects over leaves a sublist, so the subjects are as distinct as those of the
    -- steps.
    intro steps
    induction steps with
    | nil => exact List.Sublist.refl _
    | cons step rest ih =>
        unfold nodeScores at ih ⊢
        rw [List.filterMap_cons, List.map_cons]
        dsimp only
        cases isStructuralOnly localizationPolicy
            (nodeEvidence request assessment records policy limits step) with
        | true => exact ih.cons _
        | false =>
            simp only [Bool.false_eq_true, if_false, List.map_cons, nodeScore_fields]
            exact ih.cons_cons _
  exact (nodup_reachedSteps hg).sublist (hsub _)

end

end CongestionObservatory
