import CongestionObservatory.Proofs.Localization.Neighbourhood

/-!
# `CongestionObservatory.Proofs.Localization.Generations`: evidence of other generations

`localize` scores a subject by its current records and does not look at their generation. It reads
the records nowhere else (`findings_congr`), so the records of other generations do not show when
every subject within the depth has none that is current, or is passed over for want of decisive
evidence with them and without them.

`localize_ofGeneration` says so, and what shows otherwise. A result that does not change cites
nothing of another generation that the edges and the own generation do not cite as well. And a
current record of another generation shows under some policy and some limits, unless the subject
has current records of its own generation that cover it (`Covered`).
-/

set_option autoImplicit false

namespace CongestionObservatory

open Lib

/-- The records without those of another generation. -/
def ofGeneration (generation : GenerationVector) (records : List (Option EvidenceRecord)) :
    List (Option EvidenceRecord) :=
  records.filter fun entry => entry.all fun record => record.fence.gen == generation

theorem mem_ofGeneration_iff {generation : GenerationVector}
    {records : List (Option EvidenceRecord)} {record : EvidenceRecord} :
    some record ∈ ofGeneration generation records ↔
      some record ∈ records ∧ record.fence.gen = generation := by
  simp [ofGeneration]

/-- What a localization finds: its outcome, its candidates and its blockers. -/
def findings (result : Result LocalizationResult) :
    Result (LocalizationOutcome × List LocalizationCandidate × List Blocker) :=
  result.map fun result => (result.outcome, result.candidates, result.blockers)

section

variable {request : LocalizationRequest} {assessment : CongestionAssessment} {g : CausalGraph}
  {records records' : List (Option EvidenceRecord)} {policy : ClassificationPolicy}
  {localizationPolicy : LocalizationPolicy} {limits : Limits}

/-! ### What the findings depend on -/

/-- The end of `localize` takes the findings from the candidates that qualify and the flag. -/
theorem findings_conclude {r r' : LocalizationResult} (hcut : r.depthLimited = r'.depthLimited)
    (hcandidates : r.candidates = r'.candidates) (qualified : List NodeScore) :
    findings (.ok (conclude localizationPolicy limits r qualified))
      = findings (.ok (conclude localizationPolicy limits r' qualified)) := by
  unfold findings conclude
  split
  · simp [Except.map, LocalizationResult.withBlockers, hcandidates]
  · simp [Except.map, LocalizationResult.withBlockers, hcut]

/-- The findings depend on the records through the candidates that qualify. -/
theorem findings_congr (h : ∀ assessment,
      request.assessment.filter CongestionAssessment.congestionAsserted = some assessment →
      qualifying localizationPolicy (candidateBudget localizationPolicy limits)
          (candidatePool request assessment g records policy localizationPolicy limits)
        = qualifying localizationPolicy (candidateBudget localizationPolicy limits)
          (candidatePool request assessment g records' policy localizationPolicy limits)) :
    findings (localize request g records policy localizationPolicy limits)
      = findings (localize request g records' policy localizationPolicy limits) := by
  unfold localize
  dsimp only
  split
  · rfl
  · cases hasked : request.assessment.filter CongestionAssessment.congestionAsserted with
    | none => rfl
    | some assessment =>
        have hsame := h assessment hasked
        unfold candidatePool scoredSteps searchDepth candidateBudget at hsame
        dsimp only
        split
        · rfl
        · rw [hsame]
          refine findings_conclude ?_ ?_ _
          · rfl
          · rfl

theorem score_nodeScore_le (step : TraversalStep) (e : NodeEvidence) :
    (nodeScore policy step e).score ≤ 100 := by
  have hcap : ∀ score : Nat, (if score > 100 then 100 else score) ≤ 100 := by
    intro score
    split <;> omega
  exact hcap _

/-- The request, the policy and the limits leave no room for a candidate: the symptom is not valid
or not an asserted congestion, no candidate may be kept, or none can have the score. -/
def NoCandidate (request : LocalizationRequest) (localizationPolicy : LocalizationPolicy)
    (limits : Limits) : Prop :=
  request.symptom.valid = false ∨
  request.assessment.filter CongestionAssessment.congestionAsserted = none ∨
  candidateBudget localizationPolicy limits = 0 ∨ 100 < localizationPolicy.minimumCandidateScore

theorem findings_eq_of_noCandidate (h : NoCandidate request localizationPolicy limits) :
    findings (localize request g records policy localizationPolicy limits)
      = findings (localize request g records' policy localizationPolicy limits) := by
  rcases h with hsymptom | hasked | hbudget | hscore
  · unfold localize
    dsimp only
    rw [if_pos (by simp [hsymptom]), if_pos (by simp [hsymptom])]
  · refine findings_congr fun assessment hasked' => ?_
    rw [hasked] at hasked'
    cases hasked'
  · refine findings_congr fun assessment _ => ?_
    rw [(qualifying_eq_nil_iff _ _).mpr (.inl hbudget),
      (qualifying_eq_nil_iff _ _).mpr (.inl hbudget)]
  · refine findings_congr fun assessment _ => ?_
    have hnone : ∀ records, qualifying localizationPolicy
        (candidateBudget localizationPolicy limits)
        (candidatePool request assessment g records policy localizationPolicy limits) = [] := by
      refine fun records => (qualifying_eq_nil_iff _ _).mpr (.inr ?_)
      refine List.filter_eq_nil_iff.mpr fun score hmem hreached => ?_
      obtain ⟨step, -, -, rfl⟩ := mem_candidatePool_iff.mp hmem
      have hle := @score_nodeScore_le policy step
        (nodeEvidence request assessment records policy limits step)
      have hge := of_decide_eq_true hreached
      omega
    rw [hnone, hnone]

/-! ### The subjects that are not touched -/

/-- Nothing of another generation shows at the subject: no record of one is current there, or
decisive evidence is required and no current record there has a decisive role. -/
def Untouched (request : LocalizationRequest) (records : List (Option EvidenceRecord))
    (policy : ClassificationPolicy) (localizationPolicy : LocalizationPolicy)
    (node : EvidenceSubject) : Prop :=
  (∀ record, some record ∈ records → Current request policy node record →
    record.fence.gen = request.generation) ∨
  (localizationPolicy.requireDecisiveEvidence = true ∧ ∀ record, some record ∈ records →
    Current request policy node record → isDecisiveRole (roleOf record.kind) = false)

/-- Records that do not count for a subject can be removed. -/
theorem nodeEvidence_ofGeneration {step : TraversalStep}
    (h : ∀ record, some record ∈ records → record.fence.gen ≠ request.generation →
      ¬ Current request policy step.node record) :
    nodeEvidence request assessment (ofGeneration request.generation records) policy limits step
      = nodeEvidence request assessment records policy limits step := by
  have hsame : ((ofGeneration request.generation records).filterMap id).filter
      (countsFor request policy step.node)
        = (records.filterMap id).filter (countsFor request policy step.node) := by
    unfold ofGeneration
    -- A record that is removed would not have counted, and one that stays is in both lists.
    induction records with
    | nil => rfl
    | cons entry rest ih =>
        have hrest := ih fun record hrecord => h record (List.mem_cons_of_mem _ hrecord)
        cases entry with
        | none => exact hrest
        | some record =>
            by_cases hgen : record.fence.gen = request.generation
            · rw [List.filter_cons_of_pos (by simpa using hgen)]
              show List.filter _ (record :: _) = List.filter _ (record :: _)
              rw [List.filter_cons, List.filter_cons, hrest]
            · have hidle : ¬ countsFor request policy step.node record = true := fun hcounts =>
                h record List.mem_cons_self hgen (countsFor_iff.mp hcounts)
              rw [List.filter_cons_of_neg (by simpa using hgen)]
              show _ = List.filter _ (record :: _)
              rw [List.filter_cons_of_neg hidle]
              exact hrest
  rw [nodeEvidence, nodeEvidence, hsame]

/-- A subject without decisive evidence is passed over where it is required. -/
theorem isStructuralOnly_of_no_role {step : TraversalStep}
    (hrequired : localizationPolicy.requireDecisiveEvidence = true)
    (h : ∀ record, some record ∈ records → Current request policy step.node record →
      isDecisiveRole (roleOf record.kind) = false) :
    isStructuralOnly localizationPolicy
      (nodeEvidence request assessment records policy limits step) = true := by
  rw [isStructuralOnly, hrequired, Bool.true_and, Bool.not_eq_true', Bool.eq_false_iff]
  intro hdecisive
  obtain ⟨record, hmem, hcurrent, hrole⟩ := exists_current_of_decisive hdecisive
  rw [h record hmem hcurrent] at hrole
  cases hrole

/-- The candidates are those without the records of other generations where no subject that is
scored is touched by them. -/
theorem candidatePool_ofGeneration (h : ∀ step ∈ scoredSteps request g localizationPolicy limits,
      Untouched request records policy localizationPolicy step.node) :
    candidatePool request assessment g (ofGeneration request.generation records) policy
        localizationPolicy limits
      = candidatePool request assessment g records policy localizationPolicy limits := by
  unfold candidatePool nodeScores
  refine List.filterMap_congr fun step hstep => ?_
  dsimp only
  rcases h step hstep with hown | ⟨hrequired, hroles⟩
  · rw [nodeEvidence_ofGeneration fun record hmem hgen hcurrent =>
      hgen (hown record hmem hcurrent)]
  · rw [if_pos (isStructuralOnly_of_no_role hrequired fun record hmem =>
        hroles record (mem_ofGeneration_iff.mp hmem).1),
      if_pos (isStructuralOnly_of_no_role hrequired hroles)]

/-! ### Citations -/

theorem accumulate_eq (target source : List EvidenceId) (limit : Nat) :
    accumulate target source limit = target ++ source.take (limit - target.length) := by
  induction source generalizing target with
  | nil => simp [accumulate]
  | cons id rest ih =>
      rw [accumulate]
      split
      · rename_i hfull
        rw [Nat.sub_eq_zero_of_le hfull, List.take_zero, List.append_nil]
      · rename_i hroom
        obtain ⟨room, hroom⟩ := Nat.exists_eq_add_of_lt (Nat.lt_of_not_le hroom)
        rw [ih, List.length_append, List.length_singleton, hroom,
          show target.length + room + 1 - (target.length + 1) = room by omega,
          show target.length + room + 1 - target.length = room + 1 by omega, List.take_succ_cons,
          List.append_assoc, List.singleton_append]

theorem citations_observe (e : NodeEvidence) (record : EvidenceRecord) :
    (e.observe limits record).citations
      = accumulate e.citations [record.id] limits.maxCitations := by
  unfold NodeEvidence.observe NodeEvidence.observeRole
  cases roleOf record.kind <;> rfl

/-- The citations of a subject are those of the edge and the ids of the records that count, as far
as there is room. -/
theorem citations_foldl (e : NodeEvidence) (counted : List EvidenceRecord) :
    (counted.foldl (NodeEvidence.observe limits) e).citations
      = accumulate e.citations (counted.map EvidenceRecord.id) limits.maxCitations := by
  induction counted generalizing e with
  | nil => rfl
  | cons record rest ih =>
      rw [List.foldl_cons, ih, citations_observe, List.map_cons]
      simp only [accumulate]
      split
      · rename_i hfull
        rw [accumulate_eq, Nat.sub_eq_zero_of_le hfull, List.take_zero, List.append_nil]
      · rfl

/-- The id is cited at the subject: by an edge from it, or by a current record of it. -/
def CitedAt (request : LocalizationRequest) (g : CausalGraph)
    (records : List (Option EvidenceRecord)) (policy : ClassificationPolicy)
    (node : EvidenceSubject) (id : EvidenceId) : Prop :=
  (∃ edge ∈ g.edges.values, edge.from_ = node ∧ id ∈ edge.citations) ∨
  ∃ record, some record ∈ records ∧ Current request policy node record ∧ record.id = id

theorem citedAt_of_mem_nodeEvidence (hg : g.WellIndexed) {step : TraversalStep} {maxDepth : Nat}
    (hstep : step ∈ reachedSteps (traverse g maxDepth request.symptom)) {id : EvidenceId}
    (hid : id ∈ (nodeEvidence request assessment records policy limits step).citations) :
    CitedAt request g records policy step.node id := by
  obtain ⟨parent, -, edge, hedge, -, rfl⟩ := exists_edge_of_scored hg hstep
  rw [nodeEvidence, citations_foldl, accumulate_eq, accumulate_eq, List.nil_append,
    List.mem_append] at hid
  rcases hid with hid | hid
  · exact .inl ⟨edge, hedge, rfl, List.mem_of_mem_take hid⟩
  · obtain ⟨record, hrecord, rfl⟩ := List.mem_map.mp (List.mem_of_mem_take hid)
    obtain ⟨hmem, hcounts⟩ := List.mem_filter.mp hrecord
    exact .inr ⟨record, by simpa using hmem, countsFor_iff.mp hcounts, rfl⟩

theorem citations_addBasis (name : String) (points : Nat) (score : NodeScore) :
    (addBasis name points score).citations = score.citations := by
  unfold addBasis
  split <;> rfl

theorem citations_nodeScore (step : TraversalStep) (e : NodeEvidence) :
    (nodeScore policy step e).citations = e.citations := by
  unfold nodeScore
  simp only [citations_addBasis]

/-- What a candidate cites is cited at its subject. -/
theorem citedAt_of_candidate (hg : g.WellIndexed) {result : LocalizationResult}
    (h : localize request g records policy localizationPolicy limits = .ok result)
    {c : LocalizationCandidate} (hc : c ∈ result.candidates) {id : EvidenceId}
    (hid : id ∈ c.citations) : CitedAt request g records policy c.subject id := by
  obtain ⟨assessment, step, hstep, -, rfl⟩ := exists_scored hg h hc
  have hsubject : (toCandidate limits (nodeScore policy step
      (nodeEvidence request assessment records policy limits step))).subject = step.node :=
    (nodeScore_fields policy step _).1
  have hmem := mem_sortUnique.mp (List.mem_of_mem_take hid)
  rw [citations_nodeScore] at hmem
  rw [hsubject]
  exact citedAt_of_mem_nodeEvidence hg hstep hmem

/-! ### The basis of a score -/

/-- A text of the basis of a score. -/
def basisText (name : String) (points : Nat) : Text :=
  ascii name ++ ascii "(+" ++ decimal points ++ ascii ")"

theorem mem_basis_addBasis {name : String} {points : Nat} {score : NodeScore} {text : Text} :
    text ∈ (addBasis name points score).basis ↔
      text ∈ score.basis ∨ points ≠ 0 ∧ text = basisText name points := by
  unfold addBasis
  split
  · rename_i hzero
    simp [hzero]
  · rename_i hpoints
    simp [hpoints, basisText]

/-- The text for evidence that is fresh. -/
def freshText : Text := basisText "fresh_evidence" 10

/-- The text for a decisive role that was seen. -/
def roleText : EvidenceRole → Text
  | .demand => basisText "demand_observed" 10
  | .pressure => basisText "backlog_present" 20
  | .contention => basisText "contention" 10
  | _ => basisText "impairment_upstream" 5

theorem mem_basis_addBasis_ite {name : String} {points : Nat} (hpoints : points ≠ 0)
    {seen : Prop} [Decidable seen] {score : NodeScore} {text : Text} :
    text ∈ (addBasis name (if seen then points else 0) score).basis ↔
      text ∈ score.basis ∨ seen ∧ text = basisText name points := by
  rw [mem_basis_addBasis]
  split
  · rename_i hseen
    simp [hpoints, hseen]
  · rename_i hseen
    simp [hseen]

/-- The texts of a basis, the one for the depth left aside, in their order. -/
theorem mem_basis_iff {step : TraversalStep} {e : NodeEvidence} {text : Text}
    (hproximity : ∀ points, text ≠ basisText "proximity" points) :
    text ∈ (nodeScore policy step e).basis ↔
      e.anyFresh = true ∧ text = freshText ∨ e.demandPresent = true ∧ text = roleText .demand ∨
      e.demandExceeds policy = true ∧ text = basisText "demand_exceeds_capacity" 25 ∨
      e.pressurePresent = true ∧ text = roleText .pressure ∨
      (e.pressurePresent = true ∧ e.pressureRatio ≥ policy.pressureOccupancyRatio) ∧
        text = basisText "backlog_ratio_high" 15 ∨
      e.bufferPressure = true ∧ text = basisText "buffer_pressure" 10 ∨
      e.contentionPresent = true ∧ text = roleText .contention ∨
      e.impairmentPresent = true ∧ text = roleText .impairment ∨
      step.incomingObservational = true ∧ text = basisText "observational_edge" 10 := by
  unfold nodeScore
  simp only [mem_basis_addBasis_ite (Nat.succ_ne_zero _), mem_basis_addBasis, List.not_mem_nil,
    false_or, hproximity, and_false, or_false, or_assoc]
  rfl

theorem head_basisText {name : String} {points : Nat} {b : UInt8}
    (h : (ascii name).head? = some b) : (basisText name points).head? = some b := by
  rw [basisText, List.append_assoc, List.append_assoc, List.head?_append, h, Option.some_or]

theorem ne_proximityText {text : Text} (h : text.head? ≠ (ascii "proximity").head?) (points : Nat) :
    text ≠ basisText "proximity" points := by
  rintro rfl
  obtain ⟨b, hb⟩ : ∃ b, (ascii "proximity").head? = some b := ⟨_, rfl⟩
  rw [head_basisText hb, hb] at h
  exact h rfl

theorem freshText_mem_iff {step : TraversalStep} {e : NodeEvidence} :
    freshText ∈ (nodeScore policy step e).basis ↔ e.anyFresh = true := by
  rw [mem_basis_iff (ne_proximityText (by decide +kernel))]
  simp +decide

theorem roleText_mem_iff {step : TraversalStep} {e : NodeEvidence} {role : EvidenceRole}
    (hrole : isDecisiveRole role = true) :
    roleText role ∈ (nodeScore policy step e).basis ↔ e.present role = true := by
  cases role with
  | demand =>
      rw [mem_basis_iff (ne_proximityText (by decide +kernel))]
      simp +decide [NodeEvidence.present]
  | pressure =>
      rw [mem_basis_iff (ne_proximityText (by decide +kernel))]
      simp +decide [NodeEvidence.present]
  | contention =>
      rw [mem_basis_iff (ne_proximityText (by decide +kernel))]
      simp +decide [NodeEvidence.present]
  | impairment =>
      rw [mem_basis_iff (ne_proximityText (by decide +kernel))]
      simp +decide [NodeEvidence.present]
  | _ => cases hrole
/-! ### Covered records -/

/-- A policy under which every subject that is reached within the depth is reported. -/
def openPolicy (depth budget : Nat) : LocalizationPolicy where
  maxDepth := depth
  maxCandidates := budget
  ambiguityMargin := 0
  minimumCandidateScore := 0
  requireDecisiveEvidence := false

@[inherit_doc openPolicy]
def openLimits (depth budget citations : Nat) : Limits where
  maxLocalizationDepth := depth
  maxResultCandidates := budget
  maxCitations := citations

section Open

variable {depth budget citations : Nat} {result : LocalizationResult}
  (hg : g.WellIndexed) (hassessment : request.assessment = some assessment)
  (hasserted : assessment.congestionAsserted = true)
  (hbudget : (reachedSteps (traverse g depth request.symptom)).length ≤ budget)
  (h : localize request g records policy (openPolicy depth budget)
    (openLimits depth budget citations) = .ok result)

include hg hassessment hasserted hbudget h

theorem mem_candidates_open_iff {c : LocalizationCandidate} : c ∈ result.candidates ↔
    ∃ step ∈ reachedSteps (traverse g depth request.symptom),
      c = toCandidate (openLimits depth budget citations) (nodeScore policy step
        (nodeEvidence request assessment records policy (openLimits depth budget citations)
          step)) := by
  have hdepth : searchDepth (openPolicy depth budget) (openLimits depth budget citations) = depth :=
    Nat.min_self depth
  have hroom : candidateBudget (openPolicy depth budget) (openLimits depth budget citations)
      = budget := Nat.min_self budget
  have hclear : ∀ qualified, isAmbiguous (openPolicy depth budget) qualified = false := by
    intro qualified
    unfold isAmbiguous
    split
    · exact decide_eq_false (Nat.not_lt_zero _)
    · rfl
  let pool := candidatePool request assessment g records policy (openPolicy depth budget)
    (openLimits depth budget citations)
  have hpool : ∀ score, score ∈ pool ↔ ∃ step ∈ reachedSteps (traverse g depth request.symptom),
      score = nodeScore policy step (nodeEvidence request assessment records policy
        (openLimits depth budget citations) step) := by
    intro score
    rw [mem_candidatePool_iff, scoredSteps, hdepth]
    exact exists_congr fun step => and_congr_right fun _ => and_iff_right rfl
  -- No candidate is cut and every score qualifies.
  have hlength : (rankedQualified (openPolicy depth budget) pool).length ≤ budget := by
    have hkept : (rankedQualified (openPolicy depth budget) pool).length ≤ pool.length :=
      (rankedQualified_perm pool).length_eq.trans_le (List.length_filter_le _ _)
    have hscored : pool.length ≤ (reachedSteps (traverse g depth request.symptom)).length := by
      unfold pool candidatePool nodeScores
      rw [scoredSteps, hdepth]
      exact List.length_filterMap_le _ _
    exact hkept.trans (hscored.trans hbudget)
  have hcandidates := (localize_asserted hg hassessment hasserted h).candidates
  rw [qualifying_eq, hroom, List.take_of_length_le hlength, reported, if_neg (by simp [hclear])]
    at hcandidates
  rw [hcandidates, List.mem_map]
  constructor
  · rintro ⟨score, hscore, rfl⟩
    have hmem := List.mem_of_mem_filter ((rankedQualified_perm pool).mem_iff.mp hscore)
    obtain ⟨step, hstep, rfl⟩ := (hpool score).mp hmem
    exact ⟨step, hstep, rfl⟩
  · rintro ⟨step, hstep, rfl⟩
    refine ⟨_, (rankedQualified_perm pool).mem_iff.mpr ?_, rfl⟩
    exact List.mem_filter.mpr ⟨(hpool _).mpr ⟨step, hstep, rfl⟩, decide_eq_true (Nat.zero_le _)⟩

end Open

/-- Current records of the generation that is asked for cover the record at the subject: there is
one, the id of the record is cited without it, and its role, if it is a decisive one, is that of
one of them. -/
structure Covered (request : LocalizationRequest) (g : CausalGraph)
    (records : List (Option EvidenceRecord)) (policy : ClassificationPolicy)
    (node : EvidenceSubject) (record : EvidenceRecord) : Prop where
  current : ∃ own, some own ∈ ofGeneration request.generation records ∧
    Current request policy node own
  cited : CitedAt request g (ofGeneration request.generation records) policy node record.id
  role : isDecisiveRole (roleOf record.kind) = true →
    ∃ own, some own ∈ ofGeneration request.generation records ∧ Current request policy node own ∧
      roleOf own.kind = roleOf record.kind

/-- A subject at a distance is one of those that are scored. -/
theorem exists_reached_of_distance (hg : g.WellIndexed) {symptom node : EvidenceSubject} {d : Nat}
    (hdistance : BreadthFirst.Distance g.CausedBy symptom node d) (hpos : 1 ≤ d) :
    ∃ step ∈ reachedSteps (traverse g d symptom), step.node = node := by
  obtain ⟨step, hstep, rfl, -⟩ := (@searching g d symptom hg (g.edges.size + 1)).exists_of_distance
    (queue_wholeSearch hg) rfl le_rfl hdistance
  refine ⟨step, (mem_reachedSteps_iff hg).mpr ⟨hstep, fun hsame => ?_⟩, rfl⟩
  have hzero : d ≤ 0 := hdistance.2 hsame
  omega

/-- With room for them the ids of the current records are cited. -/
theorem id_mem_citations {step : TraversalStep} {record : EvidenceRecord}
    (hmem : some record ∈ records) (hcurrent : Current request policy step.node record)
    (hroom : step.citations.length + records.length ≤ limits.maxCitations) :
    record.id ∈ (toCandidate limits (nodeScore policy step
      (nodeEvidence request assessment records policy limits step))).citations := by
  let counted := (records.filterMap id).filter (countsFor request policy step.node)
  have hcounted : counted.length ≤ records.length :=
    (List.length_filter_le _ _).trans (List.length_filterMap_le _ _)
  let start := accumulate [] step.citations (assessment.citations.length + 1)
  have hstart : start.length ≤ step.citations.length := by
    unfold start
    rw [accumulate_eq, List.nil_append]
    exact List.length_take_le' _ _
  have hcitations : (nodeEvidence request assessment records policy limits step).citations
      = start ++ counted.map EvidenceRecord.id := by
    rw [nodeEvidence, citations_foldl, accumulate_eq, List.take_of_length_le]
    show (counted.map EvidenceRecord.id).length ≤ limits.maxCitations - start.length
    rw [List.length_map]
    omega
  have hid : record.id ∈ sortUnique (start ++ counted.map EvidenceRecord.id) := by
    refine mem_sortUnique.mpr (List.mem_append_right _ (List.mem_map_of_mem ?_))
    exact List.mem_filter.mpr ⟨by simpa using hmem, countsFor_iff.mpr hcurrent⟩
  show record.id ∈ (sortUnique (nodeScore policy step _).citations).take limits.maxCitations
  rw [citations_nodeScore, hcitations, List.take_of_length_le]
  · exact hid
  · refine (length_sortUnique_le _).trans ?_
    rw [List.length_append, List.length_map]
    omega

/-- Where the records of other generations never show, every current record of a subject is
covered. -/
theorem covered_of_unchanged (hg : g.WellIndexed) (hsymptom : request.symptom.valid = true)
    (hassessment : request.assessment = some assessment)
    (hasserted : assessment.congestionAsserted = true)
    (hsame : ∀ localizationPolicy limits,
      findings (localize request g (ofGeneration request.generation records) policy
          localizationPolicy limits)
        = findings (localize request g records policy localizationPolicy limits))
    {node : EvidenceSubject} {d : Nat}
    (hdistance : BreadthFirst.Distance g.CausedBy request.symptom node d) (hpos : 1 ≤ d)
    {record : EvidenceRecord} (hmem : some record ∈ records)
    (hcurrent : Current request policy node record) :
    Covered request g records policy node record := by
  obtain ⟨step, hstep, rfl⟩ := exists_reached_of_distance hg hdistance hpos
  let budget := (reachedSteps (traverse g d request.symptom)).length
  let room := step.citations.length + records.length
  obtain ⟨all, hall⟩ := @exists_localize request g records policy (openPolicy d budget)
    (openLimits d budget room) hsymptom
  obtain ⟨own, hown⟩ := @exists_localize request g (ofGeneration request.generation records) policy
    (openPolicy d budget) (openLimits d budget room) hsymptom
  have hcandidates : own.candidates = all.candidates := by
    have hfindings := hsame (openPolicy d budget) (openLimits d budget room)
    rw [hall, hown] at hfindings
    exact (Prod.mk.inj (Prod.mk.inj (Except.ok.inj hfindings)).2).1
  -- The candidate of the subject is the same with and without the other records.
  have hreported := (mem_candidates_open_iff hg hassessment hasserted le_rfl hall).mpr
    ⟨step, hstep, rfl⟩
  rw [← hcandidates] at hreported
  obtain ⟨step', hstep', hequal⟩ :=
    (mem_candidates_open_iff hg hassessment hasserted le_rfl hown).mp hreported
  have hnode : step.node = step'.node := by
    have hsubject := congrArg LocalizationCandidate.subject hequal
    rw [toCandidate, toCandidate, (nodeScore_fields policy step _).1,
      (nodeScore_fields policy step' _).1] at hsubject
    exact hsubject
  obtain rfl := List.inj_on_of_nodup_map (nodup_reachedSteps hg) hstep hstep' hnode
  have hbasis : ∀ text, text ∈ (nodeScore policy step (nodeEvidence request assessment records
      policy (openLimits d budget room) step)).basis → text ∈ (nodeScore policy step
        (nodeEvidence request assessment (ofGeneration request.generation records) policy
          (openLimits d budget room) step)).basis := by
    intro text htext
    exact (congrArg (text ∈ LocalizationCandidate.basis ·) hequal).mp htext
  have hid := @id_mem_citations request assessment records policy (openLimits d budget room) step
    record hmem hcurrent le_rfl
  rw [hequal] at hid
  refine ⟨?_, ?_, fun hrole => ?_⟩
  · have hfresh := hbasis freshText
      (freshText_mem_iff.mpr (anyFresh_nodeEvidence_iff.mpr ⟨record, hmem, hcurrent⟩))
    exact anyFresh_nodeEvidence_iff.mp (freshText_mem_iff.mp hfresh)
  · have hcited := mem_sortUnique.mp (List.mem_of_mem_take hid)
    rw [citations_nodeScore] at hcited
    exact citedAt_of_mem_nodeEvidence hg hstep hcited
  · have hpresent := hbasis (roleText (roleOf record.kind)) ((roleText_mem_iff hrole).mpr
      ((present_nodeEvidence_iff hrole).mpr ⟨record, hmem, hcurrent, rfl⟩))
    exact (present_nodeEvidence_iff hrole).mp ((roleText_mem_iff hrole).mp hpresent)

end

/-! ### The two runs -/

/-- Removing the records of other generations changes none of the findings when there is no room
for a candidate, or no subject within the depth is touched by them. A result that it does not
change cites only what edges and records of the generation that is asked for cite. And where it
changes no result, under any policy and any limits, such records cover every current one. -/
theorem localize_ofGeneration (calls : List GraphCall) (request : LocalizationRequest)
    (records : List (Option EvidenceRecord)) (policy : ClassificationPolicy) :
    (∀ localizationPolicy limits,
      (NoCandidate request localizationPolicy limits ∨
        ∀ node d,
          BreadthFirst.Distance (CausalGraph.built calls).CausedBy request.symptom node d →
          1 ≤ d → d ≤ searchDepth localizationPolicy limits →
          Untouched request records policy localizationPolicy node) →
      findings (localize request (.built calls) (ofGeneration request.generation records) policy
          localizationPolicy limits)
        = findings (localize request (.built calls) records policy localizationPolicy limits)) ∧
    (∀ localizationPolicy limits,
      findings (localize request (.built calls) (ofGeneration request.generation records) policy
          localizationPolicy limits)
        = findings (localize request (.built calls) records policy localizationPolicy limits) →
      ∀ result, localize request (.built calls) records policy localizationPolicy limits
          = .ok result →
        ∀ c ∈ result.candidates, ∀ id ∈ c.citations, CitedAt request (.built calls)
          (ofGeneration request.generation records) policy c.subject id) ∧
    (request.symptom.valid = true →
      (∃ assessment, request.assessment = some assessment ∧
        assessment.congestionAsserted = true) →
      (∀ localizationPolicy limits,
        findings (localize request (.built calls) (ofGeneration request.generation records) policy
            localizationPolicy limits)
          = findings (localize request (.built calls) records policy localizationPolicy limits)) →
      ∀ node d, BreadthFirst.Distance (CausalGraph.built calls).CausedBy request.symptom node d →
        1 ≤ d → ∀ record, some record ∈ records → Current request policy node record →
          Covered request (.built calls) records policy node record) := by
  have hg := CausalGraph.wellIndexed_built calls
  refine ⟨fun localizationPolicy limits h => ?_, fun localizationPolicy limits hsame result h => ?_,
    ?_⟩
  · rcases h with hnone | huntouched
    · exact findings_eq_of_noCandidate hnone
    · refine findings_congr fun assessment _ => ?_
      rw [candidatePool_ofGeneration fun step hstep => ?_]
      obtain ⟨hdistance, hpos, hle⟩ := distance_of_reached hg hstep
      exact huntouched step.node step.depth hdistance hpos hle
  · intro c hc id hid
    rw [h] at hsame
    cases hown : localize request (.built calls) (ofGeneration request.generation records) policy
        localizationPolicy limits with
    | error e =>
        rw [hown] at hsame
        cases hsame
    | ok own =>
        rw [hown] at hsame
        have hcandidates : own.candidates = result.candidates :=
          (Prod.mk.inj (Prod.mk.inj (Except.ok.inj hsame)).2).1
        exact citedAt_of_candidate hg hown (hcandidates ▸ hc) hid
  · rintro hsymptom ⟨assessment, hassessment, hasserted⟩ hsame node d hdistance hpos record hmem
      hcurrent
    exact covered_of_unchanged hg hsymptom hassessment hasserted hsame hdistance hpos hmem hcurrent

/-- A record of the generation that is asked for, one of another generation that was made before
the window, and a heartbeat of another generation where nothing decisive is known. -/
def mixedRecords : List (Option EvidenceRecord) :=
  [some { bufferRecord 5 (queueNamed "a") with fence := { gen := ⟨1, 1, 1⟩ } },
    some { bufferRecord 6 (queueNamed "a") with observedAt := ⟨0⟩ },
    some { bufferRecord 7 (queueNamed "b") with kind := .sourceHeartbeat }]

theorem mixedRecords_unchanged :
    (ofGeneration ⟨1, 1, 1⟩ mixedRecords).length = 1 ∧
      findings (localize symptomRequest (.built twoCauses) (ofGeneration ⟨1, 1, 1⟩ mixedRecords)
          {} {} {})
        = findings (localize symptomRequest (.built twoCauses) mixedRecords {} {} {}) := by
  refine ⟨by decide +kernel,
    (localize_ofGeneration twoCauses symptomRequest mixedRecords {}).1 {} {} (.inr ?_)⟩
  intro node d _ _ _
  have hearly : ∀ record, some record ∈ mixedRecords → record.subject = queueNamed "a" →
      symptomRequest.windowStart ≤ record.observedAt → record.fence.gen = ⟨1, 1, 1⟩ := by
    simp only [mixedRecords, List.mem_cons, Option.some.injEq, List.not_mem_nil, or_false]
    rintro record (rfl | rfl | rfl) <;> decide +kernel
  have hidle : ∀ record, some record ∈ mixedRecords → record.subject ≠ queueNamed "a" →
      isDecisiveRole (roleOf record.kind) = false := by
    simp only [mixedRecords, List.mem_cons, Option.some.injEq, List.not_mem_nil, or_false]
    rintro record (rfl | rfl | rfl) <;> decide +kernel
  by_cases hnode : node = queueNamed "a"
  · refine .inl fun record hmem hcurrent => ?_
    exact hearly record hmem (hcurrent.subject.trans hnode) hcurrent.window.1
  · refine .inr ⟨rfl, fun record hmem hcurrent => hidle record hmem ?_⟩
    rw [hcurrent.subject]
    exact hnode

/-- Two records of generation zero decide a request for another generation. -/
theorem twoCauses_other_generation :
    symptomRequest.generation ≠ {} ∧
      (∀ record, some record ∈ twoRecords → record.fence.gen ≠ symptomRequest.generation) ∧
      (∃ result, localize symptomRequest (.built twoCauses) twoRecords {} {} {} = .ok result ∧
        result.outcome = .ambiguous ∧ result.candidates.length = 2) ∧
      ∃ result, localize symptomRequest (.built twoCauses)
          (ofGeneration symptomRequest.generation twoRecords) {} {} {} = .ok result ∧
        result.outcome = .unlocalized ∧ result.candidates = [] := by
  have hg := CausalGraph.wellIndexed_built twoCauses
  refine ⟨by decide, ?_, ?_, ?_⟩
  · simp only [twoRecords, List.mem_cons, Option.some.injEq, List.not_mem_nil, or_false]
    rintro record (rfl | rfl) <;> decide
  · obtain ⟨result, hresult⟩ := @exists_localize symptomRequest (.built twoCauses) twoRecords {} {}
      {} (by decide +kernel)
    have hconcludes := localize_asserted hg rfl rfl hresult
    refine ⟨result, hresult, ?_, ?_⟩
    · rw [hconcludes.outcome]
      decide +kernel
    · rw [hconcludes.candidates]
      decide +kernel
  · obtain ⟨result, hresult⟩ := @exists_localize symptomRequest (.built twoCauses)
      (ofGeneration symptomRequest.generation twoRecords) {} {} {} (by decide +kernel)
    have hconcludes := localize_asserted hg rfl rfl hresult
    refine ⟨result, hresult, ?_, ?_⟩
    · rw [hconcludes.outcome]
      decide +kernel
    · rw [hconcludes.candidates]
      decide +kernel

end CongestionObservatory
