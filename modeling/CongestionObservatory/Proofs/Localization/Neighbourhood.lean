import CongestionObservatory.Proofs.Localization.Outcome

/-!
# `CongestionObservatory.Proofs.Localization.Neighbourhood`: what the candidates are

Every candidate is a subject within the depth, reported once and at its distance to the symptom, and
a subject beyond the depth shows in the flag. When decisive evidence is required, a candidate has a
record of its own that says something of its load (`localize_explores`).

The rules of a candidate should be those of its causal path. The traversal keeps the rule of one
edge for each subject, so they are exactly for a direct cause of the symptom (`rules_path_iff`).
-/

set_option autoImplicit false

namespace CongestionObservatory

open Lib

/-! ### The evidence of a candidate -/

/-- The record is a current observation of the subject, made in the window. -/
structure Current (request : LocalizationRequest) (policy : ClassificationPolicy)
    (node : EvidenceSubject) (record : EvidenceRecord) : Prop where
  subject : record.subject = node
  window : request.windowStart ≤ record.observedAt ∧ record.observedAt ≤ request.windowEnd
  recovered : record.recoveredFromSnapshot = false
  retired : record.retired = false
  supported : record.support ≠ .unsupported
  fresh : (assessFreshness record request.evaluatedAt policy.freshness).freshness = .fresh

/-- The roles that make a candidate decisive. -/
def isDecisiveRole (role : EvidenceRole) : Bool :=
  role == .demand || role == .pressure || role == .contention || role == .impairment

theorem countsFor_iff {request : LocalizationRequest} {policy : ClassificationPolicy}
    {node : EvidenceSubject} {record : EvidenceRecord} :
    countsFor request policy node record = true ↔ Current request policy node record := by
  unfold countsFor usableAsDecidingEvidence
  simp only [Bool.and_eq_true, beq_iff_eq, Bool.not_eq_true', Bool.or_eq_false_iff,
    decide_eq_false_iff_not, not_lt, beq_eq_false_iff_ne]
  constructor
  · rintro ⟨⟨⟨⟨hsubject, hwindow⟩, hrecovered, hretired⟩, hsupport⟩, hfresh⟩
    exact ⟨hsubject, hwindow, hrecovered, hretired, hsupport, hfresh⟩
  · rintro ⟨hsubject, hwindow, hrecovered, hretired, hsupport, hfresh⟩
    exact ⟨⟨⟨⟨hsubject, hwindow⟩, hrecovered, hretired⟩, hsupport⟩, hfresh⟩

namespace NodeEvidence

/-- Whether a record of the decisive role was seen. -/
def present (e : NodeEvidence) : EvidenceRole → Bool
  | .demand => e.demandPresent
  | .pressure => e.pressurePresent
  | .contention => e.contentionPresent
  | .impairment => e.impairmentPresent
  | _ => false

theorem present_observe (limits : Limits) (e : NodeEvidence) (record : EvidenceRecord)
    {role : EvidenceRole} (hrole : isDecisiveRole role = true) :
    (e.observe limits record).present role = (e.present role || roleOf record.kind == role) := by
  unfold observe observeRole
  cases role with
  | demand => cases roleOf record.kind <;> simp [present]
  | pressure => cases roleOf record.kind <;> simp [present]
  | contention => cases roleOf record.kind <;> simp [present]
  | impairment => cases roleOf record.kind <;> simp [present]
  | _ => cases hrole

theorem anyFresh_observe (limits : Limits) (e : NodeEvidence) (record : EvidenceRecord) :
    (e.observe limits record).anyFresh = true := by
  unfold observe observeRole
  cases roleOf record.kind <;> rfl

/-- What every record adds to a flag is in the flag at the end. -/
theorem foldl_flag (limits : Limits) {flag : NodeEvidence → Bool} {seen : EvidenceRecord → Bool}
    (h : ∀ e record, flag (e.observe limits record) = (flag e || seen record))
    (e : NodeEvidence) (records : List EvidenceRecord) :
    flag (records.foldl (observe limits) e) = (flag e || records.any seen) := by
  induction records generalizing e with
  | nil => simp
  | cons record rest ih => rw [List.foldl_cons, ih, h, List.any_cons, Bool.or_assoc]

/-- Decisive evidence is a decisive role that was seen. -/
theorem exists_present_of_decisive {e : NodeEvidence} (h : e.decisive = true) :
    ∃ role, isDecisiveRole role = true ∧ e.present role = true := by
  unfold decisive at h
  simp only [Bool.and_eq_true, Bool.or_eq_true] at h
  rcases h.2 with ((hdemand | hpressure) | hcontention) | himpairment
  · exact ⟨.demand, rfl, hdemand⟩
  · exact ⟨.pressure, rfl, hpressure⟩
  · exact ⟨.contention, rfl, hcontention⟩
  · exact ⟨.impairment, rfl, himpairment⟩

end NodeEvidence

section

variable {request : LocalizationRequest} {assessment : CongestionAssessment} {g : CausalGraph}
  {records : List (Option EvidenceRecord)} {policy : ClassificationPolicy}
  {localizationPolicy : LocalizationPolicy} {limits : Limits} {result : LocalizationResult}

/-- A flag of the evidence of a subject says that a current record adds to it. -/
theorem nodeEvidence_flag_iff {step : TraversalStep} {flag : NodeEvidence → Bool}
    {seen : EvidenceRecord → Bool}
    (hseen : ∀ e record, flag (e.observe limits record) = (flag e || seen record))
    (hstart : ∀ citations, flag { citations := citations } = false) :
    flag (nodeEvidence request assessment records policy limits step) = true ↔
      ∃ record, some record ∈ records ∧ Current request policy step.node record ∧
        seen record = true := by
  rw [nodeEvidence, NodeEvidence.foldl_flag limits hseen, hstart, Bool.false_or, List.any_eq_true]
  simp only [List.mem_filter, List.mem_filterMap, id, exists_eq_right, countsFor_iff, and_assoc]

theorem present_nodeEvidence_iff {step : TraversalStep} {role : EvidenceRole}
    (hrole : isDecisiveRole role = true) :
    (nodeEvidence request assessment records policy limits step).present role = true ↔
      ∃ record, some record ∈ records ∧ Current request policy step.node record ∧
        roleOf record.kind = role := by
  have hflag := @nodeEvidence_flag_iff request assessment records policy limits step
    (fun e => e.present role) _ (fun e record => e.present_observe limits record hrole)
    fun _ => by cases role <;> rfl
  simpa only [beq_iff_eq] using hflag

theorem anyFresh_nodeEvidence_iff {step : TraversalStep} :
    (nodeEvidence request assessment records policy limits step).anyFresh = true ↔
      ∃ record, some record ∈ records ∧ Current request policy step.node record := by
  have hseen : ∀ (e : NodeEvidence) record,
      (e.observe limits record).anyFresh = (e.anyFresh || true) :=
    fun e record => (e.anyFresh_observe limits record).trans (Bool.or_true _).symm
  simpa using nodeEvidence_flag_iff hseen fun _ => rfl

/-- Decisive evidence is a current record of a decisive role. -/
theorem exists_current_of_decisive {step : TraversalStep}
    (h : (nodeEvidence request assessment records policy limits step).decisive = true) :
    ∃ record, some record ∈ records ∧ Current request policy step.node record ∧
      isDecisiveRole (roleOf record.kind) = true := by
  obtain ⟨role, hrole, hpresent⟩ := NodeEvidence.exists_present_of_decisive h
  obtain ⟨record, hmem, hcurrent, rfl⟩ := (present_nodeEvidence_iff hrole).mp hpresent
  exact ⟨record, hmem, hcurrent, hrole⟩

/-! ### The candidates -/

/-- A candidate is a step of the traversal, with the evidence the policy asks for. -/
structure Reported (request : LocalizationRequest) (g : CausalGraph)
    (records : List (Option EvidenceRecord)) (policy : ClassificationPolicy)
    (localizationPolicy : LocalizationPolicy) (limits : Limits) (c : LocalizationCandidate)
    (step : TraversalStep) : Prop where
  reached : step ∈ scoredSteps request g localizationPolicy limits
  subject : c.subject = step.node
  depth : c.depth = step.depth
  rules : c.rules = [step.incomingRule]
  decisive : localizationPolicy.requireDecisiveEvidence = true → ∃ record, some record ∈ records ∧
    Current request policy step.node record ∧ isDecisiveRole (roleOf record.kind) = true

/-- A candidate is the score of a step of the traversal that was not passed over. -/
theorem exists_scored (hg : g.WellIndexed)
    (h : localize request g records policy localizationPolicy limits = .ok result)
    {c : LocalizationCandidate} (hc : c ∈ result.candidates) :
    ∃ assessment, ∃ step ∈ scoredSteps request g localizationPolicy limits,
      isStructuralOnly localizationPolicy
        (nodeEvidence request assessment records policy limits step) = false ∧
      c = toCandidate limits (nodeScore policy step
        (nodeEvidence request assessment records policy limits step)) := by
  cases hasked : request.assessment.filter CongestionAssessment.congestionAsserted with
  | none =>
      obtain ⟨-, hnone, -⟩ := localize_not_asserted hasked h
      rw [hnone] at hc
      cases hc
  | some assessment =>
      obtain ⟨hassessment, hasserted⟩ := Option.filter_eq_some_iff.mp hasked
      have hconcludes := localize_asserted hg hassessment hasserted h
      rw [hconcludes.candidates] at hc
      obtain ⟨score, hscore, rfl⟩ := List.mem_map.mp hc
      have hpool := (List.mem_insertionSort _).mp ((reported_qualifying_sublist _ _).subset hscore)
      obtain ⟨step, hstep, hkept, rfl⟩ := mem_candidatePool_iff.mp hpool
      exact ⟨assessment, step, hstep, hkept, rfl⟩

theorem exists_reported (hg : g.WellIndexed)
    (h : localize request g records policy localizationPolicy limits = .ok result)
    {c : LocalizationCandidate} (hc : c ∈ result.candidates) :
    ∃ step, Reported request g records policy localizationPolicy limits c step := by
  obtain ⟨assessment, step, hstep, hkept, rfl⟩ := exists_scored hg h hc
  obtain ⟨hsubject, hdepth, hrules⟩ := nodeScore_fields policy step
    (nodeEvidence request assessment records policy limits step)
  refine ⟨step, hstep, hsubject, hdepth, hrules, fun hrequired => ?_⟩
  rw [isStructuralOnly, hrequired, Bool.true_and, Bool.not_eq_false'] at hkept
  exact exists_current_of_decisive hkept

theorem nodup_candidates (hg : g.WellIndexed)
    (h : localize request g records policy localizationPolicy limits = .ok result) :
    (result.candidates.map LocalizationCandidate.subject).Nodup := by
  cases hasked : request.assessment.filter CongestionAssessment.congestionAsserted with
  | none =>
      rw [(localize_not_asserted hasked h).2.1]
      exact List.nodup_nil
  | some assessment =>
      obtain ⟨hassessment, hasserted⟩ := Option.filter_eq_some_iff.mp hasked
      have hconcludes := localize_asserted hg hassessment hasserted h
      have hperm := List.perm_insertionSort (fun lhs rhs => rankKey lhs ≤ rankKey rhs)
        (candidatePool request assessment g records policy localizationPolicy limits)
      rw [hconcludes.candidates, List.map_map]
      show ((reported localizationPolicy _).map NodeScore.subject).Nodup
      exact ((hperm.map NodeScore.subject).nodup_iff.mpr (nodup_candidatePool hg)).sublist
        ((reported_qualifying_sublist _ _).map _)

end

/-! ### The neighbourhood -/

/-- The candidate is a node within the bound, at its distance to the symptom, with a record of its
own that is current and of a decisive role. -/
structure Explored (request : LocalizationRequest) (g : CausalGraph)
    (records : List (Option EvidenceRecord)) (policy : ClassificationPolicy) (bound : Nat)
    (c : LocalizationCandidate) : Prop where
  node : g.hasNode c.subject = true
  other : c.subject ≠ request.symptom
  distance : BreadthFirst.Distance g.CausedBy request.symptom c.subject c.depth
  positive : 1 ≤ c.depth
  bounded : c.depth ≤ bound
  backed : ∃ record, some record ∈ records ∧ Current request policy c.subject record ∧
    isDecisiveRole (roleOf record.kind) = true

/-- A subject at a distance from the symptom is the origin of an edge. -/
theorem hasNode_of_distance {g : CausalGraph} (hg : g.WellIndexed) {symptom node : EvidenceSubject}
    {d : Nat} (h : BreadthFirst.Distance g.CausedBy symptom node d) (hpos : 1 ≤ d) :
    g.hasNode node = true := by
  obtain ⟨n, rfl⟩ := Nat.exists_eq_add_of_le' hpos
  obtain ⟨effect, -, edge, hedge, -, rfl⟩ := h.1
  exact (CausalGraph.hasNode_of_mem hg hedge).1

/-- For an asserted symptom and a policy that requires decisive evidence, the loop of the traversal
ends on every graph, and every result reports explored nodes, each once, and sets the flag when a
node is beyond the depth. -/
theorem localize_explores (calls : List GraphCall) {request : LocalizationRequest}
    {assessment : CongestionAssessment} {records : List (Option EvidenceRecord)}
    {policy : ClassificationPolicy} {localizationPolicy : LocalizationPolicy} {limits : Limits}
    (hassessment : request.assessment = some assessment)
    (hasserted : assessment.congestionAsserted = true)
    (hrequired : localizationPolicy.requireDecisiveEvidence = true) :
    (traverse (.built calls) (searchDepth localizationPolicy limits) request.symptom).queue = [] ∧
    ∀ result, localize request (.built calls) records policy localizationPolicy limits = .ok result →
      (∀ c ∈ result.candidates, Explored request (.built calls) records policy
        (searchDepth localizationPolicy limits) c) ∧
      (result.candidates.map LocalizationCandidate.subject).Nodup ∧
      ((∃ node d, BreadthFirst.Distance (CausalGraph.built calls).CausedBy request.symptom node d ∧
        searchDepth localizationPolicy limits < d) → result.depthLimited = true) := by
  have hg := CausalGraph.wellIndexed_built calls
  refine ⟨queue_traverse hg, fun result h => ⟨fun c hc => ?_, nodup_candidates hg h, ?_⟩⟩
  · obtain ⟨step, hreported⟩ := exists_reported hg h hc
    obtain ⟨hdistance, hpos, hle⟩ := distance_of_reached hg hreported.reached
    have hother := ((mem_reachedSteps_iff hg).mp hreported.reached).2
    have hbacked := hreported.decisive hrequired
    rw [← hreported.subject] at hdistance hother hbacked
    rw [← hreported.depth] at hdistance hpos hle
    exact ⟨hasNode_of_distance hg hdistance hpos, hother, hdistance, hpos, hle, hbacked⟩
  · rintro ⟨node, d, hdistance, hd⟩
    rw [(localize_asserted hg hassessment hasserted h).depthLimited]
    exact depthLimited_of_distance hg hdistance hd

/-- A cycle through the symptom, with a chain into it. -/
def cycle : List GraphCall :=
  [causes (queueNamed "a") (queueNamed "s") "r1", causes (queueNamed "b") (queueNamed "a") "r2",
    causes (queueNamed "s") (queueNamed "b") "r3"]

/-- The two candidates of the cycle, the symptom being none. -/
theorem cycle_candidates {result : LocalizationResult}
    (h : localize symptomRequest (.built cycle) twoRecords {} {} {} = .ok result) :
    result.candidates.map (fun c => (c.subject, c.depth, c.rules))
      = [(queueNamed "a", 1, [ascii "r1"]), (queueNamed "b", 2, [ascii "r2"])] := by
  rw [(localize_asserted (CausalGraph.wellIndexed_built cycle) rfl rfl h).candidates]
  decide +kernel

theorem cycle_explored : ∃ result,
    localize symptomRequest (.built cycle) twoRecords {} {} {} = .ok result ∧
      result.candidates.length = 2 ∧
      ∀ c ∈ result.candidates, Explored symptomRequest (.built cycle) twoRecords {} 6 c := by
  obtain ⟨result, hresult⟩ := @exists_localize symptomRequest (.built cycle) twoRecords {} {} {}
    (by decide +kernel)
  have hexplored := (@localize_explores cycle symptomRequest assertion twoRecords {} {} {} rfl rfl
    rfl).2 result hresult
  have hlength := congrArg List.length (cycle_candidates hresult)
  rw [List.length_map] at hlength
  exact ⟨result, hresult, hlength, hexplored.1⟩

/-! ### The rules -/

/-- The edges lead, one after the other, from the effect up to the cause. -/
def CausalGraph.PathUp (g : CausalGraph) : EvidenceSubject → List CausalEdge → EvidenceSubject → Prop
  | effect, [], cause => cause = effect
  | effect, edge :: edges, cause =>
    edge ∈ g.edges.values ∧ edge.to_ = effect ∧ g.PathUp edge.from_ edges cause

/-- The rules of a candidate are those of a path from the symptom up to it, as long as it is
deep. -/
def RulesPath (g : CausalGraph) (symptom : EvidenceSubject) (c : LocalizationCandidate) : Prop :=
  c.rules.length = c.depth ∧
    ∃ path : List CausalEdge, g.PathUp symptom path c.subject ∧ path.length = c.depth ∧
      path.map CausalEdge.ruleId = c.rules

/-- A scored step goes along an edge, from an entry that is one less deep. -/
theorem exists_edge_of_scored {g : CausalGraph} (hg : g.WellIndexed) {symptom : EvidenceSubject}
    {maxDepth : Nat} {step : TraversalStep}
    (hstep : step ∈ reachedSteps (traverse g maxDepth symptom)) :
    ∃ parent ∈ (wholeSearch g maxDepth symptom).seen, ∃ edge ∈ g.edges.values,
      edge.to_ = parent.node ∧ step = parent.along edge := by
  obtain ⟨hseen, hother⟩ := (mem_reachedSteps_iff hg).mp hstep
  have hsearch := @searching g maxDepth symptom hg (g.edges.size + 1)
  rcases hsearch.found step hseen with rfl | ⟨parent, hparent, -, hfrom⟩
  · exact absurd rfl hother
  obtain ⟨edge, hedge, rfl⟩ := List.mem_map.mp hfrom
  obtain ⟨hmem, hto⟩ := (CausalGraph.mem_inEdges_iff hg).mp hedge
  exact ⟨parent, List.mem_append_left _ hparent, edge, hmem, hto, rfl⟩

/-- The rule of a direct cause is that of an edge to the symptom. -/
theorem exists_edge_of_depth_one {g : CausalGraph} (hg : g.WellIndexed)
    {symptom : EvidenceSubject} {maxDepth : Nat} {step : TraversalStep}
    (hstep : step ∈ reachedSteps (traverse g maxDepth symptom)) (hdepth : step.depth = 1) :
    ∃ edge ∈ g.edges.values, edge.to_ = symptom ∧ edge.from_ = step.node ∧
      edge.ruleId = step.incomingRule := by
  obtain ⟨parent, hparent, edge, hmem, hto, rfl⟩ := exists_edge_of_scored hg hstep
  -- Only the symptom is at depth zero.
  have hroot : parent.node = symptom := by
    have hpath := (@searching g maxDepth symptom hg (g.edges.size + 1)).sound parent hparent
    rw [show parent.depth = 0 from Nat.succ.inj hdepth] at hpath
    exact hpath
  exact ⟨edge, hmem, hto.trans hroot, rfl, rfl⟩

theorem Reported.rulesPath_iff {request : LocalizationRequest} {g : CausalGraph}
    (hg : g.WellIndexed) {records : List (Option EvidenceRecord)} {policy : ClassificationPolicy}
    {localizationPolicy : LocalizationPolicy} {limits : Limits} {c : LocalizationCandidate}
    {step : TraversalStep}
    (h : Reported request g records policy localizationPolicy limits c step) :
    RulesPath g request.symptom c ↔ g.CausedBy request.symptom c.subject := by
  obtain ⟨hdistance, hpos, -⟩ := distance_of_reached hg h.reached
  constructor
  · -- There is only one rule, so the path has one edge.
    rintro ⟨hlength, path, hpath, hpathLength, -⟩
    rw [h.rules] at hlength
    rw [← hlength] at hpathLength
    obtain ⟨edge, rfl⟩ := List.length_eq_one_iff.mp hpathLength
    obtain ⟨hedge, hto, hfrom⟩ := hpath
    exact ⟨edge, hedge, hto, hfrom.symm⟩
  · rintro hcaused
    rw [h.subject] at hcaused
    have hshort : step.depth ≤ 1 := hdistance.2 ⟨request.symptom, rfl, hcaused⟩
    have hone : step.depth = 1 := Nat.le_antisymm hshort hpos
    obtain ⟨edge, hedge, hto, hfrom, hrule⟩ := exists_edge_of_depth_one hg h.reached hone
    rw [RulesPath, h.rules, h.depth, h.subject, hone, ← hto, ← hfrom, ← hrule]
    exact ⟨rfl, [edge], ⟨hedge, rfl, rfl⟩, rfl, rfl⟩

/-- The rules of a reported candidate are those of a causal path exactly when the candidate is a
direct cause of the symptom. -/
theorem rules_path_iff (calls : List GraphCall) {request : LocalizationRequest}
    {records : List (Option EvidenceRecord)} {policy : ClassificationPolicy}
    {localizationPolicy : LocalizationPolicy} {limits : Limits} {result : LocalizationResult}
    (h : localize request (.built calls) records policy localizationPolicy limits = .ok result)
    {c : LocalizationCandidate} (hc : c ∈ result.candidates) :
    RulesPath (.built calls) request.symptom c ↔
      (CausalGraph.built calls).CausedBy request.symptom c.subject := by
  have hg := CausalGraph.wellIndexed_built calls
  obtain ⟨step, hreported⟩ := exists_reported hg h hc
  exact hreported.rulesPath_iff hg

theorem cycle_direct_cause : ∃ result,
    localize symptomRequest (.built cycle) twoRecords {} {} {} = .ok result ∧
      ∃ c ∈ result.candidates, RulesPath (.built cycle) symptomRequest.symptom c := by
  obtain ⟨result, hresult⟩ := @exists_localize symptomRequest (.built cycle) twoRecords {} {} {}
    (by decide +kernel)
  obtain ⟨c, rest, hcandidates, hc, -⟩ := List.map_eq_cons_iff.mp (cycle_candidates hresult)
  have hmem : c ∈ result.candidates := by simp [hcandidates]
  refine ⟨result, hresult, c, hmem, (rules_path_iff cycle hresult hmem).mpr ?_⟩
  rw [(Prod.mk.inj hc).1]
  unfold CausalGraph.CausedBy
  decide +kernel

/-- The second candidate is two edges away and has one rule. -/
theorem cycle_distant_cause : ∃ result,
    localize symptomRequest (.built cycle) twoRecords {} {} {} = .ok result ∧
      ∃ c ∈ result.candidates, c.depth = 2 ∧ c.rules = [ascii "r2"] ∧
        ¬ RulesPath (.built cycle) symptomRequest.symptom c := by
  obtain ⟨result, hresult⟩ := @exists_localize symptomRequest (.built cycle) twoRecords {} {} {}
    (by decide +kernel)
  obtain ⟨near, rest, hcandidates, -, hrest⟩ := List.map_eq_cons_iff.mp (cycle_candidates hresult)
  obtain ⟨c, others, rfl, hc, -⟩ := List.map_eq_cons_iff.mp hrest
  simp only [Prod.mk.injEq] at hc
  obtain ⟨-, hdepth, hrules⟩ := hc
  refine ⟨result, hresult, c, by simp [hcandidates], hdepth, hrules, fun hpath => ?_⟩
  have hlength := hpath.1
  rw [hdepth, hrules] at hlength
  cases hlength

end CongestionObservatory
