import CongestionObservatory.Proofs.Assessment.Decisive

/-!
# `CongestionObservatory.Proofs.Assessment.Idle`: what a verdict of idleness rests on

`kIdle` is where the rules end when none of them applies. They get there as soon as one record is
usable, whatever its role: `assessRules_idle` for a window without load evidence, and
`assessRules_not_idle` for one without usable records. `idle_rests_on_load_iff` says when the
verdict rests on a record about the load.
-/

set_option autoImplicit false

namespace CongestionObservatory

open Lib

/-- The roles that say something about the load of the subject. -/
def loadRoles : List EvidenceRole := [.utilization, .demand, .pressure, .contention, .impairment]

/-! ### The rules -/

namespace RuleEngine

variable {e : RuleEngine Double} {a : CongestionAssessment}

/-- The features show no load. -/
structure NoLoad (f : FeatureSnapshot) : Prop where
  utilization : f.utilizationPresent = false
  attention : f.utilizationExceedsAttention = false
  high : f.utilizationExceedsHigh = false
  pressure : f.pressurePresent = false
  ratio : f.pressureExceedsRatio = false
  contention : f.contentionPresent = false
  demand : f.demandPresent = false
  impairment : f.impairmentPresent = false

/-- Without load the rules from R04 on end in R09. -/
theorem rulesFromImpairment_idle (h : NoLoad e.features) :
    (e.rulesFromImpairment a).verdict = .idle := by
  have hdecisive : e.impairmentIsDecisive = false := by
    rw [impairmentIsDecisive, h.impairment, Bool.false_and]
  have hcontention : ∀ b, (e.rulesFromContention b).verdict = .idle := by
    intro b
    unfold rulesFromContention
    simp [h.contention, h.attention, h.high, h.utilization]
  have hsaturation : ∀ b, (e.rulesFromSaturation b).verdict = .idle := by
    intro b
    unfold rulesFromSaturation
    simp [h.demand, h.ratio, h.pressure, hcontention]
  unfold rulesFromImpairment
  dsimp only
  rw [if_neg (by simp [hdecisive])]
  exact hsaturation _

/-- A window with a usable record and no load is idle. -/
theorem assessRules_idle (h : NoLoad e.features) (hwindow : e.features.recordsInWindow ≠ 0)
    (hgeneration : e.features.recordsGenerationMismatch ≠ e.features.recordsInWindow)
    (hsupport : e.features.unsupportedRecords ≠ e.features.recordsInWindow)
    (hfresh : e.features.anyFreshDeciding = true) : (e.assessRules a).verdict = .idle := by
  have hfreshness : ∀ b, (e.rulesFromFreshness b).verdict = .idle := by
    intro b
    unfold rulesFromFreshness
    dsimp only
    rw [if_neg (by simp [hfresh])]
    exact rulesFromImpairment_idle h
  have hsupported : ∀ b, (e.rulesFromSupport b).verdict = .idle := by
    intro b
    unfold rulesFromSupport
    dsimp only
    split
    · exact hfreshness _
    · exact hfreshness _
  unfold assessRules rulesFromGeneration
  rw [if_neg hwindow]
  dsimp only
  split
  · exact hsupported _
  · exact hsupported _

/-- A window without a usable record is not idle. -/
theorem assessRules_not_idle (hfresh : e.features.anyFreshDeciding = false) :
    (e.assessRules a).verdict ≠ .idle := by
  have hfreshness : ∀ b, (e.rulesFromFreshness b).verdict = .indeterminate := by
    intro b
    unfold rulesFromFreshness
    simp only [hfresh]
    -- Each of the four reports keeps the verdict that was set before it.
    show (e.collectConflictBlockers _).verdict = _
    rw [collectConflictBlockers_verdict]
    repeat' split
    all_goals rw [step_verdict, block_verdict]
  have hsupported : ∀ b, (e.rulesFromSupport b).verdict = .indeterminate := by
    intro b
    unfold rulesFromSupport
    dsimp only
    split
    · split
      · rfl
      · exact hfreshness _
    · exact hfreshness _
  unfold assessRules rulesFromGeneration
  split
  · show (e.step _ _ _ _).verdict ≠ _
    rw [step_verdict, block_verdict]
    exact Verdict.noConfusion
  · dsimp only
    split
    · split
      · exact Verdict.noConfusion
      · rw [hsupported]
        exact Verdict.noConfusion
    · rw [hsupported]
      exact Verdict.noConfusion

end RuleEngine

/-! ### The verdict -/

section Verdict

variable (request : ClassificationRequest) (policy : ClassificationPolicy)
  (records : List (Option EvidenceRecord))

/-- `classify_subject` returns `kIdle`. -/
def Idle : Prop := ∃ a, classifySubject Double request records policy = .ok a ∧ a.verdict = .idle

/-- Some record is usable, and no usable record has a role that says something about the load:
all are of role capacity, topology, liveness or unknown. -/
def OnlyContext : Prop :=
  usableRecords request policy records ≠ [] ∧
    ∀ r ∈ usableRecords request policy records,
      roleOf r.kind ∈ [EvidenceRole.capacity, .topology, .liveness, .unknown]

theorem mem_loadRoles_iff (role : EvidenceRole) :
    role ∈ loadRoles ↔ role ∉ [EvidenceRole.capacity, .topology, .liveness, .unknown] := by
  cases role <;> decide

/-- Without usable records of these roles the features show no load. -/
theorem noLoad_of_onlyContext (h : OnlyContext request policy records) :
    RuleEngine.NoLoad (extractFeatures Double request records policy) := by
  have hempty : ∀ role ∈ loadRoles, usableOfRole request policy records role = [] := by
    intro role hrole
    refine List.filter_eq_nil_iff.mpr fun r hr => ?_
    have hcontext := h.2 r hr
    rw [decide_eq_true_eq]
    intro heq
    exact (mem_loadRoles_iff role).mp hrole (heq ▸ hcontext)
  have hutilization := hempty .utilization (by decide)
  have hdemand := hempty .demand (by decide)
  have hpressure := hempty .pressure (by decide)
  have hcontention := hempty .contention (by decide)
  have himpairment := hempty .impairment (by decide)
  unfold extractFeatures impairmentFeatures
  dsimp only
  rw [hutilization, hdemand, hpressure, hcontention, himpairment, if_pos rfl]
  exact ⟨rfl, rfl, rfl, rfl, rfl, rfl, rfl, rfl⟩

variable {request} in
theorem idle_iff (h : ValidRequest request) :
    Idle request policy records ↔
      ((engineOf Double request policy records).run
        (collectCitations request policy records)).verdict = .idle := by
  unfold Idle
  rw [classifySubject_valid policy h]
  simp only [Except.ok.injEq, exists_eq_left']

variable {request} in
/-- A window of usable records that say nothing about the load is reported as idle. -/
theorem idle_of_onlyContext (h : ValidRequest request)
    (hcontext : OnlyContext request policy records) : Idle request policy records := by
  obtain ⟨r, hr⟩ := List.exists_mem_of_ne_nil _ hcontext.1
  obtain ⟨hwindow, hgeneration, hsupport⟩ := early_rules_of_usable policy hr
  rw [idle_iff policy records h]
  unfold RuleEngine.run
  rw [(RuleEngine.finalize_verdict _ _ _).1]
  apply RuleEngine.assessRules_idle (noLoad_of_onlyContext request policy records hcontext)
  · exact features_recordsInWindow Double request policy records ▸ hwindow
  · show (extractFeatures Double request records policy).recordsGenerationMismatch ≠ _
    rw [features_recordsGenerationMismatch]
    exact features_recordsInWindow Double request policy records ▸ hgeneration
  · show (extractFeatures Double request records policy).unsupportedRecords ≠ _
    rw [features_unsupportedRecords]
    exact features_recordsInWindow Double request policy records ▸ hsupport
  · show (extractFeatures Double request records policy).anyFreshDeciding = true
    rw [features_anyFreshDeciding]
    simpa using hcontext.1

/-- An idle subject has a usable record. -/
theorem usable_of_idle (h : Idle request policy records) :
    usableRecords request policy records ≠ [] := by
  intro hnil
  have hvalid : ValidRequest request := by
    obtain ⟨a, ha, -⟩ := h
    exact validRequest_of_ok policy ha
  rw [idle_iff policy records hvalid] at h
  unfold RuleEngine.run at h
  rw [(RuleEngine.finalize_verdict _ _ _).1] at h
  refine RuleEngine.assessRules_not_idle ?_ h
  show (extractFeatures Double request records policy).anyFreshDeciding = false
  rw [features_anyFreshDeciding, hnil]
  rfl

/-- An idle verdict rests on a usable record about the load exactly when the request is refused or
the usable records are not all of a role that says nothing about it. -/
theorem idle_rests_on_load_iff :
    (Idle request policy records →
      ∃ r ∈ usableRecords request policy records, roleOf r.kind ∈ loadRoles) ↔
    (ValidRequest request → ¬ OnlyContext request policy records) := by
  constructor
  · intro hclaim hvalid hcontext
    obtain ⟨r, hr, hrole⟩ := hclaim (idle_of_onlyContext policy records hvalid hcontext)
    exact (mem_loadRoles_iff _).mp hrole (hcontext.2 r hr)
  · intro hmixed hidle
    have hvalid : ValidRequest request := by
      obtain ⟨a, ha, -⟩ := hidle
      exact validRequest_of_ok policy ha
    by_contra hnone
    refine hmixed hvalid ⟨usable_of_idle request policy records hidle, fun r hr => ?_⟩
    by_contra hrole
    exact hnone ⟨r, hr, (mem_loadRoles_iff _).mpr hrole⟩

/-- A link of which only a heartbeat of its source is known is reported as idle. -/
theorem heartbeat_is_idle :
    let records := [some (linkObservation .sourceHeartbeat { unit := .count } "agent1" 1)]
    ¬ (Idle linkRequest {} records →
      ∃ r ∈ usableRecords linkRequest {} records, roleOf r.kind ∈ loadRoles) := by
  intro records hclaim
  obtain ⟨r, hr, hrole⟩ := hclaim (idle_of_onlyContext {} records linkRequest_valid (by
    unfold OnlyContext
    decide +kernel))
  have hnone : ∀ r ∈ usableRecords linkRequest {} records, roleOf r.kind ∉ loadRoles := by
    decide +kernel
  exact hnone r hr hrole

end Verdict

end CongestionObservatory
