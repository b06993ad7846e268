import CongestionObservatory.Proofs.Assessment.Decisive

/-!
# `CongestionObservatory.Proofs.Assessment.Citations`: what a confirmed assessment cites

The citations are the ids of the usable records of six roles, in ascending order, each once, and
cut to the bound. The order is that of the ids, so the record that decided the verdict may be cut
off: `mem_collectCitations_iff` says when an id is kept, and `confirmed_cites_proof_iff` when a
confirmed assessment cites an impairment.
-/

set_option autoImplicit false

namespace CongestionObservatory

open Lib

/-! ### The citations of a run -/

namespace RuleEngine

variable (e : RuleEngine Double)

@[simp] theorem step_citations (ruleId decision reasonCode : String) (a : CongestionAssessment) :
    (e.step ruleId decision reasonCode a).citations = a.citations := by
  unfold step
  split <;> rfl

@[simp] theorem block_citations (code detail : Text) (a : CongestionAssessment) :
    (block code detail a).citations = a.citations := by
  unfold block
  split
  · rfl
  · split <;> rfl

theorem ite_citations (c : Prop) [Decidable c] (x y : CongestionAssessment) :
    (if c then x else y).citations = if c then x.citations else y.citations := by
  split <;> rfl

theorem collectConflictBlockers_citations (a : CongestionAssessment) :
    (e.collectConflictBlockers a).citations = a.citations := by
  unfold collectConflictBlockers
  simp only [List.foldl_cons, List.foldl_nil, ite_citations, block_citations, step_citations,
    ite_self]

/-- An assessment has the citations that were collected. -/
theorem run_citations (citations : List EvidenceId) :
    (e.run citations).citations = citations := by
  unfold run finalize
  simp only [ite_citations, block_citations, collectConflictBlockers_citations, ite_self]

end RuleEngine

/-! ### What is collected -/

section Collected

variable (request : ClassificationRequest) (policy : ClassificationPolicy)
  (records : List (Option EvidenceRecord))

/-- The roles whose records are attached for citation. -/
def citedRoles : List EvidenceRole :=
  [.utilization, .pressure, .contention, .demand, .capacity, .impairment]

/-- The ids of the usable records of the cited roles. -/
def attachedIds : List EvidenceId :=
  (citedRoles.flatMap (usableOfRole request policy records)).map EvidenceRecord.id

/-- The attached ids below an id, each once. -/
def attachedBelow (id : EvidenceId) : Finset EvidenceId :=
  (attachedIds request policy records).toFinset.filter fun other => other < id

theorem collectCitations_eq :
    collectCitations request policy records
      = (sortUnique (attachedIds request policy records)).take request.maxCitations := rfl

variable {request policy records} {id : EvidenceId}

theorem mem_attachedIds_iff :
    id ∈ attachedIds request policy records ↔
      ∃ r ∈ usableRecords request policy records, roleOf r.kind ∈ citedRoles ∧ r.id = id := by
  rw [attachedIds, List.mem_map]
  constructor
  · rintro ⟨r, hr, rfl⟩
    obtain ⟨role, hrole, hr⟩ := List.mem_flatMap.mp hr
    obtain ⟨husable, heq⟩ := List.mem_filter.mp hr
    rw [decide_eq_true_eq] at heq
    exact ⟨r, husable, heq ▸ hrole, rfl⟩
  · rintro ⟨r, hr, hrole, rfl⟩
    refine ⟨r, List.mem_flatMap.mpr ⟨_, hrole, List.mem_filter.mpr ⟨hr, ?_⟩⟩, rfl⟩
    exact decide_eq_true rfl

/-- An id is cited when it is attached and fewer than the bound are below it. -/
theorem mem_collectCitations_iff :
    id ∈ collectCitations request policy records ↔
      id ∈ attachedIds request policy records ∧
        (attachedBelow request policy records id).card < request.maxCitations := by
  have hbelow : ∀ other, other ∈ attachedBelow request policy records id ↔
      other ∈ attachedIds request policy records ∧ other < id := by
    intro other
    rw [attachedBelow, Finset.mem_filter, List.mem_toFinset]
  have hascending := sortUnique_ascending (attachedIds request policy records)
  rw [collectCitations_eq, ← countP_sortUnique hbelow]
  constructor
  · intro h
    have hmem := List.mem_of_mem_take h
    exact ⟨mem_sortUnique.mp hmem, (mem_take_iff_of_ascending hascending hmem _).mp h⟩
  · rintro ⟨hmem, hcount⟩
    exact (mem_take_iff_of_ascending hascending (mem_sortUnique.mpr hmem) _).mpr hcount

end Collected

/-! ### The proof of a confirmed congestion -/

section Proof

variable (request : ClassificationRequest) (policy : ClassificationPolicy)
  (records : List (Option EvidenceRecord))

/-- The assessment cites usable records in strictly ascending order and within the bound, and one
of them is an impairment. -/
structure CitesProof (a : CongestionAssessment) : Prop where
  ascending : a.citations.Pairwise (· < ·)
  bounded : a.citations.length ≤ request.maxCitations
  usable : ∀ id ∈ a.citations, ∃ r ∈ usableRecords request policy records, r.id = id
  impairment : ∃ r ∈ usableImpairment request policy records, r.id ∈ a.citations

variable {request policy records} in
theorem citesProof_iff {a : CongestionAssessment}
    (ha : a.citations = collectCitations request policy records) :
    CitesProof request policy records a ↔
      ∃ r ∈ usableImpairment request policy records,
        (attachedBelow request policy records r.id).card < request.maxCitations := by
  have hattached : ∀ r ∈ usableImpairment request policy records,
      r.id ∈ attachedIds request policy records := by
    intro r hr
    obtain ⟨husable, hrole⟩ := List.mem_filter.mp hr
    rw [decide_eq_true_eq] at hrole
    exact mem_attachedIds_iff.mpr ⟨r, husable, hrole ▸ by decide, rfl⟩
  constructor
  · intro h
    obtain ⟨r, hr, hcited⟩ := h.impairment
    rw [ha, mem_collectCitations_iff] at hcited
    exact ⟨r, hr, hcited.2⟩
  · rintro ⟨r, hr, hbelow⟩
    refine ⟨?_, ?_, ?_, ⟨r, hr, ?_⟩⟩
    · rw [ha, collectCitations_eq]
      exact (sortUnique_ascending _).sublist (List.take_sublist _ _)
    · rw [ha, collectCitations_eq]
      exact List.length_take_le _ _
    · intro id hid
      rw [ha, mem_collectCitations_iff, mem_attachedIds_iff] at hid
      obtain ⟨⟨r, hr, -, hid⟩, -⟩ := hid
      exact ⟨r, hr, hid⟩
    · rw [ha, mem_collectCitations_iff]
      exact ⟨hattached r hr, hbelow⟩

/-- A confirmed assessment cites its proof exactly when the request is refused, the usable
impairments are not decisive, or fewer than `max_citations` attached ids are below the id of one
of them. -/
theorem confirmed_cites_proof_iff :
    (∀ a, classifySubject Double request records policy = .ok a → a.verdict = .congestionConfirmed →
      CitesProof request policy records a) ↔
    (ValidRequest request → Decisive Double policy (usableImpairment request policy records) →
      ∃ r ∈ usableImpairment request policy records,
        (attachedBelow request policy records r.id).card < request.maxCitations) := by
  by_cases hvalid : ValidRequest request
  swap
  · exact iff_of_true (fun a ha => absurd (validRequest_of_ok policy ha) hvalid)
      fun h => absurd h hvalid
  rw [classifySubject_valid policy hvalid]
  simp only [Except.ok.injEq, forall_eq', hvalid, true_implies, run_confirmed_iff]
  exact imp_congr_right fun _ => citesProof_iff (RuleEngine.run_citations _ _)

/-- A utilization whose id is below that of the dropped packet. -/
def lowUtilization : EvidenceRecord :=
  { linkObservation .linkUtilization { scalar := ⟨0x3FE0000000000000⟩, unit := .ratio } "agent2" 1
    with id := ⟨0, 1⟩ }

/-- A dropped packet with a greater id. -/
def highDrop : EvidenceRecord :=
  { linkObservation .dropCount
      { scalar := ⟨0x3FF0000000000000⟩, unit := .packets, semantics := .deltaCounter } "agent1" 2
    with id := ⟨0, 2⟩ }

/-- With room for one citation the utilization is cited and the dropped packet is not. -/
theorem dropped_packet_not_cited :
    let request := { linkRequest with maxCitations := 1 }
    let records := [some lowUtilization, some highDrop]
    ¬ ∀ a, classifySubject Double request records {} = .ok a → a.verdict = .congestionConfirmed →
      CitesProof request {} records a := by
  intro request records hclaim
  have hanswer : ((classifySubject Double request records {}).toOption.map fun a =>
      (decide (a.verdict = .congestionConfirmed), a.citations)) = some (true, [⟨0, 1⟩]) := by
    decide +kernel
  have himpairment : ∀ r ∈ usableImpairment request {} records, r.id ∉ [(⟨0, 1⟩ : EvidenceId)] := by
    decide +kernel
  cases hc : classifySubject Double request records {} with
  | error e =>
      rw [hc] at hanswer
      cases hanswer
  | ok a =>
      rw [hc] at hanswer
      simp only [Except.toOption, Option.map_some, Option.some.injEq, Prod.mk.injEq,
        decide_eq_true_eq] at hanswer
      obtain ⟨r, hr, hcited⟩ := (hclaim a hc hanswer.1).impairment
      rw [hanswer.2] at hcited
      exact himpairment r hr hcited

end Proof

end CongestionObservatory
