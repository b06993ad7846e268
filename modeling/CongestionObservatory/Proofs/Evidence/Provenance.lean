import CongestionObservatory.Proofs.Evidence.Fencing

/-!
# `CongestionObservatory.Proofs.Evidence.Provenance`: where a retained record comes from

`Vouched` ties every retained record to the history of the run. A record that was not recovered
from a snapshot is the stored copy of a record that `ingest` accepted. If it is not retired
either, its source has not rebooted since: it has the boot and the incarnation of the last record
accepted from that source. A reboot retires the older records of the source, and everything else
only removes records or adds recovered ones.

A sweep moves the records it keeps. `Vouched` is kept by sweeps whose self-moves leave a record as
it is (`Transfers`).
-/

set_option autoImplicit false

namespace CongestionObservatory

open Lib

namespace EvidenceStore

/-! ### The retained records after an operation -/

theorem mem_records_of_bucket {s : EvidenceStore} {key : Name} {r : EvidenceRecord}
    (h : r ∈ s.bucket key) : r ∈ s.records := by
  unfold bucket at h
  cases hfind : s.bySubject.find? key with
  | none =>
      rw [hfind] at h
      cases h
  | some b =>
      rw [hfind] at h
      exact mem_records.mpr ⟨(key, b), OrdMap.find?_eq_some_iff.mp hfind, h⟩

/-- A bucket that is replaced by a part of it loses records and gains none. -/
theorem mem_records_insert {s : EvidenceStore} {key : Name} {bucket : List EvidenceRecord}
    {r : EvidenceRecord}
    (h : r ∈ ({ s with bySubject := s.bySubject.insert key bucket } : EvidenceStore).records) :
    r ∈ bucket ∨ r ∈ s.records := by
  obtain ⟨e, he, hr⟩ := mem_records.mp h
  rcases OrdMap.mem_insert he with rfl | he
  · exact Or.inl hr
  · exact Or.inr (mem_records.mpr ⟨e, he, hr⟩)

theorem records_evictOldest {s : EvidenceStore} {r : EvidenceRecord}
    (h : r ∈ s.evictOldest.2.records) : r ∈ s.records := by
  unfold evictOldest at h
  split at h
  · split at h
    · exact h
    · rcases mem_records_insert h with hr | hr
      · exact mem_records_of_bucket (List.mem_of_mem_tail hr)
      · exact hr
  · exact h

theorem records_evictFromSubject {s : EvidenceStore} {key : Name} {r : EvidenceRecord}
    (h : r ∈ (s.evictFromSubject key).2.records) : r ∈ s.records := by
  unfold evictFromSubject at h
  split at h
  · rename_i front rest hbucket
    split at h
    · rcases mem_records_insert h with hr | hr
      · have hmem : r ∈ s.bucket key := by
          rw [hbucket]
          exact List.mem_cons_of_mem _ hr
        exact mem_records_of_bucket hmem
      · exact hr
    · exact h
  · rcases mem_records_insert h with hr | hr
    · cases hr
    · exact hr

/-- An admission adds the stamped record, and may drop others. -/
theorem records_admitLocked {s s' : EvidenceStore} {record : EvidenceRecord} {recovered : Bool}
    {evicted : Nat} (h : s.admitLocked record recovered = .ok (evicted, s')) {r : EvidenceRecord}
    (hr : r ∈ s'.records) : r = s.stamp record recovered ∨ r ∈ s.records := by
  obtain ⟨-, -, rfl⟩ := admitLocked_ok h
  have hroom : ∀ {r}, r ∈ (s.makeRoom (Name.unchecked record.subject.str)).2.records →
      r ∈ s.records := by
    intro r hr
    unfold makeRoom at hr
    have hold := records_evictOldest (records_evictFromSubject hr)
    exact hold
  rcases mem_records_insert hr with hr | hr
  · rcases List.mem_append.mp hr with hr | hr
    · exact Or.inr (hroom (mem_records_of_bucket hr))
    · exact Or.inl (List.mem_singleton.mp hr)
  · exact Or.inr (hroom hr)

/-- The admitted record is retained. -/
theorem stamp_mem_records {s s' : EvidenceStore} {record : EvidenceRecord} {recovered : Bool}
    {evicted : Nat} (h : s.admitLocked record recovered = .ok (evicted, s')) :
    s.stamp record recovered ∈ s'.records := by
  obtain ⟨-, -, rfl⟩ := admitLocked_ok h
  refine mem_records.mpr ⟨_, OrdMap.find?_eq_some_iff.mp (OrdMap.find?_insert_self _ _ _), ?_⟩
  exact List.mem_append_right _ (List.mem_singleton_self _)

/-- Retiring marks the records of the source when the fence resets its liveness. -/
theorem records_retireOnReset {s : EvidenceStore} {fence : FenceOutcome} {source : Name}
    {r : EvidenceRecord} (h : r ∈ (s.retireOnReset fence source).records) :
    (∃ old ∈ s.records, r = { old with retired := true }) ∨
      r ∈ s.records ∧ (fence.livenessReset = true → r.provenance.source.name ≠ source) := by
  unfold retireOnReset at h
  split at h
  · obtain ⟨e, he, hr⟩ := mem_records.mp h
    obtain ⟨e', he', rfl⟩ := List.mem_map.mp he
    obtain ⟨old, hold, rfl⟩ := List.mem_map.mp hr
    have hmem : old ∈ s.records := mem_records.mpr ⟨e', he', hold⟩
    split
    · exact Or.inl ⟨old, hmem, rfl⟩
    · rename_i hne
      exact Or.inr ⟨hmem, fun _ => hne⟩
  · rename_i hreset
    exact Or.inr ⟨h, fun htrue => absurd htrue hreset⟩

/-- The loop of a sweep over one bucket keeps some of its records as they are. -/
theorem mem_sweepBucket (horizon : Timestamp) (maxRecords : Nat) (bucket : List EvidenceRecord) :
    ∀ (shifted : Bool) (st : SweepState), ∀ r ∈
      (sweepBucket SelfMove.transfer horizon maxRecords shifted st bucket).2, r ∈ bucket := by
  induction bucket with
  | nil =>
      intro shifted st r hr
      cases hr
  | cons first rest ih =>
      intro shifted st r hr
      have hkeep : ∀ x : EvidenceRecord,
          (if shifted then x else SelfMove.transfer.apply x) = x := by
        intro x
        split <;> rfl
      rw [sweepBucket] at hr
      simp only [hkeep, List.map_id'] at hr
      split at hr
      · exact hr
      split at hr
      · exact hr
      split at hr
      · exact List.mem_cons_of_mem _ (ih _ _ r hr)
      · rcases List.mem_cons.mp hr with rfl | hr
        · exact List.mem_cons_self
        · exact List.mem_cons_of_mem _ (ih _ _ r hr)

theorem records_sweep {s : EvidenceStore} {horizon : Timestamp} {maxRecords : Nat}
    {token : CancellationToken} {r : EvidenceRecord}
    (h : r ∈ (s.sweep SelfMove.transfer horizon maxRecords token).2.records) : r ∈ s.records := by
  rcases sweep_cases s SelfMove.transfer horizon maxRecords token with ⟨-, heq⟩ | ⟨-, stats, heq⟩
  · rwa [heq] at h
  · rw [heq] at h
    obtain ⟨e, he, hr⟩ := mem_records.mp h
    have hbucket : ∀ (st : SweepState) (_ : Name) (bucket : List EvidenceRecord),
        (if st.cancelled then (st, bucket)
          else sweepBucket SelfMove.transfer horizon maxRecords false st bucket).2 ⊆ bucket := by
      intro st _ bucket
      split
      · exact fun x hx => hx
      · exact mem_sweepBucket horizon maxRecords bucket false st
    obtain ⟨bucket, hmem, hsub⟩ :=
      OrdMap.mapAccumList_related (R := fun v v' => v' ⊆ v) hbucket _ _ e he
    exact mem_records.mpr ⟨_, hmem, hsub hr⟩

/-! ### The invariant -/

/-- The record is the stored copy of an accepted one. Only the identity, the insertion number and
the retired flag are the store's own. -/
def StoredAs (accepted r : EvidenceRecord) : Prop :=
  r = { accepted with
    id := computeEvidenceId accepted
    insertionIndex := r.insertionIndex
    retired := r.retired }

/-- The record has the boot and the incarnation of the address. -/
def SameBoot (r : EvidenceRecord) (last : FenceVector) : Prop :=
  r.fence.boot = last.boot ∧ r.fence.incarnation = last.incarnation

/-- Every record that was not recovered was accepted in the history, and is from the last boot of
its source unless it is retired. -/
structure Vouched (history : List (Call × Reply)) (s : EvidenceStore) : Prop where
  accepted : ∀ r ∈ s.records, r.recoveredFromSnapshot = false →
    ∃ a ∈ acceptedRecords history, StoredAs a r
  current : ∀ r ∈ s.records, r.recoveredFromSnapshot = false → r.retired = false →
    ∃ last, (acceptedFences r.provenance.source history).getLast? = some last ∧ SameBoot r last

/-- A call that sweeps leaves the records it moves onto themselves as they are. -/
def Transfers : Call → Prop
  | .sweep move _ _ _ => move = SelfMove.transfer
  | _ => True

theorem vouched_init (limits : Limits) : Vouched [] { limits := limits } := by
  have hnone : ∀ r, r ∉ ({ limits := limits } : EvidenceStore).records := fun r hr => by
    simp [records, OrdMap.values, OrdMap.empty] at hr
  exact ⟨fun r hr => absurd hr (hnone r), fun r hr => absurd hr (hnone r)⟩

/-- A call that accepts nothing and adds only recovered records keeps the invariant. -/
theorem Vouched.keep {history : List (Call × Reply)} {s s' : EvidenceStore}
    (h : Vouched history s) {entry : Call × Reply} (hnone : acceptedRecord entry = none)
    (hold : ∀ r ∈ s'.records, r.recoveredFromSnapshot = false →
      (∃ old ∈ s.records, r = { old with retired := true }) ∨ r ∈ s.records) :
    Vouched (history ++ [entry]) s' := by
  have hrecords := acceptedRecords_append_none history hnone
  have hfences : ∀ source, acceptedFences source (history ++ [entry])
      = acceptedFences source history := fun source => by rw [acceptedFences, hrecords]; rfl
  refine ⟨fun r hr hlive => ?_, fun r hr hlive hcurrent => ?_⟩
  · rw [hrecords]
    rcases hold r hr hlive with ⟨old, hmem, rfl⟩ | hmem
    · obtain ⟨a, ha, heq⟩ := h.accepted old hmem hlive
      refine ⟨a, ha, ?_⟩
      unfold StoredAs at heq ⊢
      rw [heq]
    · exact h.accepted r hmem hlive
  · rw [hfences]
    rcases hold r hr hlive with ⟨old, hmem, rfl⟩ | hmem
    · cases hcurrent
    · exact h.current r hmem hlive hcurrent

/-- A stored record joins, and the other records of its source are from the same boot or were
retired with it. -/
theorem Vouched.store {history : List (Call × Reply)} {s : EvidenceStore}
    (h : Vouched history s) (hfence : FenceHistory history s) {entry : Call × Reply}
    {record : EvidenceRecord} {policy : IngestPolicy} {s' : EvidenceStore}
    (hsome : acceptedRecord entry = some record)
    (haccepted : (s.fenceOf record policy).accepted = true)
    (hrecords : ∀ r ∈ s'.records, (∃ i, r = { record with
        id := computeEvidenceId record, insertionIndex := i }) ∨
      r ∈ (s.retireOnReset (s.fenceOf record policy) record.provenance.source.name).records) :
    Vouched (history ++ [entry]) s' := by
  have happend := acceptedRecords_append_some history hsome
  have hfences : ∀ source, acceptedFences source (history ++ [entry])
      = if record.provenance.source = source then acceptedFences source history ++ [record.fence]
        else acceptedFences source history := by
    intro source
    unfold acceptedFences
    rw [happend]
    by_cases heq : record.provenance.source = source <;> simp [List.filter_append, heq]
  refine ⟨fun r hr hlive => ?_, fun r hr hlive hcurrent => ?_⟩
  · rw [happend]
    rcases hrecords r hr with ⟨i, rfl⟩ | hr
    · exact ⟨record, List.mem_append_right _ (List.mem_singleton_self _), rfl⟩
    · rcases records_retireOnReset hr with ⟨old, hmem, rfl⟩ | ⟨hmem, -⟩
      · obtain ⟨a, ha, heq⟩ := h.accepted old hmem hlive
        refine ⟨a, List.mem_append_left _ ha, ?_⟩
        unfold StoredAs at heq ⊢
        rw [heq]
      · obtain ⟨a, ha, heq⟩ := h.accepted r hmem hlive
        exact ⟨a, List.mem_append_left _ ha, heq⟩
  · rw [hfences]
    rcases hrecords r hr with ⟨i, rfl⟩ | hr
    · rw [if_pos rfl, List.getLast?_append_of_ne_nil _ (List.cons_ne_nil _ _)]
      exact ⟨record.fence, rfl, rfl, rfl⟩
    · rcases records_retireOnReset hr with ⟨old, hmem, rfl⟩ | ⟨hmem, hkept⟩
      · cases hcurrent
      · obtain ⟨last, hlast, hboot⟩ := h.current r hmem hlive hcurrent
        split
        · -- The source did not reboot, or the record would have been retired.
          rename_i heq
          have hreset : (s.fenceOf record policy).livenessReset = false := by
            by_contra hreset
            exact hkept (Bool.not_eq_false _ ▸ hreset) (by rw [heq])
          have hreached := hfence.reached r.provenance.source
          rw [hlast, ← heq] at hreached
          rw [List.getLast?_append_of_ne_nil _ (List.cons_ne_nil _ _)]
          refine ⟨record.fence, rfl, ?_⟩
          rcases evaluateFence_livenessReset haccepted hreset with hstate | ⟨hsame, hsame'⟩
          · rw [hreached.1] at hstate
            cases hstate
          · rw [hreached.2] at hsame hsame'
            exact ⟨hboot.1.trans hsame, hboot.2.trans hsame'⟩
        · exact ⟨last, hlast, hboot⟩

/-- One call keeps the invariant. -/
theorem vouched_step (history : List (Call × Reply)) (s : EvidenceStore) (call : Call)
    (hfence : FenceHistory history s) (h : Vouched history s) (htransfers : Transfers call) :
    Vouched (history ++ [(call, (s.step call).1)]) (s.step call).2 := by
  cases call with
  | ingest record now policy topology =>
      unfold step
      dsimp only
      have hcases := ingest_cases s record now policy topology
      generalize s.ingest record now policy topology = out at hcases
      cases hcases with
      | refused e stats => exact h.keep rfl fun r hr _ => Or.inr hr
      | fenced outcome stats state hvalid hroom hstored hstate hlast =>
          exact h.keep (by simp [acceptedRecord, hstored]) fun r hr _ => Or.inr hr
      | unadmitted e =>
          refine h.keep rfl fun r hr _ => ?_
          rcases records_retireOnReset hr with hold | ⟨hmem, -⟩
          · exact Or.inl hold
          · exact Or.inr hmem
      | stored outcome stats state s₁ hvalid hroom haccepted hadmission hstored hgap hdetail hstate
          hlast =>
          refine h.store hfence (by simp [acceptedRecord, hstored]) haccepted fun r hr => ?_
          rcases records_admitLocked hadmission hr with rfl | hr
          · exact Or.inl ⟨(s.retireOnReset (s.fenceOf record policy)
              record.provenance.source.name).nextInsertionIndex, by simp [stamp]⟩
          · exact Or.inr hr
  | ingestRecovered record =>
      unfold step
      dsimp only
      have hcases := ingestRecovered_cases s record
      generalize s.ingestRecovered record = out at hcases
      cases hcases with
      | refused e stats => exact h.keep rfl fun r hr _ => Or.inr hr
      | unadmitted e hroom => exact h.keep rfl fun r hr _ => Or.inr hr
      | stored outcome s₁ hvalid hroom hadmission hstored =>
          refine h.keep rfl fun r hr hlive => Or.inr ?_
          rcases records_admitLocked hadmission hr with rfl | hr
          · -- The stamp marks a recovered record.
            simp [stamp] at hlive
          · exact hr
  | sweep move horizon maxRecords token =>
      have hmove : move = SelfMove.transfer := htransfers
      subst hmove
      exact h.keep rfl fun r hr _ => Or.inr (records_sweep hr)
  | resetLiveness => exact h.keep rfl fun r hr _ => Or.inr hr

/-- The invariant holds after every run from the empty store whose sweeps transfer. -/
theorem vouched_run (limits : Limits) (calls : List Call)
    (htransfers : ∀ call ∈ calls, Transfers call) :
    Vouched (trace step { limits := limits } calls) (run step { limits := limits } calls) := by
  have hguarded : Guarded step (fun _ call => Transfers call) { limits := limits } calls :=
    guarded_of_forall step _ htransfers
  have hboth := history_induction step (fun history s => FenceHistory history s ∧ Vouched history s)
    ⟨fenceHistory_init limits, vouched_init limits⟩
    (fun history s call hP hguard => ⟨fenceHistory_step history s call hP.1,
      vouched_step history s call hP.1 hP.2 hguard⟩) calls hguarded
  exact hboth.2

end EvidenceStore

end CongestionObservatory
