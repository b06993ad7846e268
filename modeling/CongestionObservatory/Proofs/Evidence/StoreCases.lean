import CongestionObservatory.Evidence.Store

/-!
# `CongestionObservatory.Proofs.Evidence.StoreCases`: what a store call can do

Each result on the store is proved call by call. This module says once, for each operation,
what it can do: `ingest_cases`, `ingestRecovered_cases`, `admitLocked_ok` and `sweep_cases`. The
later modules take a call apart with these lemmas and never unfold the operations.
-/

set_option autoImplicit false

namespace CongestionObservatory

open Lib

namespace EvidenceStore

/-- The retained records are those of the buckets. -/
theorem mem_records {s : EvidenceStore} {r : EvidenceRecord} :
    r ∈ s.records ↔ ∃ e ∈ s.bySubject.entries, r ∈ e.2 := by
  simp only [records, OrdMap.values, List.mem_flatten, List.mem_map]
  constructor
  · rintro ⟨_, ⟨e, he, rfl⟩, hr⟩
    exact ⟨e, he, hr⟩
  · rintro ⟨e, he, hr⟩
    exact ⟨e.2, ⟨e, he, rfl⟩, hr⟩

/-! ### Admission -/

section Frame

variable (s : EvidenceStore) (key : Name)

@[simp] theorem evictOldest_limits : s.evictOldest.2.limits = s.limits := by
  unfold evictOldest
  split
  · split <;> rfl
  · rfl

@[simp] theorem evictOldest_sources : s.evictOldest.2.sources = s.sources := by
  unfold evictOldest
  split
  · split <;> rfl
  · rfl

@[simp] theorem evictFromSubject_limits : (s.evictFromSubject key).2.limits = s.limits := by
  unfold evictFromSubject
  split
  · split <;> rfl
  · rfl

@[simp] theorem evictFromSubject_sources : (s.evictFromSubject key).2.sources = s.sources := by
  unfold evictFromSubject
  split
  · split <;> rfl
  · rfl

@[simp] theorem retireOnReset_limits (fence : FenceOutcome) :
    (s.retireOnReset fence key).limits = s.limits := by
  unfold retireOnReset
  split <;> rfl

@[simp] theorem retireOnReset_sources (fence : FenceOutcome) :
    (s.retireOnReset fence key).sources = s.sources := by
  unfold retireOnReset
  split <;> rfl

end Frame

/-- The store once the insertion number is taken and both evictions are made. -/
def makeRoom (s : EvidenceStore) (key : Name) : Nat × EvidenceStore :=
  let first := { s with nextInsertionIndex := s.nextInsertionIndex + 1 }.evictOldest
  let second := first.2.evictFromSubject key
  (first.1 + second.1, second.2)

/-- An admission that succeeds has a canonical key, makes room and appends the stamped record. -/
theorem admitLocked_ok {s s' : EvidenceStore} {record : EvidenceRecord} {recovered : Bool}
    {evicted : Nat} (h : s.admitLocked record recovered = .ok (evicted, s')) :
    let key := Name.unchecked record.subject.str
    key.valid = true ∧ evicted = (s.makeRoom key).1 ∧
      s' = (s.makeRoom key).2.append key (s.stamp record recovered) := by
  unfold admitLocked at h
  dsimp only at h
  split at h
  · cases h
  · rename_i hvalid
    cases h
    exact ⟨by simpa using hvalid, rfl, rfl⟩

@[simp] theorem makeRoom_limits (s : EvidenceStore) (key : Name) :
    (s.makeRoom key).2.limits = s.limits := by
  simp [makeRoom]

@[simp] theorem makeRoom_sources (s : EvidenceStore) (key : Name) :
    (s.makeRoom key).2.sources = s.sources := by
  simp [makeRoom]

theorem admitLocked_limits {s s' : EvidenceStore} {record : EvidenceRecord} {recovered : Bool}
    {evicted : Nat} (h : s.admitLocked record recovered = .ok (evicted, s')) :
    s'.limits = s.limits := by
  obtain ⟨-, -, rfl⟩ := admitLocked_ok h
  simp [append]

theorem admitLocked_sources {s s' : EvidenceStore} {record : EvidenceRecord} {recovered : Bool}
    {evicted : Nat} (h : s.admitLocked record recovered = .ok (evicted, s')) :
    s'.sources = s.sources := by
  obtain ⟨-, -, rfl⟩ := admitLocked_ok h
  simp [append]

/-! ### The calls -/

/-- The decision of the fence on a record, in a state of the store. -/
def fenceOf (s : EvidenceStore) (record : EvidenceRecord) (policy : IngestPolicy) : FenceOutcome :=
  evaluateFence record.fence record.provenance.authority policy.minimumAuthority
    (s.sourceState record.provenance.source.name)

/-- The source of a record is known, or there is room for another source. -/
def SourceRoom (s : EvidenceStore) (key : Name) : Prop :=
  s.sources.contains key = true ∨ s.sources.size < s.limits.maxSources

/-- The results of `ingest`: refused with an error before anything is touched, rejected by the
fence, accepted by the fence but not admitted, or stored. -/
inductive IngestCase (s : EvidenceStore) (record : EvidenceRecord) (policy : IngestPolicy) :
    Result IngestOutcome × EvidenceStore → Prop
  | refused (e : Error) (stats : StoreStats) :
      IngestCase s record policy (.error e, { s with stats := stats })
  | fenced (outcome : IngestOutcome) (stats : StoreStats) (state : SourceFenceState)
      (hvalid : validateEvidence record s.limits = .ok ())
      (hroom : s.SourceRoom record.provenance.source.name)
      (hstored : outcome.stored = false)
      (hstate : state.hasState = (s.sourceState record.provenance.source.name).hasState)
      (hlast : state.last = (s.sourceState record.provenance.source.name).last)
      (hgap : outcome.sequenceGap = (s.fenceOf record policy).sequenceGap)
      (hrejected : (s.fenceOf record policy).accepted = false) :
      IngestCase s record policy
        (.ok outcome, { s with
          sources := s.sources.insert record.provenance.source.name state, stats := stats })
  | unadmitted (e : Error) :
      IngestCase s record policy
        (.error e, s.retireOnReset (s.fenceOf record policy) record.provenance.source.name)
  | stored (outcome : IngestOutcome) (stats : StoreStats) (state : SourceFenceState)
      (s₁ : EvidenceStore)
      (hvalid : validateEvidence record s.limits = .ok ())
      (hroom : s.SourceRoom record.provenance.source.name)
      (haccepted : (s.fenceOf record policy).accepted = true)
      (hadmission : (s.retireOnReset (s.fenceOf record policy)
        record.provenance.source.name).admitLocked record false = .ok (outcome.evicted, s₁))
      (hstored : outcome.stored = true)
      (hgap : outcome.sequenceGap = (s.fenceOf record policy).sequenceGap)
      (hdetail : outcome.detail = (s.fenceOf record policy).detail)
      (hstate : state.hasState = true)
      (hlast : state.last = record.fence) :
      IngestCase s record policy
        (.ok outcome, { s₁ with
          sources := s₁.sources.insert record.provenance.source.name state, stats := stats })

private theorem ingestLocked_cases (s : EvidenceStore) (record : EvidenceRecord) (now : Timestamp)
    (policy : IngestPolicy) (hvalid : validateEvidence record s.limits = .ok ()) :
    IngestCase s record policy (s.ingestLocked record now policy) := by
  unfold ingestLocked
  dsimp only
  split
  · exact .refused _ _
  · rename_i hfull
    have hroom : s.SourceRoom record.provenance.source.name := by
      simp only [Bool.and_eq_true, Bool.not_eq_true', decide_eq_true_eq, not_and_or,
        Bool.not_eq_false, not_le, ge_iff_le] at hfull
      exact hfull
    split
    · rename_i hrejected
      exact .fenced _ _ _ hvalid hroom rfl rfl rfl rfl (by simpa [fenceOf] using hrejected)
    · rename_i haccepted
      unfold ingestAccepted
      dsimp only
      split
      · exact .unadmitted _
      · rename_i evicted s₁ hadmission
        exact .stored _ _ _ s₁ hvalid hroom (by simpa [fenceOf] using haccepted) hadmission rfl rfl
          rfl rfl rfl

/-- Every `ingest` is one of the four cases. -/
theorem ingest_cases (s : EvidenceStore) (record : EvidenceRecord) (now : Timestamp)
    (policy : IngestPolicy) (topology : Option Topology) :
    IngestCase s record policy (s.ingest record now policy topology) := by
  unfold ingest
  split
  · exact .refused _ _
  · rename_i hvalid
    dsimp only
    split
    · exact .refused _ _
    · split
      · exact .refused _ _
      · exact ingestLocked_cases s record now policy hvalid

/-- The results of `ingest_recovered`. -/
inductive RecoveredCase (s : EvidenceStore) (record : EvidenceRecord) :
    Result IngestOutcome × EvidenceStore → Prop
  | refused (e : Error) (stats : StoreStats) : RecoveredCase s record (.error e, { s with stats := stats })
  | unadmitted (e : Error) (hroom : s.SourceRoom record.provenance.source.name) :
      RecoveredCase s record (.error e, s.knowSource record.provenance.source)
  | stored (outcome : IngestOutcome) (s₁ : EvidenceStore)
      (hvalid : validateEvidence record s.limits = .ok ())
      (hroom : s.SourceRoom record.provenance.source.name)
      (hadmission : (s.knowSource record.provenance.source).admitLocked record true
        = .ok (outcome.evicted, s₁))
      (hstored : outcome.stored = true) :
      RecoveredCase s record (.ok outcome, s₁)

/-- Every `ingest_recovered` is one of the three cases. -/
theorem ingestRecovered_cases (s : EvidenceStore) (record : EvidenceRecord) :
    RecoveredCase s record (s.ingestRecovered record) := by
  unfold ingestRecovered
  split
  · exact .refused _ _
  · rename_i hvalid
    dsimp only
    split
    · exact .refused _ _
    · rename_i hfull
      have hroom : s.SourceRoom record.provenance.source.name := by
        simp only [Bool.and_eq_true, Bool.not_eq_true', decide_eq_true_eq, not_and_or,
          Bool.not_eq_false, not_le, ge_iff_le] at hfull
        exact hfull
      split
      · exact .unadmitted _ hroom
      · rename_i evicted s₁ hadmission
        exact .stored _ s₁ hvalid hroom hadmission rfl

/-- Knowing a source changes the table exactly when the source is new. -/
theorem knowSource_sources_eq_iff (s : EvidenceStore) (source : SourceId) :
    (s.knowSource source).sources = s.sources ↔ s.sources.find? source.name ≠ none := by
  constructor
  · intro hsame hnew
    have hfind : (s.knowSource source).sources.find? source.name = none := by rw [hsame, hnew]
    unfold knowSource at hfind
    rw [OrdMap.find?_emplace, if_pos rfl] at hfind
    cases hfind
  · intro hknown
    unfold knowSource OrdMap.emplace OrdMap.contains
    simp [Option.isSome_iff_ne_none.mpr hknown]

/-- Whether `sweep` gets to its loop. -/
def sweepStarts (maxRecords : Nat) (token : CancellationToken) : Bool :=
  decide (maxRecords ≠ 0) && !token.cancelled.1

/-- The results of `sweep`: nothing happened, or the loop ran from the polled token. -/
theorem sweep_cases (s : EvidenceStore) (move : SelfMove) (horizon : Timestamp) (maxRecords : Nat)
    (token : CancellationToken) :
    sweepStarts maxRecords token = false ∧ (s.sweep move horizon maxRecords token).2 = s ∨
    sweepStarts maxRecords token = true ∧
    ∃ stats, (s.sweep move horizon maxRecords token).2 =
      { s with
        bySubject := (s.sweepLoop move horizon maxRecords token.cancelled.2).2
        insertionOrder := (s.sweepLoop move horizon maxRecords token.cancelled.2).1.insertionOrder
        retained := (s.sweepLoop move horizon maxRecords token.cancelled.2).1.retained
        stats := stats } := by
  unfold sweep sweepStarts
  dsimp only
  split
  · rename_i hzero
    exact Or.inl ⟨by simp [hzero], rfl⟩
  · rename_i hpos
    split
    · rename_i hcancelled
      exact Or.inl ⟨by simp [hcancelled], rfl⟩
    · rename_i hlive
      refine Or.inr ⟨by simp [hpos, hlive], { s.stats with
        retentionSweeps := s.stats.retentionSweeps + 1 }, ?_⟩
      split <;> rfl

end EvidenceStore

end CongestionObservatory
