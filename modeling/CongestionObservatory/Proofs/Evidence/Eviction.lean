import CongestionObservatory.Proofs.Evidence.Representation

/-!
# `CongestionObservatory.Proofs.Evidence.Eviction`: what an admission evicts

An admission may evict for two reasons: the subject holds `max_evidence_per_subject` records, or
the store holds `max_retained_evidence`. `victims` says which record has to go, the subject
first: the oldest of its bucket when that is full, else the oldest of all when the store is
full. `Evicts` is the effect of an admission that evicts some records and no others.

`admit_locked` checks the store first. It then drops the globally oldest record, and when that
one sits in another bucket the subject is still full, so a second record goes (`EvictsTwice`).
`admission_evicts_victims_iff` says that this is the only case in which an admission does not
evict exactly `victims`.
-/

set_option autoImplicit false

namespace CongestionObservatory

open Lib

namespace EvidenceStore

/-! ### The records an admission has to evict -/

/-- The insertion number of the record that was inserted first, none of an empty list. -/
def oldest (l : List EvidenceRecord) : List Nat :=
  (l.map EvidenceRecord.insertionIndex).min?.toList

/-- The insertion numbers that make room for a record of the subject. -/
def victims (s : EvidenceStore) (key : Name) : List Nat :=
  if s.limits.maxEvidencePerSubject ≤ (s.bucket key).length then oldest (s.bucket key)
  else if s.limits.maxRetainedEvidence ≤ s.records.length then oldest s.records
  else []

/-- The records whose numbers are not listed, in their order. -/
def without (gone : List Nat) (l : List EvidenceRecord) : List EvidenceRecord :=
  l.filter fun r => r.insertionIndex ∉ gone

/-- Both bounds are reached, and some other subject holds an older record than the subject. -/
def EvictsTwice (s : EvidenceStore) (key : Name) : Prop :=
  s.limits.maxRetainedEvidence ≤ s.records.length ∧
  s.limits.maxEvidencePerSubject ≤ (s.bucket key).length ∧
  ∃ r ∈ s.records, ∀ r' ∈ s.bucket key, r.insertionIndex < r'.insertionIndex

theorem oldest_eq {l : List EvidenceRecord} {r : EvidenceRecord} (hr : r ∈ l)
    (hle : ∀ r' ∈ l, r.insertionIndex ≤ r'.insertionIndex) : oldest l = [r.insertionIndex] := by
  have hmin : (l.map EvidenceRecord.insertionIndex).min? = some r.insertionIndex := by
    rw [List.min?_eq_some_iff]
    refine ⟨List.mem_map_of_mem hr, fun i hi => ?_⟩
    obtain ⟨r', hr', rfl⟩ := List.mem_map.mp hi
    exact hle r' hr'
  rw [oldest, hmin, Option.toList_some]

theorem oldest_length_le (l : List EvidenceRecord) : (oldest l).length ≤ 1 := by
  rw [oldest]
  cases (l.map EvidenceRecord.insertionIndex).min? with
  | none => exact Nat.zero_le _
  | some i => exact le_rfl

theorem without_nil (l : List EvidenceRecord) : without [] l = l := by
  rw [without, List.filter_eq_self]
  intro r _
  simp

/-- The oldest record of an ascending bucket is its front. -/
theorem Ascending.front_le {r : EvidenceRecord} {rest : List EvidenceRecord}
    (h : Ascending (r :: rest)) : ∀ r' ∈ r :: rest, r.insertionIndex ≤ r'.insertionIndex := by
  intro r' hr'
  rcases List.mem_cons.mp hr' with rfl | hr'
  · exact le_rfl
  · exact ((List.pairwise_cons.mp h).1 r' hr').le

/-- Leaving out the front of one bucket touches no other bucket. -/
theorem Representation.without_front {s : EvidenceStore} (h : Representation s) {key : Name}
    {r : EvidenceRecord} {rest : List EvidenceRecord} (hb : s.bucket key = r :: rest) (k : Name) :
    without [r.insertionIndex] (s.bucket k) = if k = key then rest else s.bucket k := by
  have hr : r ∈ s.bucket key := by
    rw [hb]
    exact List.mem_cons_self
  by_cases hk : k = key
  · rw [if_pos hk, hk, hb, without, List.filter_cons_of_neg (by simp), List.filter_eq_self]
    have hascending := h.ascending key
    rw [hb] at hascending
    intro r' hr'
    have hlt := (List.pairwise_cons.mp hascending).1 r' hr'
    simp only [List.mem_singleton, decide_eq_true_eq]
    omega
  · rw [if_neg hk, without, List.filter_eq_self]
    intro r' hr'
    simp only [List.mem_singleton, decide_eq_true_eq]
    -- The index maps a number to one key, so another bucket cannot hold the same number.
    intro hsame
    have hfirst := (h.index_iff r.insertionIndex key).mpr ⟨r, hr, rfl⟩
    have hsecond := (h.index_iff r.insertionIndex k).mpr ⟨r', hr', hsame⟩
    rw [hfirst] at hsecond
    exact hk (Option.some.inj hsecond).symm

/-! ### The two evictions -/

theorem mem_bucket_of_mem_records {s : EvidenceStore} {r : EvidenceRecord} (h : r ∈ s.records) :
    ∃ key, r ∈ s.bucket key := by
  obtain ⟨⟨key, b⟩, he, hr⟩ := mem_records.mp h
  refine ⟨key, ?_⟩
  rw [bucket_of_find? (OrdMap.find?_eq_some_iff.mpr he)]
  exact hr

theorem mem_records_of_mem_bucket {s : EvidenceStore} {key : Name} {r : EvidenceRecord}
    (h : r ∈ s.bucket key) : r ∈ s.records := by
  rcases s.bucket_mem key with hnil | hmem
  · rw [hnil] at h
    exact absurd h List.not_mem_nil
  · exact mem_records.mpr ⟨_, hmem, h⟩

theorem bucket_insert (s : EvidenceStore) (key : Name) (b : List EvidenceRecord) (k : Name) :
    ((s.bySubject.insert key b).find? k).getD [] = if k = key then b else s.bucket k := by
  rw [OrdMap.find?_insert]
  split
  · rfl
  · rfl

/-- The global eviction: nothing below the bound, and at the bound the oldest record, which is
the front of its bucket. -/
theorem evictOldest_cases {s : EvidenceStore} (h : Representation s)
    (hpos : 0 < s.limits.maxRetainedEvidence) :
    s.records.length < s.limits.maxRetainedEvidence ∧ s.evictOldest = (0, s) ∨
    s.limits.maxRetainedEvidence ≤ s.records.length ∧ ∃ key r rest, s.bucket key = r :: rest ∧
      (∀ r' ∈ s.records, r.insertionIndex ≤ r'.insertionIndex) ∧ s.evictOldest.1 = 1 ∧
      ∀ k, s.evictOldest.2.bucket k = if k = key then rest else s.bucket k := by
  rw [← h.retained_eq_records]
  by_cases hfull : s.retained ≥ s.limits.maxRetainedEvidence
  · refine Or.inr ⟨hfull, ?_⟩
    have hsize : 0 < s.insertionOrder.size := by
      rw [← h.retained_eq_index]
      omega
    obtain ⟨⟨i, key⟩, hfront⟩ := OrdMap.front?_isSome_of_size_pos hsize
    obtain ⟨r, rest, hb, hri⟩ := h.least_is_front i key hfront
    refine ⟨key, r, rest, hb, fun r' hr' => ?_, ?_, fun k => ?_⟩
    · obtain ⟨k, hk⟩ := mem_bucket_of_mem_records hr'
      have hindexed := (h.index_iff r'.insertionIndex k).mpr ⟨r', hk, rfl⟩
      have hle := (OrdMap.front?_le hfront).2 _ (OrdMap.find?_eq_some_iff.mp hindexed)
      rw [hri]
      exact hle
    · simp only [evictOldest, if_pos hfull, hfront]
    · simp only [evictOldest, if_pos hfull, hfront, hb, List.tail_cons]
      exact bucket_insert s key rest k
  · refine Or.inl ⟨not_le.mp hfull, ?_⟩
    rw [evictOldest, if_neg hfull]

/-- The eviction from the subject: nothing below the bound, and at the bound the front. -/
theorem evictFromSubject_cases (s : EvidenceStore) (key : Name)
    (hpos : 0 < s.limits.maxEvidencePerSubject) :
    (s.bucket key).length < s.limits.maxEvidencePerSubject ∧ (s.evictFromSubject key).1 = 0 ∧
      (∀ k, (s.evictFromSubject key).2.bucket k = s.bucket k) ∨
    s.limits.maxEvidencePerSubject ≤ (s.bucket key).length ∧ ∃ r rest,
      s.bucket key = r :: rest ∧ (s.evictFromSubject key).1 = 1 ∧
      ∀ k, (s.evictFromSubject key).2.bucket k = if k = key then rest else s.bucket k := by
  unfold evictFromSubject
  split
  · rename_i front rest hb
    rw [hb]
    split
    · rename_i hfull
      exact Or.inr ⟨hfull, front, rest, rfl, rfl, bucket_insert s key rest⟩
    · rename_i hroom
      exact Or.inl ⟨not_le.mp hroom, rfl, fun _ => rfl⟩
  · rename_i hb
    rw [hb]
    -- The lookup creates an empty bucket, which was empty before as well.
    refine Or.inl ⟨hpos, rfl, fun k => ?_⟩
    refine (bucket_insert s key [] k).trans ?_
    split
    · rename_i hk
      rw [hk, hb]
    · rfl

theorem append_bucket (s : EvidenceStore) (key : Name) (stored : EvidenceRecord) (k : Name) :
    (s.append key stored).bucket k = s.bucket k ++ if k = key then [stored] else [] := by
  refine (bucket_insert s key _ k).trans ?_
  split
  · rename_i hk
    rw [hk]
  · rw [List.append_nil]

/-! ### An admission -/

/-- Taking an insertion number leaves the representation as it is. -/
theorem Representation.next {s : EvidenceStore} (h : Representation s) :
    Representation { s with nextInsertionIndex := s.nextInsertionIndex + 1 } where
  index_iff := h.index_iff
  ascending := h.ascending
  least_is_front := h.least_is_front
  below_next r hr := (h.below_next r hr).trans (Nat.lt_succ_self _)
  retained_eq_records := h.retained_eq_records
  retained_eq_index := h.retained_eq_index
  retained_le := h.retained_le
  bucket_le := h.bucket_le
  sources_le := h.sources_le

/-- The two evictions one after the other drop two records in the one bad case, and exactly
`victims` in all others. -/
theorem evictions_victims {s : EvidenceStore} (h : Representation s)
    (hretained : 0 < s.limits.maxRetainedEvidence)
    (hsubject : 0 < s.limits.maxEvidencePerSubject) (key : Name) :
    s.EvictsTwice key ∧ s.evictOldest.1 + (s.evictOldest.2.evictFromSubject key).1 = 2 ∨
    ¬ s.EvictsTwice key ∧
      s.evictOldest.1 + (s.evictOldest.2.evictFromSubject key).1 = (s.victims key).length ∧
      ∀ k, (s.evictOldest.2.evictFromSubject key).2.bucket k
        = without (s.victims key) (s.bucket k) := by
  rcases evictOldest_cases h hretained with ⟨hroom, heq⟩ |
      ⟨hfull, oldestKey, r, rest, hb, hleast, hcount, hbuckets⟩
  · -- The store is not full, so only the subject can be.
    have hnot : ¬ s.EvictsTwice key := fun htwice => absurd htwice.1 (not_le.mpr hroom)
    refine Or.inr ⟨hnot, ?_⟩
    rw [heq, Nat.zero_add]
    rcases evictFromSubject_cases s key hsubject with ⟨hshort, hzero, hsame⟩ |
        ⟨hlong, front, rest, hb, hone, hrest⟩
    · have hvictims : s.victims key = [] := by
        rw [victims, if_neg (not_le.mpr hshort), if_neg (not_le.mpr hroom)]
      rw [hvictims]
      exact ⟨hzero, fun k => (hsame k).trans (without_nil _).symm⟩
    · have hascending := h.ascending key
      rw [hb] at hascending
      have hvictims : s.victims key = [front.insertionIndex] := by
        rw [victims, if_pos hlong, hb]
        exact oldest_eq List.mem_cons_self hascending.front_le
      rw [hvictims]
      exact ⟨hone, fun k => (hrest k).trans (h.without_front hb k).symm⟩
  · -- The store is full, and the oldest record is gone before the subject is looked at.
    have hown : r ∈ s.bucket oldestKey := by
      rw [hb]
      exact List.mem_cons_self
    have hmem : r ∈ s.records := mem_records_of_mem_bucket hown
    have hfirst : ∀ k, s.evictOldest.2.bucket k = without [r.insertionIndex] (s.bucket k) :=
      fun k => (hbuckets k).trans (h.without_front hb k).symm
    have hlimits := evictOldest_limits s
    have hle := h.bucket_le key
    rw [hcount]
    rcases evictFromSubject_cases s.evictOldest.2 key (hlimits.symm ▸ hsubject) with
        ⟨hshort, hzero, hsame⟩ | ⟨hlong, front, tail, -, hone, -⟩
    · rw [hlimits, hbuckets] at hshort
      rw [hzero]
      by_cases hk : key = oldestKey
      · -- The oldest record of all is the oldest of the subject: both rules name it.
        subst hk
        have hnot : ¬ s.EvictsTwice key := by
          rintro ⟨-, -, r', hr', hlt⟩
          have hge := hleast r' hr'
          have hlt := hlt r hown
          omega
        have hlocal : oldest (s.bucket key) = [r.insertionIndex] :=
          oldest_eq hown fun r' hr' => hleast r' (mem_records_of_mem_bucket hr')
        have hvictims : s.victims key = [r.insertionIndex] := by
          rw [victims, hlocal, oldest_eq hmem hleast, if_pos hfull, ite_self]
        rw [hvictims]
        exact Or.inr ⟨hnot, rfl, fun k => (hsame k).trans (hfirst k)⟩
      · -- The oldest record is elsewhere, and the subject has room.
        rw [if_neg hk] at hshort
        have hnot : ¬ s.EvictsTwice key := fun htwice => absurd htwice.2.1 (not_le.mpr hshort)
        have hvictims : s.victims key = [r.insertionIndex] := by
          rw [victims, if_neg (not_le.mpr hshort), if_pos hfull]
          exact oldest_eq hmem hleast
        rw [hvictims]
        exact Or.inr ⟨hnot, rfl, fun k => (hsame k).trans (hfirst k)⟩
    · rw [hone]
      rw [hlimits, hbuckets] at hlong
      -- The subject is still full, so the oldest record was not one of its own.
      have hk : key ≠ oldestKey := by
        rintro rfl
        rw [if_pos rfl] at hlong
        rw [hb, List.length_cons] at hle
        omega
      rw [if_neg hk] at hlong
      refine Or.inl ⟨⟨hfull, hlong, r, hmem, fun r' hr' => ?_⟩, rfl⟩
      have hkept : r' ∈ without [r.insertionIndex] (s.bucket key) := by
        rw [h.without_front hb, if_neg hk]
        exact hr'
      have hne := (List.mem_filter.mp hkept).2
      simp only [List.mem_singleton, decide_eq_true_eq] at hne
      have hge := hleast r' (mem_records_of_mem_bucket hr')
      exact lt_of_le_of_ne hge (Ne.symm hne)

/-- The record a call offers, and whether it comes from a snapshot. -/
def Call.offered : Call → Option (EvidenceRecord × Bool)
  | .ingest record _ _ _ => some (record, false)
  | .ingestRecovered record => some (record, true)
  | _ => none

/-- The store that an accepted record is admitted to. A reboot of its source has retired the
records of the source, and the source of a recovered record is known. -/
def atAdmission (s : EvidenceStore) : Call → EvidenceStore
  | .ingest record _ policy _ =>
    s.retireOnReset (s.fenceOf record policy) record.provenance.source.name
  | .ingestRecovered record => s.knowSource record.provenance.source
  | _ => s

/-- The call admits the record, evicts exactly the records numbered in `gone`, reports how many
they are and keeps all others, in their order. -/
structure Evicts (s : EvidenceStore) (call : Call) (record : EvidenceRecord) (recovered : Bool)
    (gone : List Nat) (evicted : Nat) (s' : EvidenceStore) : Prop where
  count : evicted = gone.length
  kept : ∀ key, s'.bucket key = without gone ((s.atAdmission call).bucket key) ++
    if key = Name.unchecked record.subject.str then [s.stamp record recovered] else []

/-- A call that stores its record is one admission to `atAdmission`. -/
theorem step_stored {limits : Limits} {s s' : EvidenceStore} (h : StoreInvariant limits s)
    {call : Call} {record : EvidenceRecord} {recovered : Bool} {outcome : IngestOutcome}
    (hoffered : call.offered = some (record, recovered))
    (hstep : s.step call = (.admitted (.ok outcome), s')) (hstored : outcome.stored = true) :
    ∃ s₁, StoreInvariant limits (s.atAdmission call) ∧
      (s.atAdmission call).admitLocked record recovered = .ok (outcome.evicted, s₁) ∧
      ∀ key, s'.bucket key = s₁.bucket key := by
  cases call with
  | ingest r now policy topology =>
      cases hoffered
      have hcases := ingest_cases s record now policy topology
      unfold step at hstep
      dsimp only at hstep
      generalize s.ingest record now policy topology = out at hcases hstep
      cases hcases with
      | refused e stats => cases hstep
      | fenced o stats state hvalid hroom hnot hstate hlast =>
          cases hstep
          rw [hnot] at hstored
          cases hstored
      | unadmitted e => cases hstep
      | stored o stats state s₁ hvalid hroom haccepted hadmission =>
          cases hstep
          -- Retiring the records of a source marks them and moves none.
          refine ⟨s₁, ⟨?_, ?_, ?_, ?_⟩, hadmission, fun _ => rfl⟩
          · exact (retireOnReset_limits s _ _).trans h.limits_eq
          · show Coherent _ (s.retireOnReset _ _).nextInsertionIndex
            rw [retireOnReset_nextInsertionIndex]
            exact retireOnReset_coherent h.coherent _ _
          · exact (retireOnReset_retained s _ _).trans_le h.retained_le
          · show (s.retireOnReset _ _).sources.size ≤ _
            rw [retireOnReset_sources]
            exact h.sources_le
  | ingestRecovered r =>
      cases hoffered
      have hcases := ingestRecovered_cases s record
      unfold step at hstep
      dsimp only at hstep
      generalize s.ingestRecovered record = out at hcases hstep
      cases hcases with
      | refused e stats => cases hstep
      | unadmitted e hroom => cases hstep
      | stored o s₁ hvalid hroom hadmission =>
          cases hstep
          refine ⟨_, ⟨h.limits_eq, h.coherent.congr rfl rfl rfl rfl, h.retained_le, ?_⟩,
            hadmission, fun _ => rfl⟩
          have hle := knowSource_size_le hroom (h.limits_eq ▸ h.sources_le)
          rw [h.limits_eq] at hle
          exact hle
  | sweep move horizon maxRecords token => cases hoffered
  | resetLiveness => cases hoffered

/-- A store whose buckets hold the same numbers has the same records to evict. -/
structure SameNumbers (s t : EvidenceStore) : Prop where
  limits : t.limits = s.limits
  records : t.records.map EvidenceRecord.insertionIndex
    = s.records.map EvidenceRecord.insertionIndex
  bucket : ∀ key, (t.bucket key).map EvidenceRecord.insertionIndex
    = (s.bucket key).map EvidenceRecord.insertionIndex

theorem SameNumbers.victims_eq {s t : EvidenceStore} (h : SameNumbers s t) (key : Name) :
    t.victims key = s.victims key := by
  have hrecords := congrArg List.length h.records
  have hbucket := congrArg List.length (h.bucket key)
  rw [List.length_map, List.length_map] at hrecords hbucket
  rw [victims, victims, oldest, oldest, oldest, oldest, h.limits, h.records, h.bucket, hrecords,
    hbucket]

theorem SameNumbers.evictsTwice_iff {s t : EvidenceStore} (h : SameNumbers s t) (key : Name) :
    t.EvictsTwice key ↔ s.EvictsTwice key := by
  have hnumbers : ∀ u : EvidenceStore, u.EvictsTwice key ↔
      u.limits.maxRetainedEvidence ≤ (u.records.map EvidenceRecord.insertionIndex).length ∧
      u.limits.maxEvidencePerSubject
        ≤ ((u.bucket key).map EvidenceRecord.insertionIndex).length ∧
      ∃ i ∈ u.records.map EvidenceRecord.insertionIndex,
        ∀ j ∈ (u.bucket key).map EvidenceRecord.insertionIndex, i < j := by
    intro u
    simp [EvictsTwice]
  rw [hnumbers t, hnumbers s, h.limits, h.records, h.bucket]

theorem retireOnReset_sameNumbers (s : EvidenceStore) (fence : FenceOutcome) (source : Name) :
    SameNumbers s (s.retireOnReset fence source) := by
  unfold retireOnReset
  split
  · let mark (existing : EvidenceRecord) : EvidenceRecord :=
      if existing.provenance.source.name = source then { existing with retired := true }
      else existing
    -- The mark leaves the insertion numbers alone, in each bucket and so in all of them.
    have hmark : ∀ b : List EvidenceRecord, (b.map mark).map EvidenceRecord.insertionIndex
        = b.map EvidenceRecord.insertionIndex := by
      intro b
      rw [List.map_map]
      refine List.map_congr_left fun r _ => ?_
      show (if _ then _ else _ : EvidenceRecord).insertionIndex = _
      split
      · rfl
      · rfl
    refine ⟨rfl, ?_, fun key => ?_⟩
    · have hvalues : (s.retireSource source).records = s.records.map mark := by
        show ((s.bySubject.entries.map fun e => (e.1, e.2.map mark)).map Prod.snd).flatten = _
        rw [records, OrdMap.values, List.map_flatten, List.map_map, List.map_map]
        rfl
      rw [hvalues, hmark]
    · have hbucket : (s.retireSource source).bucket key = (s.bucket key).map mark := by
        show ((s.bySubject.mapValues fun _ b => b.map mark).find? key).getD [] = _
        rw [OrdMap.find?_mapValues, bucket]
        cases s.bySubject.find? key with
        | none => rfl
        | some b => rfl
      rw [hbucket, hmark]
  · exact ⟨rfl, rfl, fun _ => rfl⟩

theorem atAdmission_sameNumbers (s : EvidenceStore) (call : Call) :
    SameNumbers s (s.atAdmission call) := by
  cases call with
  | ingest record now policy topology => exact retireOnReset_sameNumbers s _ _
  | ingestRecovered record => exact ⟨rfl, rfl, fun _ => rfl⟩
  | sweep move horizon maxRecords token => exact ⟨rfl, rfl, fun _ => rfl⟩
  | resetLiveness => exact ⟨rfl, rfl, fun _ => rfl⟩

/-- Whether a call stores its record, evicts exactly the records it has to, reports how many
they are and keeps all others: it does in every reachable state, unless both bounds are reached
and the oldest record is about another subject. -/
theorem admission_evicts_victims_iff (limits : Limits) (hlimits : limits.validate = .ok ())
    (calls : List Call) (call : Call) (record : EvidenceRecord) (recovered : Bool)
    (outcome : IngestOutcome) (s' : EvidenceStore)
    (hoffered : call.offered = some (record, recovered))
    (hstep : (run step { limits := limits } calls).step call = (.admitted (.ok outcome), s'))
    (hstored : outcome.stored = true) :
    Evicts (run step { limits := limits } calls) call record recovered
        ((run step { limits := limits } calls).victims (Name.unchecked record.subject.str))
        outcome.evicted s' ↔
      ¬ (run step { limits := limits } calls).EvictsTwice
        (Name.unchecked record.subject.str) := by
  have hpos := Limits.pos_of_validate hlimits
  have hretained := hpos (limits.maxRetainedEvidence, "max_retained_evidence")
    (by simp [Limits.positives])
  have hsubject := hpos (limits.maxEvidencePerSubject, "max_evidence_per_subject")
    (by simp [Limits.positives])
  have hinv := (storeInvariant_run hretained hsubject calls _ (storeInvariant_init limits)).1
  generalize run step { limits := limits } calls = s at hinv hstep ⊢
  generalize hkey : Name.unchecked record.subject.str = key
  obtain ⟨s₁, hstart, hadmission, hfinal⟩ := step_stored hinv hoffered hstep hstored
  have hsame := atAdmission_sameNumbers s call
  have hnext : (s.atAdmission call).stamp record recovered = s.stamp record recovered := by
    have hindex : (s.atAdmission call).nextInsertionIndex = s.nextInsertionIndex := by
      cases call with
      | ingest record now policy topology => exact retireOnReset_nextInsertionIndex _ _ _
      | ingestRecovered record => rfl
      | sweep move horizon maxRecords token => rfl
      | resetLiveness => rfl
    rw [stamp, stamp, hindex]
  obtain ⟨-, hevicted, rfl⟩ := admitLocked_ok hadmission
  rw [hkey] at hevicted hfinal
  -- The insertion number is taken first, which changes nothing the evictions look at.
  have hroom := evictions_victims hstart.representation.next
    (hstart.limits_eq ▸ hretained) (hstart.limits_eq ▸ hsubject) key
  change (s.atAdmission call).EvictsTwice key ∧ ((s.atAdmission call).makeRoom key).1 = 2 ∨
    ¬ (s.atAdmission call).EvictsTwice key ∧
      ((s.atAdmission call).makeRoom key).1 = ((s.atAdmission call).victims key).length ∧
      ∀ k, ((s.atAdmission call).makeRoom key).2.bucket k
        = without ((s.atAdmission call).victims key) ((s.atAdmission call).bucket k) at hroom
  rw [hsame.evictsTwice_iff, hsame.victims_eq] at hroom
  rcases hroom with ⟨htwice, htwo⟩ | ⟨honce, hcount, hkept⟩
  · -- Two records are reported, and at most one had to go.
    refine iff_of_false (fun h => ?_) (not_not.mpr htwice)
    have hone := h.count
    rw [hevicted, htwo, victims, if_pos htwice.2.1] at hone
    have hle := oldest_length_le (s.bucket key)
    omega
  · refine iff_of_true ⟨hevicted.trans hcount, fun k => ?_⟩ honce
    rw [hfinal, append_bucket, hkept, hnext, hkey]

/-- Limits with room for two records, one of each subject. -/
def twoRecordLimits : Limits :=
  { maxRetainedEvidence := 2, maxEvidencePerSubject := 1, maxWindowRecords := 1
    maxSnapshotEvidence := 1 }

/-- The observation `sampleDrop` makes, on another link. -/
def otherDrop (sequence : UInt64) (observedAt : Timestamp) : EvidenceRecord :=
  { sampleDrop sequence observedAt with subject := .link (EntityId.unchecked (ascii "leaf2-up")) }

/-- A call that ingests the record when it is observed. -/
def ingestNow (record : EvidenceRecord) : Call := .ingest record record.observedAt {} none

/-- A reply that counts a stored record names its outcome. -/
theorem exists_outcome_of_storedIn {reply : Reply} (h : storedIn reply = 1) :
    ∃ outcome, reply = .admitted (.ok outcome) ∧ outcome.stored = true := by
  cases reply with
  | admitted result =>
      cases result with
      | error e => cases h
      | ok outcome =>
          refine ⟨outcome, rfl, ?_⟩
          cases hstored : outcome.stored with
          | false =>
              simp only [storedIn, hstored] at h
              cases h
          | true => rfl
  | swept result => cases h
  | done => cases h

/-- One record of each link fills the store; the second record of the first link then evicts
its predecessor and nothing else. -/
theorem admission_evicts_oldest_of_subject :
    let s := run step { limits := twoRecordLimits }
      [ingestNow (sampleDrop 1 ⟨10⟩), ingestNow (otherDrop 2 ⟨20⟩)]
    let call := ingestNow (sampleDrop 3 ⟨30⟩)
    ∃ outcome s', s.step call = (.admitted (.ok outcome), s') ∧ outcome.stored = true ∧
      Evicts s call (sampleDrop 3 ⟨30⟩) false [1] outcome.evicted s' := by
  intro s call
  obtain ⟨outcome, hreply, hstored⟩ :=
    exists_outcome_of_storedIn (show storedIn (s.step call).1 = 1 by decide +kernel)
  have hstep : s.step call = (.admitted (.ok outcome), (s.step call).2) := by rw [← hreply]
  have hvictims : s.victims (Name.unchecked (sampleDrop 3 ⟨30⟩).subject.str) = [1] := by
    decide +kernel
  refine ⟨outcome, (s.step call).2, hstep, hstored, ?_⟩
  rw [← hvictims]
  refine (admission_evicts_victims_iff twoRecordLimits (by decide +kernel) _ call _ false outcome
    _ rfl hstep hstored).mpr ?_
  unfold EvictsTwice
  decide +kernel

/-- In the same store the second record of the other link evicts its predecessor and the record
of the first link as well. -/
theorem admission_evicts_two :
    let s := run step { limits := twoRecordLimits }
      [ingestNow (sampleDrop 1 ⟨10⟩), ingestNow (otherDrop 2 ⟨20⟩)]
    let call := ingestNow (otherDrop 3 ⟨30⟩)
    let key := Name.unchecked (otherDrop 3 ⟨30⟩).subject.str
    twoRecordLimits.validate = .ok () ∧ storedIn (s.step call).1 = 1 ∧ s.victims key = [2] ∧
      (s.step call).2.records.length = 1 ∧
      ¬ Evicts s call (otherDrop 3 ⟨30⟩) false (s.victims key) (evictedIn (s.step call).1)
        (s.step call).2 := by
  refine ⟨by decide +kernel, by decide +kernel, by decide +kernel, by decide +kernel, fun h => ?_⟩
  exact absurd h.count (by decide +kernel)

end EvidenceStore

end CongestionObservatory
