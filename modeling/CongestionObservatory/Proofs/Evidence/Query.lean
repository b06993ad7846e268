import CongestionObservatory.Proofs.Evidence.Eviction
import CongestionObservatory.Proofs.Evidence.Sweep
import CongestionObservatory.Proofs.Model.Names
import CongestionObservatory.Lib.Sort

/-!
# `CongestionObservatory.Proofs.Evidence.Query`: a query against its specification

A query filters the retained records, sorts them and limits their number. `answer` states this:
the records that match, in the order of `querySortKey` or its reverse, cut to the first
`max_records`. The code counts the budget while it scans the buckets, before the sort, so it
sorts the matches it came to first. `query_eq_answer_iff` says that the two agree exactly when
none of the matches the scan leaves out comes before one it takes.

The sort is determined by the insertion numbers, which are distinct in every state a store can
reach, under any limits (`numbered_run`).
-/

set_option autoImplicit false

namespace CongestionObservatory

open Lib

namespace EvidenceStore

/-! ### Insertion numbers -/

/-- Every retained record has a number of its own, below `next`. -/
structure Numbered (s : EvidenceStore) (next : Nat) : Prop where
  distinct : (s.records.map EvidenceRecord.insertionIndex).Nodup
  below : ∀ i ∈ s.records.map EvidenceRecord.insertionIndex, i < next

/-- The numbers are those of the buckets. -/
theorem Numbered.congr {s t : EvidenceStore} {next : Nat} (h : Numbered s next)
    (hbuckets : t.bySubject = s.bySubject) : Numbered t next := by
  have hrecords : t.records = s.records := by rw [records, records, hbuckets]
  exact ⟨hrecords ▸ h.distinct, hrecords ▸ h.below⟩

/-- The numbers of a bucket, first of all numbers. -/
theorem numbers_perm (s : EvidenceStore) (key : Name) :
    (s.records.map EvidenceRecord.insertionIndex).Perm
      ((s.bucket key).map EvidenceRecord.insertionIndex ++ (s.bySubject.erase key).entries.flatMap
        fun e => e.2.map EvidenceRecord.insertionIndex) := by
  have hrecords : s.records.map EvidenceRecord.insertionIndex
      = s.bySubject.entries.flatMap fun e => e.2.map EvidenceRecord.insertionIndex := by
    rw [records, OrdMap.values, List.map_flatten, List.map_map, List.flatMap]
    rfl
  rw [hrecords]
  cases hf : s.bySubject.find? key with
  | none =>
      rw [OrdMap.erase_of_find?_none hf, bucket, hf]
      exact List.Perm.refl _
  | some b =>
      rw [bucket_of_find? hf]
      exact OrdMap.flatMap_perm_of_some (fun e => e.2.map EvidenceRecord.insertionIndex) hf

/-- A store in which one bucket was replaced by a part of it. -/
theorem Numbered.shrink {s t : EvidenceStore} {next : Nat} (h : Numbered s next) (key : Name)
    {b : List EvidenceRecord} (hb : b.Sublist (s.bucket key))
    (hbuckets : t.bySubject = s.bySubject.insert key b) : Numbered t next := by
  have hbucket : t.bucket key = b := by
    rw [bucket, hbuckets, OrdMap.find?_insert_self, Option.getD_some]
  have herase : t.bySubject.erase key = s.bySubject.erase key := by
    rw [hbuckets, OrdMap.erase_insert]
  have hold := s.numbers_perm key
  have hnew := t.numbers_perm key
  rw [hbucket, herase] at hnew
  have hsub := (hb.map EvidenceRecord.insertionIndex).append_right
    ((s.bySubject.erase key).entries.flatMap fun e => e.2.map EvidenceRecord.insertionIndex)
  refine ⟨?_, fun i hi => ?_⟩
  · exact hnew.nodup_iff.mpr ((hold.nodup_iff.mp h.distinct).sublist hsub)
  · exact h.below i (hold.mem_iff.mpr (hsub.subset (hnew.mem_iff.mp hi)))

theorem evictOldest_numbered {s : EvidenceStore} {next : Nat} (h : Numbered s next) :
    Numbered s.evictOldest.2 next := by
  unfold evictOldest
  split
  · split
    · exact h
    · rename_i index key hfront
      exact h.shrink key (List.tail_sublist (s.bucket key)) rfl
  · exact h

theorem evictFromSubject_numbered {s : EvidenceStore} {next : Nat} (h : Numbered s next)
    (key : Name) : Numbered (s.evictFromSubject key).2 next := by
  unfold evictFromSubject
  split
  · rename_i front rest hb
    split
    · refine h.shrink key ?_ rfl
      rw [hb]
      exact List.sublist_cons_self front rest
    · exact h
  · exact h.shrink key (List.nil_sublist (s.bucket key)) rfl

/-- A record with the next number joins the store. -/
theorem append_numbered {s : EvidenceStore} (stored : EvidenceRecord)
    (h : Numbered s stored.insertionIndex) (key : Name) :
    Numbered (s.append key stored) (stored.insertionIndex + 1) := by
  have hbucket : (s.append key stored).bucket key = s.bucket key ++ [stored] := by
    rw [append_bucket, if_pos rfl]
  have herase : (s.append key stored).bySubject.erase key = s.bySubject.erase key :=
    OrdMap.erase_insert s.bySubject key _
  have hnew := (s.append key stored).numbers_perm key
  rw [hbucket, herase, List.map_append, List.map_singleton, List.append_assoc] at hnew
  have hall := hnew.trans (List.perm_middle.trans ((s.numbers_perm key).symm.cons _))
  refine ⟨hall.nodup_iff.mpr (List.nodup_cons.mpr ⟨fun hmem => ?_, h.distinct⟩), fun i hi => ?_⟩
  · exact absurd (h.below _ hmem) (lt_irrefl _)
  · rcases List.mem_cons.mp (hall.mem_iff.mp hi) with rfl | hi
    · exact Nat.lt_succ_self _
    · exact (h.below i hi).trans (Nat.lt_succ_self _)

theorem admitLocked_numbered {s s' : EvidenceStore} {record : EvidenceRecord} {recovered : Bool}
    {evicted : Nat} (h : Numbered s s.nextInsertionIndex)
    (hadmission : s.admitLocked record recovered = .ok (evicted, s')) :
    Numbered s' s'.nextInsertionIndex := by
  obtain ⟨-, -, rfl⟩ := admitLocked_ok hadmission
  generalize Name.unchecked record.subject.str = key
  have hbump : Numbered { s with nextInsertionIndex := s.nextInsertionIndex + 1 }
      s.nextInsertionIndex := ⟨h.distinct, h.below⟩
  have hroom : Numbered (s.makeRoom key).2 s.nextInsertionIndex :=
    evictFromSubject_numbered (evictOldest_numbered hbump) key
  have hnext : (s.makeRoom key).2.nextInsertionIndex = s.nextInsertionIndex + 1 := by
    unfold makeRoom evictOldest evictFromSubject
    dsimp only
    repeat' split
    all_goals rfl
  have happend := append_numbered (s.stamp record recovered) hroom key
  show Numbered _ (s.makeRoom key).2.nextInsertionIndex
  rw [hnext]
  exact happend

/-- A sweep leaves some of the numbers. -/
theorem sweep_numbered {s : EvidenceStore} (h : Numbered s s.nextInsertionIndex) (move : SelfMove)
    (horizon : Timestamp) (maxRecords : Nat) (token : CancellationToken) :
    Numbered (s.sweep move horizon maxRecords token).2 s.nextInsertionIndex := by
  have hnumbers : ∀ m : OrdMap Name (List EvidenceRecord),
      ((placed m.entries).map fun e => (e.1, e.2.insertionIndex)).map Prod.snd
        = m.values.flatten.map EvidenceRecord.insertionIndex := by
    intro m
    rw [placed, OrdMap.values, List.map_map, List.map_flatMap, List.map_flatten, List.map_map,
      List.flatMap]
    simp only [List.map_map, Function.comp_def]
  have hkept := (sweep_kept s move (fun r => SelfMove.apply_insertionIndex move r)
    horizon maxRecords token).1
  have hsub : ((s.sweep move horizon maxRecords token).2.records.map
      EvidenceRecord.insertionIndex).Sublist (s.records.map EvidenceRecord.insertionIndex) := by
    rw [records, records, ← hnumbers, ← hnumbers, hkept]
    exact ((dropFirst_sublist _ _).map _).map _
  exact ⟨h.distinct.sublist hsub, fun i hi => h.below i (hsub.subset hi)⟩

theorem numbered_step {s : EvidenceStore} (h : Numbered s s.nextInsertionIndex) (call : Call) :
    Numbered (s.step call).2 (s.step call).2.nextInsertionIndex := by
  cases call with
  | ingest record now policy topology =>
      unfold step
      dsimp only
      have hcases := ingest_cases s record now policy topology
      generalize s.ingest record now policy topology = out at hcases
      -- Both an acceptance and a failed admission come after the retirement of older records.
      have hretired : Numbered
          (s.retireOnReset (s.fenceOf record policy) record.provenance.source.name)
          (s.retireOnReset (s.fenceOf record policy)
            record.provenance.source.name).nextInsertionIndex := by
        have hsame := retireOnReset_sameNumbers s (s.fenceOf record policy)
          record.provenance.source.name
        rw [retireOnReset_nextInsertionIndex]
        exact ⟨hsame.records.symm ▸ h.distinct, hsame.records.symm ▸ h.below⟩
      cases hcases with
      | refused e stats => exact h.congr rfl
      | fenced outcome stats state hvalid hroom hstored hstate hlast => exact h.congr rfl
      | unadmitted e => exact hretired
      | stored outcome stats state s₁ hvalid hroom haccepted hadmission =>
          exact (admitLocked_numbered hretired hadmission).congr rfl
  | ingestRecovered record =>
      unfold step
      dsimp only
      have hcases := ingestRecovered_cases s record
      generalize s.ingestRecovered record = out at hcases
      have hknown : Numbered (s.knowSource record.provenance.source) s.nextInsertionIndex :=
        h.congr rfl
      cases hcases with
      | refused e stats => exact h.congr rfl
      | unadmitted e hroom => exact hknown
      | stored outcome s₁ hvalid hroom hadmission =>
          exact admitLocked_numbered hknown hadmission
  | sweep move horizon maxRecords token =>
      have hswept := sweep_numbered h move horizon maxRecords token
      have hnext : (s.sweep move horizon maxRecords token).2.nextInsertionIndex
          = s.nextInsertionIndex := by
        rcases sweep_cases s move horizon maxRecords token with ⟨-, heq⟩ | ⟨-, stats, heq⟩
        · rw [heq]
        · rw [heq]
      show Numbered _ (s.sweep move horizon maxRecords token).2.nextInsertionIndex
      rw [hnext]
      exact hswept
  | resetLiveness => exact h.congr rfl

/-- In every state a store can reach the retained records have distinct numbers. -/
theorem numbered_run (limits : Limits) (calls : List Call) :
    Numbered (run step { limits := limits } calls)
      (run step { limits := limits } calls).nextInsertionIndex := by
  refine run_induction step (fun s => Numbered s s.nextInsertionIndex) ?_
    (fun s call h => numbered_step h call) calls
  exact ⟨List.nodup_nil, fun i hi => absurd hi List.not_mem_nil⟩

/-! ### The specification -/

/-- Whether a record of the bucket `e.1` answers the query. A record is filed under the rendering
of its subject. -/
def answers (query : EvidenceQuery) (e : Name × EvidenceRecord) : Bool :=
  query.subject.all (fun subject => e.1 == Name.unchecked subject.str) && considers query e.2

/-- The retained records that answer the query. -/
def matching (s : EvidenceStore) (query : EvidenceQuery) : List EvidenceRecord :=
  ((placed s.bySubject.entries).filter (answers query)).map Prod.snd

/-- What a query is to give: the matching records, in ascending or descending order, and of these
the first `max_records`. -/
def answer (s : EvidenceStore) (query : EvidenceQuery) : List EvidenceRecord :=
  let sorted := (s.matching query).insertionSort fun a b => querySortKey a ≤ querySortKey b
  (if query.newestFirst then sorted.reverse else sorted).take query.maxRecords

/-- No matching record that the scan leaves out for its budget comes before one it takes, in the
order of the query. -/
def TakesFirst (s : EvidenceStore) (query : EvidenceQuery) : Prop :=
  ∀ a ∈ (s.matching query).take query.maxRecords, ∀ b ∈ (s.matching query).drop query.maxRecords,
    if query.newestFirst then querySortKey b ≤ querySortKey a
    else querySortKey a ≤ querySortKey b

/-- The records filed under a key are its bucket. -/
theorem placed_filter_key {l : List (Name × List EvidenceRecord)}
    (h : l.Pairwise fun a b => a.1 < b.1) (key : Name) :
    ((placed l).filter fun e => e.1 == key).map Prod.snd = (OrdMap.lookupList key l).getD [] := by
  -- An entry is kept whole or dropped whole.
  have hentry : ∀ (k : Name) (b : List EvidenceRecord),
      ((b.map fun r => (k, r)).filter fun e => e.1 == key)
        = if k = key then b.map (fun r => (k, r)) else [] := by
    intro k b
    split
    · rename_i hk
      rw [List.filter_eq_self]
      intro e he
      obtain ⟨r, -, rfl⟩ := List.mem_map.mp he
      simpa using hk
    · rename_i hk
      rw [List.filter_eq_nil_iff]
      intro e he
      obtain ⟨r, -, rfl⟩ := List.mem_map.mp he
      simpa using hk
  induction l with
  | nil => rfl
  | cons e rest ih =>
      obtain ⟨k, b⟩ := e
      obtain ⟨hhead, htail⟩ := List.pairwise_cons.mp h
      have hplaced : placed ((k, b) :: rest) = b.map (fun r => (k, r)) ++ placed rest := rfl
      rw [hplaced, List.filter_append, List.map_append, hentry, ih htail, OrdMap.lookupList]
      by_cases hk : k = key
      · -- No later entry has the key again.
        have hnone : OrdMap.lookupList key rest = none :=
          OrdMap.lookupList_eq_none fun e he => hk ▸ (hhead e he).ne'
        rw [if_pos hk, if_pos hk.symm, hnone, List.map_map]
        simp [Function.comp_def]
      · rw [if_neg hk, if_neg (Ne.symm hk), List.map_nil, List.nil_append]

theorem matching_eq (s : EvidenceStore) (query : EvidenceQuery) :
    s.matching query = (match query.subject with
      | some subject => s.bucket (Name.unchecked subject.str)
      | none => s.records).filter (considers query) := by
  have hsplit : s.matching query = (((placed s.bySubject.entries).filter fun e =>
      query.subject.all fun subject => e.1 == Name.unchecked subject.str).map Prod.snd).filter
        (considers query) := by
    rw [matching, List.filter_map, List.filter_filter]
    congr 1
    refine List.filter_congr fun e _ => ?_
    rw [answers, Bool.and_comm]
    rfl
  rw [hsplit]
  congr 1
  cases query.subject with
  | none =>
      simp only [Option.all_none, List.filter_true]
      exact s.placed_records
  | some subject =>
      simp only [Option.all_some]
      exact placed_filter_key s.bySubject.sorted _

/-! ### The result -/

/-- A query gives what it is to give exactly when its budget cuts off no record that comes before
one it keeps. -/
theorem query_eq_answer_iff (limits : Limits) (calls : List Call) (query : EvidenceQuery) :
    (run step { limits := limits } calls).query query
        = (run step { limits := limits } calls).answer query ↔
      (run step { limits := limits } calls).TakesFirst query := by
  have hdistinct := (numbered_run limits calls).distinct
  generalize run step { limits := limits } calls = s at hdistinct ⊢
  have hkeys : ((s.matching query).map querySortKey).Nodup := by
    have hsub : (s.matching query).Sublist s.records := by
      rw [← s.placed_records]
      exact List.filter_sublist.map Prod.snd
    -- The number is part of the key.
    have hnumbers := hdistinct.sublist (hsub.map EvidenceRecord.insertionIndex)
    refine List.Nodup.of_map (fun k : Timestamp ×ₗ Nat ×ₗ EvidenceId => (ofLex (ofLex k).2).1) ?_
    rw [List.map_map]
    exact hnumbers
  have hquery : s.query query =
      if query.newestFirst then (((s.matching query).take query.maxRecords).insertionSort
        fun a b => querySortKey a ≤ querySortKey b).reverse
      else ((s.matching query).take query.maxRecords).insertionSort
        fun a b => querySortKey a ≤ querySortKey b := by
    rw [matching_eq]
    rfl
  rw [hquery, answer, TakesFirst]
  cases query.newestFirst with
  | false =>
      simp only [Bool.false_eq_true, if_false]
      exact insertionSort_take_iff querySortKey hkeys query.maxRecords
  | true =>
      simp only [if_true]
      have htaken : (((s.matching query).take query.maxRecords).map querySortKey).Nodup :=
        hkeys.sublist ((List.take_sublist _ _).map querySortKey)
      rw [insertionSort_key_reverse htaken, insertionSort_key_reverse hkeys]
      exact insertionSort_take_iff (fun r => OrderDual.toDual (querySortKey r))
        hkeys query.maxRecords

/-- The newest of two records, asked for alone: the scan stops at the older one. -/
theorem query_misses_newest :
    let s := run step { limits := {} } [ingestNow (sampleDrop 1 ⟨10⟩), ingestNow (sampleDrop 2 ⟨20⟩)]
    let query : EvidenceQuery := { maxRecords := 1, newestFirst := true }
    (s.query query).map EvidenceRecord.observedAt = [⟨10⟩] ∧
      (s.answer query).map EvidenceRecord.observedAt = [⟨20⟩] ∧ s.query query ≠ s.answer query := by
  decide +kernel

end EvidenceStore

end CongestionObservatory
