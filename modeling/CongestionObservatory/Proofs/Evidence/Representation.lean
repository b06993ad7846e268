import CongestionObservatory.Proofs.Evidence.StoreCases
import Mathlib.Algebra.GroupWithZero.Nat

/-!
# `CongestionObservatory.Proofs.Evidence.Representation`: the store's representation invariant

The store keeps three redundant structures: the buckets, the global insertion index and the
retained count. `Coherent` ties them together. The index lists, up to order, the insertion
number of every retained record with the key of the bucket that holds it (`placements`).

The global eviction drops the front of a bucket without looking at it. `front_of_least` shows
why that is right: buckets ascend, so the record with the least number overall is the front of
its bucket. `sweepBucket_placements` carries the invariant through the loop of a sweep, at any
exit of the loop and for any effect of a self-move. `store_representation` is the result for
every run under validated limits.
-/

set_option autoImplicit false

namespace CongestionObservatory

open Lib

namespace EvidenceStore

/-- The bucket's records in strictly ascending insertion order. -/
def Ascending (bucket : List EvidenceRecord) : Prop :=
  bucket.Pairwise fun a b => a.insertionIndex < b.insertionIndex

/-- The place of each record of one bucket: its insertion number and the bucket's key. -/
def bucketPlacements (entry : Name × List EvidenceRecord) : List (Nat × Name) :=
  entry.2.map fun r => (r.insertionIndex, entry.1)

/-- The places of all records, bucket by bucket. -/
def placements (buckets : List (Name × List EvidenceRecord)) : List (Nat × Name) :=
  buckets.flatMap bucketPlacements

/-- The redundant structures of the store agree, and every insertion number is below `next`. -/
structure Coherent (s : EvidenceStore) (next : Nat) : Prop where
  indexed : s.insertionOrder.entries.Perm (placements s.bySubject.entries)
  ascending : ∀ e ∈ s.bySubject.entries, Ascending e.2
  short : ∀ e ∈ s.bySubject.entries, e.2.length ≤ s.limits.maxEvidencePerSubject
  below : ∀ e ∈ s.insertionOrder.entries, e.1 < next
  counted : s.retained = s.insertionOrder.size

/-- Coherence reads four fields. -/
theorem Coherent.congr {s t : EvidenceStore} {next : Nat} (h : s.Coherent next)
    (hlimits : t.limits = s.limits) (hbuckets : t.bySubject = s.bySubject)
    (horder : t.insertionOrder = s.insertionOrder) (hretained : t.retained = s.retained) :
    t.Coherent next := by
  refine ⟨?_, ?_, ?_, ?_, ?_⟩
  · rw [horder, hbuckets]
    exact h.indexed
  · rw [hbuckets]
    exact h.ascending
  · rw [hbuckets, hlimits]
    exact h.short
  · rw [horder]
    exact h.below
  · rw [hretained, horder]
    exact h.counted

theorem mem_placements {buckets : List (Name × List EvidenceRecord)} {i : Nat} {key : Name} :
    (i, key) ∈ placements buckets ↔ ∃ b, (key, b) ∈ buckets ∧ ∃ r ∈ b, r.insertionIndex = i := by
  simp only [placements, List.mem_flatMap, bucketPlacements, List.mem_map, Prod.mk.injEq,
    Prod.exists]
  constructor
  · rintro ⟨k, b, hb, r, hr, rfl, rfl⟩
    exact ⟨b, hb, r, hr, rfl⟩
  · rintro ⟨b, hb, r, hr, rfl⟩
    exact ⟨key, b, hb, r, hr, rfl, rfl⟩

theorem bucket_of_find? {s : EvidenceStore} {key : Name} {b : List EvidenceRecord}
    (h : s.bySubject.find? key = some b) : s.bucket key = b := by
  rw [bucket, h, Option.getD_some]

theorem find?_of_bucket_cons {s : EvidenceStore} {key : Name} {r : EvidenceRecord}
    {rest : List EvidenceRecord} (h : s.bucket key = r :: rest) :
    s.bySubject.find? key = some (r :: rest) := by
  unfold bucket at h
  cases hf : s.bySubject.find? key with
  | none => rw [hf] at h; cases h
  | some b => rw [hf] at h; rw [← h]; rfl

/-- The record with the least insertion number is the front of its bucket. -/
theorem front_of_least {s : EvidenceStore} {next i : Nat} {key : Name} (h : s.Coherent next)
    (hfront : s.insertionOrder.front? = some (i, key)) :
    ∃ r rest, s.bucket key = r :: rest ∧ r.insertionIndex = i := by
  obtain ⟨hmem, hleast⟩ := OrdMap.front?_le hfront
  obtain ⟨b, hb, r, hr, hri⟩ := mem_placements.mp (h.indexed.mem_iff.mp hmem)
  have hbucket : s.bucket key = b := bucket_of_find? (OrdMap.find?_eq_some_iff.mpr hb)
  cases b with
  | nil => simp at hr
  | cons first rest =>
      refine ⟨first, rest, hbucket, ?_⟩
      have hle : i ≤ first.insertionIndex :=
        hleast _ (h.indexed.mem_iff.mpr
          (mem_placements.mpr ⟨first :: rest, hb, first, List.mem_cons_self, rfl⟩))
      rcases List.mem_cons.mp hr with rfl | hr
      · exact hri
      · have hlt := (List.pairwise_cons.mp (h.ascending _ hb)).1 r hr
        omega

/-! ### Admission -/

/-- Dropping the front of a bucket, with its number and its count, keeps the store coherent. -/
theorem Coherent.dropFront {s : EvidenceStore} {next : Nat} {key : Name} {r : EvidenceRecord}
    {rest : List EvidenceRecord} (h : s.Coherent next) (hb : s.bucket key = r :: rest)
    (stats : StoreStats) :
    Coherent { s with
      bySubject := s.bySubject.insert key rest
      insertionOrder := s.insertionOrder.erase r.insertionIndex
      retained := s.retained - 1
      stats := stats } next ∧ s.retained - 1 + 1 = s.retained := by
  have hfind := find?_of_bucket_cons hb
  have hmem := OrdMap.find?_eq_some_iff.mp hfind
  -- The bucket's placements are singled out of the whole, its front first: the front's number is
  -- what the insertion order gives up.
  have hsplit : s.insertionOrder.entries.Perm ([] ++ (r.insertionIndex, key) ::
      (bucketPlacements (key, rest) ++ placements (s.bySubject.erase key).entries)) :=
    h.indexed.trans (OrdMap.flatMap_perm_of_some bucketPlacements hfind)
  have hsize := hsplit.length_eq
  have hcount := h.counted
  unfold OrdMap.size at hcount
  rw [List.nil_append, List.length_cons] at hsize
  have herase : (s.insertionOrder.erase r.insertionIndex).entries.Perm
      (bucketPlacements (key, rest) ++ placements (s.bySubject.erase key).entries) := by
    have h := OrdMap.erase_entries_perm hsplit
    rwa [List.nil_append] at h
  refine ⟨⟨?_, ?_, ?_, ?_, ?_⟩, by omega⟩
  · exact herase.trans (OrdMap.flatMap_insert_perm bucketPlacements s.bySubject key rest).symm
  · intro e he
    rcases OrdMap.mem_insert he with rfl | he
    · exact (List.pairwise_cons.mp (h.ascending _ hmem)).2
    · exact h.ascending e he
  · intro e he
    rcases OrdMap.mem_insert he with rfl | he
    · have hle := h.short _ hmem
      simp only [List.length_cons] at hle
      exact (Nat.le_succ _).trans hle
    · exact h.short e he
  · intro e he
    exact h.below e (List.mem_filter.mp he).1
  · show s.retained - 1 = (s.insertionOrder.erase r.insertionIndex).entries.length
    rw [herase.length_eq]
    omega

/-- The global eviction: the store stays coherent, the evicted records leave the count, and a
full store has room afterwards. -/
theorem evictOldest_spec {s : EvidenceStore} {next : Nat} (h : s.Coherent next)
    (hpos : 0 < s.limits.maxRetainedEvidence)
    (hbound : s.retained ≤ s.limits.maxRetainedEvidence) :
    s.evictOldest.2.Coherent next ∧ s.evictOldest.1 + s.evictOldest.2.retained = s.retained ∧
      s.evictOldest.2.retained < s.limits.maxRetainedEvidence := by
  unfold evictOldest
  split
  · rename_i hfull
    have hsize : 0 < s.insertionOrder.size := by
      rw [← h.counted]
      omega
    obtain ⟨⟨i, key⟩, hfront⟩ := OrdMap.front?_isSome_of_size_pos hsize
    obtain ⟨r, rest, hb, hri⟩ := front_of_least h hfront
    simp only [hfront, hb, List.tail_cons]
    obtain ⟨hcoherent, hcount⟩ := h.dropFront hb { s.stats with evicted := s.stats.evicted + 1 }
    rw [hri] at hcoherent
    exact ⟨hcoherent, by omega, by omega⟩
  · rename_i hroom
    exact ⟨h, Nat.zero_add _, not_le.mp hroom⟩

/-- The eviction in the subject's bucket: coherent, counted, and there is room in the bucket. -/
theorem evictFromSubject_spec {s : EvidenceStore} {next : Nat} (key : Name)
    (h : s.Coherent next) (hpos : 0 < s.limits.maxEvidencePerSubject) :
    (s.evictFromSubject key).2.Coherent next ∧
      (s.evictFromSubject key).1 + (s.evictFromSubject key).2.retained = s.retained ∧
      ((s.evictFromSubject key).2.bucket key).length < s.limits.maxEvidencePerSubject := by
  unfold evictFromSubject
  split
  · rename_i front rest hb
    split
    · obtain ⟨hcoherent, hcount⟩ := h.dropFront hb { s.stats with evicted := s.stats.evicted + 1 }
      refine ⟨hcoherent, by dsimp only; omega, ?_⟩
      rw [bucket_of_find? (OrdMap.find?_insert_self _ _ _)]
      have hle := h.short _ (OrdMap.find?_eq_some_iff.mp (find?_of_bucket_cons hb))
      simp only [List.length_cons] at hle
      omega
    · rename_i hroom
      refine ⟨h, Nat.zero_add _, ?_⟩
      rw [hb]
      exact not_le.mp hroom
  · rename_i hb
    refine ⟨⟨?_, ?_, ?_, h.below, h.counted⟩, Nat.zero_add _, ?_⟩
    · -- The lookup creates an empty bucket, which places no record.
      have hins := OrdMap.flatMap_insert_perm bucketPlacements s.bySubject key []
      refine h.indexed.trans (List.Perm.trans ?_ hins.symm)
      cases hf : s.bySubject.find? key with
      | none =>
          rw [OrdMap.erase_of_find?_none hf]
          exact List.Perm.refl _
      | some b =>
          have hnil : b = [] := by rw [← bucket_of_find? hf, hb]
          rw [hnil] at hf
          exact OrdMap.flatMap_perm_of_some bucketPlacements hf
    · intro e he
      rcases OrdMap.mem_insert he with rfl | he
      · exact List.Pairwise.nil
      · exact h.ascending e he
    · intro e he
      rcases OrdMap.mem_insert he with rfl | he
      · exact Nat.zero_le _
      · exact h.short e he
    · rw [bucket_of_find? (OrdMap.find?_insert_self _ _ _)]
      exact hpos

/-- A record with the next insertion number joins a bucket that has room. -/
theorem Coherent.append {s : EvidenceStore} {key : Name} {stored : EvidenceRecord}
    (h : s.Coherent stored.insertionIndex)
    (hroom : (s.bucket key).length < s.limits.maxEvidencePerSubject) :
    (s.append key stored).Coherent (stored.insertionIndex + 1) := by
  -- A subject without a bucket contributes no placement, so both cases read the same.
  have hplace : (placements s.bySubject.entries).Perm
      (bucketPlacements (key, s.bucket key) ++ placements (s.bySubject.erase key).entries) := by
    cases hf : s.bySubject.find? key with
    | none =>
        rw [OrdMap.erase_of_find?_none hf, bucket, hf]
        exact List.Perm.refl _
    | some b =>
        rw [bucket_of_find? hf]
        exact OrdMap.flatMap_perm_of_some bucketPlacements hf
  have hless : ∀ r ∈ s.bucket key, r.insertionIndex < stored.insertionIndex := by
    intro r hr
    refine h.below (r.insertionIndex, key) (h.indexed.mem_iff.mpr (hplace.mem_iff.mpr ?_))
    exact List.mem_append_left _ (List.mem_map.mpr ⟨r, hr, rfl⟩)
  -- `emplace` keeps an entry that is there, so the next number must not be in use.
  have hfresh : s.insertionOrder.find? stored.insertionIndex = none := by
    refine OrdMap.find?_eq_none_iff.mpr fun e he => ?_
    exact ne_of_lt (h.below e he)
  have hemplace : s.insertionOrder.emplace stored.insertionIndex key
      = s.insertionOrder.insert stored.insertionIndex key := by
    rw [OrdMap.emplace, OrdMap.contains, hfresh]
    rfl
  have horder := OrdMap.insert_entries_perm_of_none hfresh key
  have hmemb : ∀ e ∈ (s.bySubject.insert key (s.bucket key ++ [stored])).entries,
      e = (key, s.bucket key ++ [stored]) ∨ e ∈ s.bySubject.entries :=
    fun e he => OrdMap.mem_insert he
  have hbucket : Ascending (s.bucket key) := by
    cases hf : s.bySubject.find? key with
    | none => rw [bucket, hf]; exact List.Pairwise.nil
    | some b =>
        rw [bucket_of_find? hf]
        exact h.ascending _ (OrdMap.find?_eq_some_iff.mp hf)
  unfold EvidenceStore.append
  rw [hemplace]
  refine ⟨?_, ?_, ?_, ?_, ?_⟩
  · refine horder.trans (List.Perm.trans ?_
      (OrdMap.flatMap_insert_perm bucketPlacements s.bySubject key _).symm)
    refine ((h.indexed.trans hplace).cons _).trans ?_
    show ((stored.insertionIndex, key) :: (bucketPlacements (key, s.bucket key) ++ _)).Perm
      (bucketPlacements (key, s.bucket key ++ [stored]) ++ _)
    simp only [bucketPlacements, List.map_append, List.map_cons, List.map_nil, List.append_assoc]
    exact List.perm_middle.symm
  · intro e he
    rcases hmemb e he with rfl | he
    · refine List.pairwise_append.mpr ⟨hbucket, List.pairwise_singleton _ _, fun a ha b hb => ?_⟩
      rw [List.mem_singleton.mp hb]
      exact hless a ha
    · exact h.ascending e he
  · intro e he
    rcases hmemb e he with rfl | he
    · show (s.bucket key ++ [stored]).length ≤ s.limits.maxEvidencePerSubject
      rw [List.length_append, List.length_singleton]
      omega
    · exact h.short e he
  · intro e he
    rcases List.mem_cons.mp (horder.mem_iff.mp he) with rfl | he
    · exact Nat.lt_succ_self _
    · exact (h.below e he).trans (Nat.lt_succ_self _)
  · show s.retained + 1 = _
    rw [OrdMap.size_insert_of_none hfresh, h.counted]

/-- What one admission does to a coherent store within its bound. -/
theorem admitLocked_coherent {s s' : EvidenceStore} {record : EvidenceRecord} {recovered : Bool}
    {evicted : Nat} (h : s.Coherent s.nextInsertionIndex)
    (hretained : 0 < s.limits.maxRetainedEvidence) (hsubject : 0 < s.limits.maxEvidencePerSubject)
    (hbound : s.retained ≤ s.limits.maxRetainedEvidence)
    (hadmission : s.admitLocked record recovered = .ok (evicted, s')) :
    s'.Coherent s'.nextInsertionIndex ∧ s'.retained ≤ s.limits.maxRetainedEvidence ∧
      s'.retained + evicted = s.retained + 1 := by
  obtain ⟨-, rfl, rfl⟩ := admitLocked_ok hadmission
  generalize Name.unchecked record.subject.str = key
  -- The number is taken before any room is made: an eviction works under the raised counter.
  have hbump : Coherent { s with nextInsertionIndex := s.nextInsertionIndex + 1 }
      s.nextInsertionIndex := h.congr rfl rfl rfl rfl
  -- First the store's own bound evicts, then the subject's.
  obtain ⟨hc₁, hcount₁, hlt₁⟩ := evictOldest_spec hbump hretained hbound
  have hlimits := evictOldest_limits { s with nextInsertionIndex := s.nextInsertionIndex + 1 }
  have hsubject' := hlimits ▸ hsubject
  obtain ⟨hc₂, hcount₂, hroom⟩ := evictFromSubject_spec key hc₁ hsubject'
  have hnext : (s.makeRoom key).2.nextInsertionIndex = s.nextInsertionIndex + 1 := by
    unfold makeRoom evictOldest evictFromSubject
    dsimp only
    repeat' split
    all_goals rfl
  have hfinal : ((s.makeRoom key).2.append key (s.stamp record recovered)).Coherent
      (s.nextInsertionIndex + 1) := by
    have hstamp : (s.stamp record recovered).insertionIndex = s.nextInsertionIndex := rfl
    rw [← hstamp]
    refine Coherent.append hc₂ ?_
    rw [makeRoom_limits]
    rwa [hlimits] at hroom
  refine ⟨?_, ?_, ?_⟩
  · show Coherent _ (s.makeRoom key).2.nextInsertionIndex
    rw [hnext]
    exact hfinal
  · show (s.makeRoom key).2.retained + 1 ≤ _
    unfold makeRoom
    dsimp only at hlt₁ ⊢
    omega
  · show (s.makeRoom key).2.retained + 1 + (s.makeRoom key).1 = _
    unfold makeRoom
    dsimp only at hcount₁ ⊢
    omega

/-! ### Sweep -/

theorem SelfMove.apply_insertionIndex (move : SelfMove) (r : EvidenceRecord) :
    (move.apply r).insertionIndex = r.insertionIndex := by
  have h : (move.apply r).withoutOwnedMembers.insertionIndex
      = r.withoutOwnedMembers.insertionIndex := by rw [move.keeps r]
  exact h

/-- The effect of a loop of `sweep` on the index, the count and the places in `before`, in the
bucket and in `after`. -/
structure SweptPlaces (st st' : SweepState) (placed placed' : List (Nat × Name)) : Prop where
  indexed : st.insertionOrder.entries.Perm placed → st'.insertionOrder.entries.Perm placed'
  counted : st.retained = st.insertionOrder.size → st.insertionOrder.entries.Perm placed →
    st'.retained = st'.insertionOrder.size ∧
      st'.retained + st'.removed = st.retained + st.removed
  kept : ∀ e ∈ st'.insertionOrder.entries, e ∈ st.insertionOrder.entries

/-- The loop over one bucket: the index loses exactly the records that leave the bucket, and
the others stay in order. -/
theorem sweepBucket_placements (move : SelfMove) (horizon : Timestamp) (maxRecords : Nat)
    (key : Name) (bucket : List EvidenceRecord) :
    ∀ (shifted : Bool) (st : SweepState) (before after : List (Nat × Name)),
      SweptPlaces st (sweepBucket move horizon maxRecords shifted st bucket).1
        (before ++ bucketPlacements (key, bucket) ++ after)
        (before ++ bucketPlacements
          (key, (sweepBucket move horizon maxRecords shifted st bucket).2) ++ after) ∧
      ((sweepBucket move horizon maxRecords shifted st bucket).2.map
        EvidenceRecord.insertionIndex).Sublist (bucket.map EvidenceRecord.insertionIndex) := by
  induction bucket with
  | nil =>
      intro shifted st before after
      exact ⟨⟨id, fun h _ => ⟨h, rfl⟩, fun e he => he⟩, List.Sublist.refl _⟩
  | cons r rest ih =>
      intro shifted st before after
      have hkeep : ∀ x : EvidenceRecord,
          (if shifted then x else move.apply x).insertionIndex = x.insertionIndex := by
        intro x
        split
        · rfl
        · exact SelfMove.apply_insertionIndex move x
      have hplaces : ∀ l : List EvidenceRecord,
          bucketPlacements (key, l.map fun x => if shifted then x else move.apply x)
            = bucketPlacements (key, l) := by
        intro l
        simp only [bucketPlacements, List.map_map, Function.comp_def, hkeep]
      have hindices : ∀ l : List EvidenceRecord,
          (l.map fun x => if shifted then x else move.apply x).map EvidenceRecord.insertionIndex
            = l.map EvidenceRecord.insertionIndex := by
        intro l
        simp only [List.map_map, Function.comp_def, hkeep]
      rw [sweepBucket]
      dsimp only
      split
      · -- The budget is used up: the rest of the bucket stays.
        rw [hplaces, hindices]
        exact ⟨⟨id, fun h _ => ⟨h, rfl⟩, fun e he => he⟩, List.Sublist.refl _⟩
      split
      · -- The token is cancelled: the rest of the bucket stays.
        rw [hplaces, hindices]
        exact ⟨⟨id, fun h _ => ⟨h, rfl⟩, fun e he => he⟩, List.Sublist.refl _⟩
      split
      · -- The record is removed, and its number with it.
        obtain ⟨hswept, hsub⟩ := ih true { st with
          token := st.token.cancelled.2
          insertionOrder := st.insertionOrder.erase r.insertionIndex
          retained := st.retained - 1
          removed := st.removed + 1 } before after
        refine ⟨⟨fun hperm => ?_, fun hcount hperm => ?_, fun e he => ?_⟩,
          hsub.trans (by rw [List.map_cons]; exact List.sublist_cons_self _ _)⟩
        · refine hswept.indexed (?_ : List.Perm _ _)
          rw [List.append_assoc] at hperm ⊢
          exact OrdMap.erase_entries_perm hperm
        · have hmid : st.insertionOrder.entries.Perm (before ++ (r.insertionIndex, key)
              :: (bucketPlacements (key, rest) ++ after)) := by
            rw [List.append_assoc] at hperm
            exact hperm
          have herase := OrdMap.erase_entries_perm hmid
          have hfull := hmid.length_eq
          have hless := herase.length_eq
          simp only [List.length_append, List.length_cons] at hfull hless
          have hsize : st.retained - 1 = (st.insertionOrder.erase r.insertionIndex).size := by
            unfold OrdMap.size at hcount ⊢
            omega
          obtain ⟨hcount', htotal⟩ := hswept.counted hsize
            (by rw [List.append_assoc]; exact herase)
          refine ⟨hcount', htotal.trans ?_⟩
          unfold OrdMap.size at hcount
          show st.retained - 1 + (st.removed + 1) = st.retained + st.removed
          omega
        · exact (List.mem_filter.mp (hswept.kept e he)).1
      · -- The record is kept and moved behind the ones kept before it.
        obtain ⟨hswept, hsub⟩ := ih shifted { st with token := st.token.cancelled.2 }
          (before ++ [(r.insertionIndex, key)]) after
        have hcons : ∀ l : List EvidenceRecord, ∀ x : EvidenceRecord,
            x.insertionIndex = r.insertionIndex →
            before ++ bucketPlacements (key, x :: l) ++ after
              = before ++ [(r.insertionIndex, key)] ++ bucketPlacements (key, l) ++ after := by
          intro l x hx
          simp [bucketPlacements, hx]
        rw [hcons rest r rfl, hcons _ _ (hkeep r), List.map_cons, List.map_cons, hkeep r]
        exact ⟨⟨hswept.indexed, hswept.counted, hswept.kept⟩, hsub.cons_cons _⟩

/-- One iteration of the outer loop of `sweep`. -/
def sweepEntry (move : SelfMove) (horizon : Timestamp) (maxRecords : Nat) (st : SweepState)
    (_ : Name) (bucket : List EvidenceRecord) : SweepState × List EvidenceRecord :=
  if st.cancelled then (st, bucket) else sweepBucket move horizon maxRecords false st bucket

/-- The outer loop: the invariant goes through all buckets, and each bucket only shrinks. -/
theorem sweepEntries_placements (move : SelfMove) (horizon : Timestamp) (maxRecords : Nat)
    (buckets : List (Name × List EvidenceRecord)) :
    ∀ (st : SweepState) (before : List (Nat × Name)),
      SweptPlaces st
        (OrdMap.mapAccumList (sweepEntry move horizon maxRecords) st buckets).1
        (before ++ placements buckets)
        (before ++ placements
          (OrdMap.mapAccumList (sweepEntry move horizon maxRecords) st buckets).2) ∧
      ∀ e ∈ (OrdMap.mapAccumList (sweepEntry move horizon maxRecords) st buckets).2,
        ∃ b, (e.1, b) ∈ buckets ∧ (e.2.map EvidenceRecord.insertionIndex).Sublist
          (b.map EvidenceRecord.insertionIndex) := by
  induction buckets with
  | nil =>
      intro st before
      exact ⟨⟨id, fun h _ => ⟨h, rfl⟩, fun e he => he⟩, fun e he => absurd he List.not_mem_nil⟩
  | cons entry rest ih =>
      obtain ⟨key, bucket⟩ := entry
      intro st before
      rw [OrdMap.mapAccumList_cons]
      -- An entry behind the cancellation passes through as it is; any other is the inner loop.
      have hfirst : SweptPlaces st (sweepEntry move horizon maxRecords st key bucket).1
            (before ++ bucketPlacements (key, bucket) ++ placements rest)
            (before ++ bucketPlacements
              (key, (sweepEntry move horizon maxRecords st key bucket).2) ++ placements rest) ∧
          ((sweepEntry move horizon maxRecords st key bucket).2.map
            EvidenceRecord.insertionIndex).Sublist (bucket.map EvidenceRecord.insertionIndex) := by
        unfold sweepEntry
        split
        · exact ⟨⟨id, fun h _ => ⟨h, rfl⟩, fun e he => he⟩, List.Sublist.refl _⟩
        · exact sweepBucket_placements move horizon maxRecords key bucket false st before _
      obtain ⟨hswept, hsub⟩ := hfirst
      obtain ⟨hrest, hbuckets⟩ := ih (sweepEntry move horizon maxRecords st key bucket).1
        (before ++ bucketPlacements (key, (sweepEntry move horizon maxRecords st key bucket).2))
      simp only [placements, List.flatMap_cons, ← List.append_assoc] at hswept hrest ⊢
      refine ⟨⟨fun h => hrest.indexed (hswept.indexed h), fun hc hp => ?_,
        fun e he => hswept.kept e (hrest.kept e he)⟩, fun e he => ?_⟩
      · obtain ⟨hc₁, ht₁⟩ := hswept.counted hc hp
        obtain ⟨hc₂, ht₂⟩ := hrest.counted hc₁ (hswept.indexed hp)
        exact ⟨hc₂, ht₂.trans ht₁⟩
      · rcases List.mem_cons.mp he with rfl | he
        · exact ⟨bucket, List.mem_cons_self, hsub⟩
        · obtain ⟨b, hb, hs⟩ := hbuckets e he
          exact ⟨b, List.mem_cons_of_mem _ hb, hs⟩

/-- The number of records the loop of a call removed, whatever the call then returns. -/
def sweptBy (s : EvidenceStore) : Call → Nat
  | .sweep move horizon maxRecords token =>
    if sweepStarts maxRecords token then
      (s.sweepLoop move horizon maxRecords token.cancelled.2).1.removed
    else 0
  | _ => 0

/-- A sweep that completes, stops at its budget or is cancelled leaves a coherent store. -/
theorem sweep_coherent {s : EvidenceStore} (h : s.Coherent s.nextInsertionIndex) (move : SelfMove)
    (horizon : Timestamp) (maxRecords : Nat) (token : CancellationToken) :
    let s' := (s.sweep move horizon maxRecords token).2
    s'.Coherent s'.nextInsertionIndex ∧
      s'.retained + s.sweptBy (.sweep move horizon maxRecords token) = s.retained := by
  dsimp only
  rcases sweep_cases s move horizon maxRecords token with ⟨hstart, heq⟩ | ⟨hstart, stats, heq⟩
  · rw [heq, sweptBy, hstart]
    exact ⟨h, rfl⟩
  · rw [heq, sweptBy, hstart, if_pos rfl]
    obtain ⟨hswept, hbuckets⟩ := sweepEntries_placements move horizon maxRecords
      s.bySubject.entries
      { insertionOrder := s.insertionOrder, retained := s.retained, removed := 0
        token := token.cancelled.2, cancelled := false } []
    simp only [List.nil_append] at hswept
    obtain ⟨hcount, htotal⟩ := hswept.counted h.counted h.indexed
    refine ⟨⟨hswept.indexed h.indexed, fun e he => ?_, fun e he => ?_, fun e he => ?_, hcount⟩,
      htotal⟩
    · obtain ⟨b, hb, hsub⟩ := hbuckets e he
      have hb' := List.pairwise_map.mpr (h.ascending _ hb)
      exact List.pairwise_map.mp (hb'.sublist hsub)
    · obtain ⟨b, hb, hsub⟩ := hbuckets e he
      have hle := hsub.length_le
      rw [List.length_map, List.length_map] at hle
      exact hle.trans (h.short _ hb)
    · exact h.below e (hswept.kept e he)

/-! ### Reboot -/

/-- Retiring the records of a source moves none of them. -/
theorem retireOnReset_coherent {s : EvidenceStore} {next : Nat} (h : s.Coherent next)
    (fence : FenceOutcome) (source : Name) : (s.retireOnReset fence source).Coherent next := by
  unfold retireOnReset
  split
  · let mark (existing : EvidenceRecord) : EvidenceRecord :=
      if existing.provenance.source.name = source then { existing with retired := true }
      else existing
    have hmark : ∀ r, (mark r).insertionIndex = r.insertionIndex := by
      intro r
      show (if _ then _ else _ : EvidenceRecord).insertionIndex = _
      split <;> rfl
    have hentries : ∀ e ∈ (s.retireSource source).bySubject.entries,
        ∃ b, (e.1, b) ∈ s.bySubject.entries ∧ e.2 = b.map mark := by
      intro e he
      obtain ⟨⟨key, b⟩, hb, rfl⟩ := List.mem_map.mp he
      exact ⟨b, hb, rfl⟩
    -- The mark changes no number and no bucket's length, and the invariant reads nothing else.
    have hplace : placements (s.retireSource source).bySubject.entries
        = placements s.bySubject.entries := by
      show placements (s.bySubject.entries.map fun e => (e.1, e.2.map mark)) = _
      simp only [placements, List.flatMap_map, bucketPlacements, List.map_map, Function.comp_def,
        hmark]
      rfl
    refine ⟨?_, fun e he => ?_, fun e he => ?_, h.below, h.counted⟩
    · rw [hplace]
      exact h.indexed
    · obtain ⟨b, hb, heq⟩ := hentries e he
      rw [heq, Ascending, List.pairwise_map]
      exact (h.ascending _ hb).imp fun {a c} hac => by rw [hmark, hmark]; exact hac
    · obtain ⟨b, hb, heq⟩ := hentries e he
      rw [heq, List.length_map]
      exact h.short _ hb
  · exact h

@[simp] theorem retireOnReset_retained (s : EvidenceStore) (fence : FenceOutcome) (source : Name) :
    (s.retireOnReset fence source).retained = s.retained := by
  unfold retireOnReset
  split <;> rfl

@[simp] theorem retireOnReset_nextInsertionIndex (s : EvidenceStore) (fence : FenceOutcome)
    (source : Name) :
    (s.retireOnReset fence source).nextInsertionIndex = s.nextInsertionIndex := by
  unfold retireOnReset
  split <;> rfl

/-! ### Runs -/

/-- The invariant of the store under its limits. -/
structure StoreInvariant (limits : Limits) (s : EvidenceStore) : Prop where
  limits_eq : s.limits = limits
  coherent : s.Coherent s.nextInsertionIndex
  retained_le : s.retained ≤ limits.maxRetainedEvidence
  sources_le : s.sources.size ≤ limits.maxSources

/-- The number of records a reply reports as stored. -/
def storedIn : Reply → Nat
  | .admitted (.ok outcome) => if outcome.stored then 1 else 0
  | _ => 0

/-- The number of evictions a reply reports for a stored record. -/
def evictedIn : Reply → Nat
  | .admitted (.ok outcome) => if outcome.stored then outcome.evicted else 0
  | _ => 0

/-- A known source or a free slot keeps the source table within its bound. -/
theorem sources_insert_le {s : EvidenceStore} {key : Name} (hroom : s.SourceRoom key)
    (h : s.sources.size ≤ s.limits.maxSources) (state : SourceFenceState) :
    (s.sources.insert key state).size ≤ s.limits.maxSources := by
  rcases hroom with hknown | hfree
  · obtain ⟨old, hold⟩ := Option.isSome_iff_exists.mp hknown
    rw [OrdMap.size_insert_of_some hold]
    exact h
  · exact (OrdMap.size_insert_le _ _ _).trans hfree

theorem knowSource_size_le {s : EvidenceStore} {source : SourceId}
    (hroom : s.SourceRoom source.name) (h : s.sources.size ≤ s.limits.maxSources) :
    (s.knowSource source).sources.size ≤ s.limits.maxSources := by
  unfold knowSource OrdMap.emplace
  dsimp only
  split
  · exact h
  · exact sources_insert_le hroom h _

/-- One call keeps the invariant, and the retained count changes by the records it stored,
evicted and swept. -/
theorem storeInvariant_step {limits : Limits} (hretained : 0 < limits.maxRetainedEvidence)
    (hsubject : 0 < limits.maxEvidencePerSubject) {s : EvidenceStore}
    (h : StoreInvariant limits s) (call : Call) :
    StoreInvariant limits (s.step call).2 ∧
      (s.step call).2.retained + evictedIn (s.step call).1 + s.sweptBy call
        = s.retained + storedIn (s.step call).1 := by
  obtain ⟨hlimits, hcoherent, hle, hsources⟩ := h
  subst hlimits
  cases call with
  | ingest record now policy topology =>
      unfold step
      dsimp only
      have hcases := ingest_cases s record now policy topology
      generalize s.ingest record now policy topology = out at hcases
      cases hcases with
      | refused e stats =>
          exact ⟨⟨rfl, hcoherent.congr rfl rfl rfl rfl, hle, hsources⟩, rfl⟩
      -- A record that the fence drops moves its source's state and stores nothing.
      | fenced outcome stats state hvalid hroom hstored hstate hlast =>
          refine ⟨⟨rfl, hcoherent.congr rfl rfl rfl rfl, hle, ?_⟩, ?_⟩
          · exact sources_insert_le hroom hsources state
          · simp [evictedIn, storedIn, sweptBy, hstored]
      -- A reset has retired the source's records by now, although the record itself is then
      -- refused.
      | unadmitted e =>
          refine ⟨⟨retireOnReset_limits _ _ _, ?_, ?_, ?_⟩, ?_⟩
          · rw [retireOnReset_nextInsertionIndex]
            exact retireOnReset_coherent hcoherent _ _
          · rw [retireOnReset_retained]
            exact hle
          · rw [retireOnReset_sources]
            exact hsources
          · simp [evictedIn, storedIn, sweptBy]
      | stored outcome stats state s₁ hvalid hroom haccepted hadmission hstored hgap hdetail hstate
          hlast =>
          have hlim := (admitLocked_limits hadmission).trans (retireOnReset_limits _ _ _)
          have hsrc := (admitLocked_sources hadmission).trans (retireOnReset_sources _ _ _)
          obtain ⟨hc, hb, ht⟩ := admitLocked_coherent
            (by
              rw [retireOnReset_nextInsertionIndex]
              exact retireOnReset_coherent hcoherent _ _)
            (by rw [retireOnReset_limits]; exact hretained)
            (by rw [retireOnReset_limits]; exact hsubject)
            (by rw [retireOnReset_limits, retireOnReset_retained]; exact hle) hadmission
          rw [retireOnReset_limits] at hb
          rw [retireOnReset_retained] at ht
          refine ⟨⟨hlim, hc.congr rfl rfl rfl rfl, hb, ?_⟩, ?_⟩
          · show (s₁.sources.insert _ state).size ≤ _
            rw [hsrc]
            exact sources_insert_le hroom hsources state
          · simpa [evictedIn, storedIn, sweptBy, hstored] using ht
  | ingestRecovered record =>
      unfold step
      dsimp only
      have hcases := ingestRecovered_cases s record
      generalize s.ingestRecovered record = out at hcases
      -- Only the source is entered before the record is admitted.
      have hknown : (s.knowSource record.provenance.source).Coherent s.nextInsertionIndex :=
        hcoherent.congr rfl rfl rfl rfl
      cases hcases with
      | refused e stats =>
          exact ⟨⟨rfl, hcoherent.congr rfl rfl rfl rfl, hle, hsources⟩, rfl⟩
      | unadmitted e hroom =>
          exact ⟨⟨rfl, hknown, hle, knowSource_size_le hroom hsources⟩, rfl⟩
      | stored outcome s₁ hvalid hroom hadmission hstored =>
          obtain ⟨hc, hb, ht⟩ := admitLocked_coherent hknown hretained hsubject hle hadmission
          refine ⟨⟨(admitLocked_limits hadmission).trans rfl, hc, hb, ?_⟩, ?_⟩
          · rw [admitLocked_sources hadmission]
            exact knowSource_size_le hroom hsources
          · have hkept : (s.knowSource record.provenance.source).retained = s.retained := rfl
            rw [hkept] at ht
            simpa [evictedIn, storedIn, sweptBy, hstored] using ht
  | sweep move horizon maxRecords token =>
      obtain ⟨hc, ht⟩ := sweep_coherent hcoherent move horizon maxRecords token
      have hframe : (s.sweep move horizon maxRecords token).2.limits = s.limits ∧
          (s.sweep move horizon maxRecords token).2.sources = s.sources := by
        rcases sweep_cases s move horizon maxRecords token with ⟨-, heq⟩ | ⟨-, stats, heq⟩
        · rw [heq]
          exact ⟨rfl, rfl⟩
        · rw [heq]
          exact ⟨rfl, rfl⟩
      refine ⟨⟨hframe.1, hc, ?_, ?_⟩, ?_⟩
      · show (s.sweep move horizon maxRecords token).2.retained ≤ _
        omega
      · show (s.sweep move horizon maxRecords token).2.sources.size ≤ _
        rw [hframe.2]
        exact hsources
      · show (s.sweep move horizon maxRecords token).2.retained + 0 + _ = s.retained + 0
        omega
  | resetLiveness =>
      refine ⟨⟨rfl, hcoherent.congr rfl rfl rfl rfl, hle, ?_⟩, rfl⟩
      show (s.sources.mapValues _).size ≤ _
      rw [OrdMap.size_mapValues]
      exact hsources

/-- The number of records the sweeps of a run removed. -/
def sweptInRun : EvidenceStore → List Call → Nat
  | _, [] => 0
  | s, call :: rest => s.sweptBy call + sweptInRun (s.step call).2 rest

/-- The number of records a run stored. -/
def storedInRun (history : List (Call × Reply)) : Nat := (history.map fun e => storedIn e.2).sum

/-- The number of records a run evicted. -/
def evictedInRun (history : List (Call × Reply)) : Nat := (history.map fun e => evictedIn e.2).sum

theorem storeInvariant_init (limits : Limits) : StoreInvariant limits { limits := limits } where
  limits_eq := rfl
  coherent := ⟨List.Perm.refl _, fun _ he => absurd he List.not_mem_nil,
    fun _ he => absurd he List.not_mem_nil, fun _ he => absurd he List.not_mem_nil, rfl⟩
  retained_le := Nat.zero_le _
  sources_le := Nat.zero_le _

/-- The invariant holds after every run, and the retained count is the balance of the run. -/
theorem storeInvariant_run {limits : Limits} (hretained : 0 < limits.maxRetainedEvidence)
    (hsubject : 0 < limits.maxEvidencePerSubject) (calls : List Call) :
    ∀ s, StoreInvariant limits s → StoreInvariant limits (run step s calls) ∧
      (run step s calls).retained + evictedInRun (trace step s calls) + sweptInRun s calls
        = s.retained + storedInRun (trace step s calls) := by
  induction calls with
  | nil =>
      intro s h
      exact ⟨h, rfl⟩
  | cons call rest ih =>
      intro s h
      obtain ⟨hnext, hbalance⟩ := storeInvariant_step hretained hsubject h call
      obtain ⟨hrun, htotal⟩ := ih _ hnext
      refine ⟨hrun, ?_⟩
      simp only [run, trace, evictedInRun, storedInRun, sweptInRun, List.map_cons,
        List.sum_cons] at htotal ⊢
      omega

/-- What the invariant says about the fields of the store.

- `index_iff`: the global index maps exactly the insertion numbers of the retained records, each
  to the key of the bucket that holds it;
- `ascending`: each bucket is strictly ascending in its insertion numbers;
- `least_is_front`: the least number of the index belongs to the front of its bucket;
- `below_next`: every insertion number is below the next one;
- `retained_eq_records`, `retained_eq_index`: the count is the number of retained records and
  the size of the index;
- `retained_le`, `bucket_le`, `sources_le`: the configured bounds. -/
structure Representation (s : EvidenceStore) : Prop where
  index_iff : ∀ i key, s.insertionOrder.find? i = some key ↔
    ∃ r ∈ s.bucket key, r.insertionIndex = i
  ascending : ∀ key, Ascending (s.bucket key)
  least_is_front : ∀ i key, s.insertionOrder.front? = some (i, key) →
    ∃ r rest, s.bucket key = r :: rest ∧ r.insertionIndex = i
  below_next : ∀ r ∈ s.records, r.insertionIndex < s.nextInsertionIndex
  retained_eq_records : s.retained = s.records.length
  retained_eq_index : s.retained = s.insertionOrder.size
  retained_le : s.retained ≤ s.limits.maxRetainedEvidence
  bucket_le : ∀ key, (s.bucket key).length ≤ s.limits.maxEvidencePerSubject
  sources_le : s.sources.size ≤ s.limits.maxSources

/-- A bucket is empty or an entry of the map. -/
theorem bucket_mem (s : EvidenceStore) (key : Name) :
    s.bucket key = [] ∨ (key, s.bucket key) ∈ s.bySubject.entries := by
  cases hf : s.bySubject.find? key with
  | none => exact Or.inl (by rw [bucket, hf]; rfl)
  | some b =>
      rw [bucket_of_find? hf]
      exact Or.inr (OrdMap.find?_eq_some_iff.mp hf)

theorem StoreInvariant.representation {limits : Limits} {s : EvidenceStore}
    (h : StoreInvariant limits s) : Representation s := by
  obtain ⟨hlimits, hc, hle, hsources⟩ := h
  subst hlimits
  -- Every placement is a record in a bucket, told with the key of the bucket.
  have hcount : s.records.length = (placements s.bySubject.entries).length := by
    simp only [records, OrdMap.values, placements, List.length_flatten, List.length_flatMap,
      List.map_map, bucketPlacements, List.length_map, Function.comp_def]
  refine ⟨fun i key => ?_, fun key => ?_, fun i key => front_of_least hc, fun r hr => ?_, ?_,
    hc.counted, hle, fun key => ?_, hsources⟩
  · rw [OrdMap.find?_eq_some_iff, hc.indexed.mem_iff, mem_placements]
    constructor
    · rintro ⟨b, hb, hr⟩
      rwa [bucket_of_find? (OrdMap.find?_eq_some_iff.mpr hb)]
    · rintro ⟨r, hr, hi⟩
      rcases s.bucket_mem key with hnil | hmem
      · rw [hnil] at hr
        exact absurd hr List.not_mem_nil
      · exact ⟨_, hmem, r, hr, hi⟩
  · rcases s.bucket_mem key with hnil | hmem
    · rw [hnil]
      exact List.Pairwise.nil
    · exact hc.ascending _ hmem
  · obtain ⟨b, hb, hr⟩ := List.mem_flatten.mp hr
    obtain ⟨⟨key, b'⟩, he, rfl⟩ := List.mem_map.mp hb
    exact hc.below (r.insertionIndex, key)
      (hc.indexed.mem_iff.mpr (mem_placements.mpr ⟨b', he, r, hr, rfl⟩))
  · rw [hcount, ← hc.indexed.length_eq]
    exact hc.counted
  · rcases s.bucket_mem key with hnil | hmem
    · rw [hnil]
      exact Nat.zero_le _
    · exact hc.short _ hmem

/-- The representation invariant and the bounds of the store, after every run of calls from the
empty store under validated limits. The retained count is the number of stored records less the
evicted and the swept ones. -/
theorem store_representation (limits : Limits) (hlimits : limits.validate = .ok ())
    (calls : List Call) :
    Representation (run step { limits := limits } calls) ∧
    (run step { limits := limits } calls).retained
        + evictedInRun (trace step { limits := limits } calls)
        + sweptInRun { limits := limits } calls
      = storedInRun (trace step { limits := limits } calls) := by
  have hpos := Limits.pos_of_validate hlimits
  have hretained := hpos (limits.maxRetainedEvidence, "max_retained_evidence")
    (by simp [Limits.positives])
  have hsubject := hpos (limits.maxEvidencePerSubject, "max_evidence_per_subject")
    (by simp [Limits.positives])
  obtain ⟨hinv, hbalance⟩ := storeInvariant_run hretained hsubject calls _
    (storeInvariant_init limits)
  refine ⟨hinv.representation, ?_⟩
  rw [hbalance]
  exact Nat.zero_add _

/-- A drop observation of one packet on one link. -/
def sampleDrop (sequence : UInt64) (observedAt : Timestamp) : EvidenceRecord :=
  { kind := .dropCount
    subject := .link (EntityId.unchecked (ascii "leaf1-up"))
    provenance := { source := EntityId.unchecked (ascii "agent1"), authority := .measured }
    fence :=
      { source := EntityId.unchecked (ascii "agent1"), boot := 1, incarnation := 1
        sequence := sequence }
    observedAt := observedAt
    receivedAt := observedAt
    clock := .collectorWallClock
    value := { scalar := ⟨0x3FF0000000000000⟩, unit := .packets, semantics := .deltaCounter } }

/-- Limits that keep a single record. -/
def singleRecordLimits : Limits :=
  { maxRetainedEvidence := 1, maxEvidencePerSubject := 1, maxWindowRecords := 1
    maxSnapshotEvidence := 1 }

/-- Three stored records in a store of one, and a sweep of the last: two evictions. -/
theorem store_representation_evict_and_sweep :
    let calls := [Call.ingest (sampleDrop 1 ⟨10⟩) ⟨10⟩ {} none,
      Call.ingest (sampleDrop 2 ⟨20⟩) ⟨20⟩ {} none, Call.ingestRecovered (sampleDrop 2 ⟨30⟩),
      Call.sweep .transfer ⟨40⟩ 8 .never]
    (singleRecordLimits.validate = .ok () ∧
      storedInRun (trace step { limits := singleRecordLimits } calls) = 3 ∧
      evictedInRun (trace step { limits := singleRecordLimits } calls) = 2 ∧
      sweptInRun { limits := singleRecordLimits } calls = 1) ∧
    Representation (run step { limits := singleRecordLimits } calls) ∧
    (run step { limits := singleRecordLimits } calls).retained
        + evictedInRun (trace step { limits := singleRecordLimits } calls)
        + sweptInRun { limits := singleRecordLimits } calls
      = storedInRun (trace step { limits := singleRecordLimits } calls) :=
  ⟨by decide +kernel, store_representation singleRecordLimits (by decide +kernel) _⟩

end EvidenceStore

end CongestionObservatory
