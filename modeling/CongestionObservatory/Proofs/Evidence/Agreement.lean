import CongestionObservatory.Evidence.Evidence
import CongestionObservatory.Lib.Leader
import CongestionObservatory.Lib.Sort
import CongestionObservatory.Proofs.Assessment.OrderIndependence
import Mathlib.Tactic.Linarith

/-!
# `CongestionObservatory.Proofs.Evidence.Agreement`: what a majority is

`assess_agreement` sorts the values, clusters them around leaders and counts each source once.
`assessAgreement_agreement` reads its answer off the clusters and the counts, and
`MajoritySpecification` says what those are: `agreement_meets_specification`.
-/

set_option autoImplicit false

namespace CongestionObservatory

open Lib

/-! ### The index of the majority -/

/-- The scan for the largest value keeps the index of one. -/
theorem foldl_argmax (f : Nat → Nat) (n : Nat) :
    let best := (List.range' 1 n).foldl (fun best i => if f i > f best then i else best) 0
    best ≤ n ∧ ∀ i ≤ n, f i ≤ f best := by
  induction n with
  | zero =>
      refine ⟨le_refl _, fun i hi => ?_⟩
      rw [Nat.le_zero.mp hi]
      exact le_refl _
  | succ n ih =>
      obtain ⟨hle, hmax⟩ := ih
      rw [List.range'_concat, List.foldl_append, List.foldl_cons, List.foldl_nil]
      generalize (List.range' 1 n).foldl _ 0 = best at hle hmax
      dsimp only
      have hlast : 1 + 1 * n = n + 1 := by omega
      rw [hlast]
      split
      · rename_i hgt
        refine ⟨le_refl _, fun i hi => ?_⟩
        rcases Nat.lt_or_ge i (n + 1) with hlt | hge
        · exact (hmax i (by omega)).trans (le_of_lt hgt)
        · rw [le_antisymm hi hge]
      · rename_i hle'
        refine ⟨by omega, fun i hi => ?_⟩
        rcases Nat.lt_or_ge i (n + 1) with hlt | hge
        · exact hmax i (by omega)
        · rw [le_antisymm hi hge]
          exact not_lt.mp hle'

/-- Some cluster has more than half of the sources exactly when the chosen one has. -/
theorem majorityIndex_iff (counts : List Nat) (total : Nat) :
    counts.getD (majorityIndex counts) 0 * 2 > total ↔ ∃ n ∈ counts, total < 2 * n := by
  by_cases hne : counts = []
  · simp [hne]
  have hpos : 0 < counts.length := List.length_pos_of_ne_nil hne
  obtain ⟨hle, hmax⟩ := foldl_argmax (fun i => counts.getD i 0) (counts.length - 1)
  have hlt : majorityIndex counts < counts.length := by
    have hindex : majorityIndex counts ≤ counts.length - 1 := hle
    omega
  constructor
  · intro h
    rw [← List.getElem_eq_getD (h := hlt)] at h
    exact ⟨_, List.getElem_mem hlt, by omega⟩
  · rintro ⟨n, hn, hmajority⟩
    obtain ⟨i, hi, rfl⟩ := List.getElem_of_mem hn
    have hbound : counts.getD i 0 ≤ counts.getD (majorityIndex counts) 0 := hmax i (by omega)
    rw [← List.getElem_eq_getD (h := hi)] at hbound
    omega

/-! ### The clusters -/

section Clusters

variable {α : Type} [Arithmetic α] (tolerance : α) (records : List EvidenceRecord)

/-- `clusters` of `assess_agreement`. -/
def agreementClusters : List (List (Position α)) :=
  (clusterPositions tolerance (orderedPositions records)).1

/-- `sources_per_cluster` of `assess_agreement`. -/
def sourcesPerCluster : List Nat :=
  (List.range (agreementClusters tolerance records).length).map fun i =>
    (clusterPositions tolerance (orderedPositions records)).2.values.count i

/-- The distinct sources. -/
def sourceNames : Finset Name := (records.map fun r => r.provenance.source.name).toFinset

variable {tolerance} {records}

theorem placeInCluster_eq (p : Position α) (clusters : List (List (Position α))) :
    placeInCluster tolerance p clusters
      = Leader.place Position.scalar (withinTolerance tolerance) p clusters := by
  induction clusters with
  | nil => rfl
  | cons cluster rest ih =>
      rw [placeInCluster, Leader.place, ih]
      rfl

/-- The clustering of the code is leader clustering by value. -/
theorem clusterPositions_eq (ordered : List (Position α)) :
    clusterPositions tolerance ordered
      = Leader.clusterBy Position.scalar (withinTolerance tolerance) Position.source ordered := by
  unfold clusterPositions Leader.clusterBy
  simp only [placeInCluster_eq]

theorem mem_orderedPositions {p : Position α} :
    p ∈ orderedPositions records ↔ ∃ r ∈ records, r.position = p := by
  rw [orderedPositions, List.mem_insertionSort, List.mem_map]

variable (α) in
theorem mem_sourceNames {source : Name} :
    source ∈ sourceNames records ↔
      source ∈ (orderedPositions records : List (Position α)).map Position.source := by
  rw [sourceNames, List.mem_toFinset, List.mem_map, List.mem_map]
  constructor
  · rintro ⟨r, hr, rfl⟩
    exact ⟨r.position, mem_orderedPositions.mpr ⟨r, hr, rfl⟩, rfl⟩
  · rintro ⟨p, hp, rfl⟩
    obtain ⟨r, hr, rfl⟩ := mem_orderedPositions.mp hp
    exact ⟨r, hr, rfl⟩

theorem orderedPositions_ne_nil (h : records ≠ []) :
    (orderedPositions records : List (Position α)) ≠ [] := by
  intro hnil
  have hlength := congrArg List.length hnil
  rw [orderedPositions, List.length_insertionSort, List.length_map, List.length_nil] at hlength
  exact h (List.length_eq_zero_iff.mp hlength)

/-- There is one cluster exactly when every position is close to the first one. -/
theorem length_agreementClusters_eq_one_iff {first : Position α} {rest : List (Position α)}
    (h : orderedPositions records = first :: rest) :
    (agreementClusters tolerance records).length = 1 ↔
      ∀ p ∈ rest, withinTolerance tolerance first.scalar p.scalar = true := by
  rw [agreementClusters, clusterPositions_eq, h]
  exact Leader.length_clusterBy_eq_one_iff _ _ _ _ _

/-! ### The answer -/

variable (α) (records) in
theorem size_distinct :
    ((orderedPositions records).foldl (fun m p => m.emplace p.source p)
      (OrdMap.empty : OrdMap Name (Position α))).size = (sourceNames records).card := by
  have hsize : (OrdMap.ofValues Position.source
      (orderedPositions records : List (Position α))).size = (sourceNames records).card :=
    OrdMap.size_eq_card fun s => by rw [mem_sourceNames α, OrdMap.mem_keys_ofValues]
  exact hsize

/-- The answer depends on the records through their comparability, the number of their sources,
the number of clusters, and whether a cluster has a majority. -/
theorem assessAgreement_agreement (h : records ≠ []) (maxCitations : Nat) :
    (assessAgreement records tolerance maxCitations).agreement
      = if comparableRecords records = false then .incomparable
        else if (sourceNames records).card ≤ 1 then .singleSource
        else if (agreementClusters tolerance records).length = 1 then .unanimous
        else if ∃ n ∈ sourcesPerCluster tolerance records, (sourceNames records).card < 2 * n
          then .minority
        else .conflicting := by
  have hmajority := majorityIndex_iff (sourcesPerCluster tolerance records)
    (sourceNames records).card
  have hsize := size_distinct α records
  unfold assessAgreement
  rw [if_neg h]
  dsimp only
  -- The exits of the function in their order, each against the condition of the statement.
  split
  · rename_i hincomparable
    show Agreement.incomparable = _
    rw [if_pos (by simpa using hincomparable)]
  rename_i hcomparable
  rw [if_neg (c := comparableRecords records = false) (by simpa using hcomparable)]
  split
  · rename_i hsources
    show Agreement.singleSource = _
    rw [if_pos (hsize.symm.le.trans hsources)]
  rename_i hsources
  rw [if_neg (c := (sourceNames records).card ≤ 1) fun hle => hsources (hsize.le.trans hle)]
  split
  · rename_i hlength
    show Agreement.unanimous = _
    rw [if_pos (show (agreementClusters tolerance records).length = 1 from hlength)]
  rename_i hlength
  rw [if_neg (c := (agreementClusters tolerance records).length = 1) hlength]
  rw [← hsize] at hmajority ⊢
  split
  · rename_i hmost
    show Agreement.minority = _
    rw [if_pos (hmajority.mp hmost)]
  · rename_i hnone
    show Agreement.conflicting = _
    rw [if_neg fun hmost => hnone (hmajority.mpr hmost)]

theorem comparableRecords_of_uniform
    (hunit : ∀ r ∈ records, ∀ r' ∈ records, r.value.unit = r'.value.unit)
    (hsemantics : ∀ r ∈ records, r.value.semantics ≠ .cumulativeCounter) :
    comparableRecords records = true := by
  cases records with
  | nil => rfl
  | cons first rest =>
      rw [comparableRecords_cons]
      exact ⟨hunit, fun h => absurd h (hsemantics first List.mem_cons_self)⟩

theorem ne_nil_of_sources (hsources : 2 ≤ (sourceNames records).card) : records ≠ [] := by
  intro hnil
  rw [hnil] at hsources
  exact absurd hsources (by decide)

/-- Comparable records of two sources are unanimous, a majority with a minority, or in
conflict. -/
theorem assessAgreement_of_comparable (hcomparable : comparableRecords records = true)
    (hsources : 2 ≤ (sourceNames records).card) (maxCitations : Nat) :
    (assessAgreement records tolerance maxCitations).agreement
      = if (agreementClusters tolerance records).length = 1 then .unanimous
        else if ∃ n ∈ sourcesPerCluster tolerance records, (sourceNames records).card < 2 * n
          then .minority
        else .conflicting := by
  rw [assessAgreement_agreement (ne_nil_of_sources hsources),
    if_neg (c := comparableRecords records = false) (by simp [hcomparable]),
    if_neg (c := (sourceNames records).card ≤ 1) (by omega)]

end Clusters

/-! ### Exact values -/

section Exact

variable (tolerance : ℚ) (records : List EvidenceRecord)

/-- The least value of the records. -/
def IsLeastValue (m : ℚ) : Prop :=
  (∃ r ∈ records, r.scalar = m) ∧ ∀ r ∈ records, m ≤ r.scalar

/-- The cluster holds the source's smallest value. -/
def HoldsSmallest (cluster : List (Position ℚ)) (source : Name) : Prop :=
  Leader.HoldsLeast Position.scalar Position.source (orderedPositions records) cluster source

instance (cluster : List (Position ℚ)) (source : Name) :
    Decidable (HoldsSmallest records cluster source) :=
  inferInstanceAs (Decidable (Leader.HoldsLeast _ _ _ _ _))

variable {tolerance} {records}

theorem withinTolerance_iff (reference value : ℚ) :
    withinTolerance tolerance reference value = true ↔
      |value - reference| ≤ tolerance * max |reference| tiny := by
  have hmax : Arithmetic.max |reference| tiny = max |reference| tiny := by
    rw [Arithmetic.max, max_def_lt]
  unfold withinTolerance
  rw [decide_eq_true_eq]
  show |value - reference| ≤ tolerance * Arithmetic.max |reference| tiny ↔ _
  rw [hmax]

theorem withinTolerance_convex (h : 0 ≤ tolerance) : Leader.Convex (withinTolerance tolerance) := by
  have hscale : ∀ x : ℚ, 0 ≤ tolerance * max |x| tiny := fun x =>
    mul_nonneg h (le_max_of_le_left (abs_nonneg x))
  refine ⟨fun x => ?_, fun x y z hxy hyz hclose => ?_⟩
  · rw [withinTolerance_iff, sub_self, abs_zero]
    exact hscale x
  · rw [withinTolerance_iff, abs_of_nonneg (by linarith)] at hclose
    rw [withinTolerance_iff, abs_of_nonneg (by linarith)]
    linarith

variable (records) in
theorem orderedPositions_ascending :
    (orderedPositions records).Pairwise fun p q : Position ℚ => p.scalar ≤ q.scalar := by
  rw [orderedPositions_eq]
  refine (List.pairwise_insertionSort (· ≤ ·) _).imp fun {p q} h => ?_
  rcases Prod.Lex.toLex_le_toLex.mp (show p.sortKey ≤ q.sortKey from h) with hlt | ⟨heq, -⟩
  · exact hlt.le
  · exact heq.le

variable (records) in
theorem agreementClusters_clustered (h : 0 ≤ tolerance) :
    Leader.Clustered Position.scalar (withinTolerance tolerance)
      (agreementClusters tolerance records) (orderedPositions records) := by
  rw [agreementClusters, clusterPositions_eq]
  exact (Leader.clusterBy_spec _ (withinTolerance_convex h) _ (orderedPositions_ascending records)).1

variable (tolerance) in
/-- What every answer about a group reports. -/
theorem assessAgreement_report (h : records ≠ []) (maxCitations : Nat) :
    (assessAgreement records tolerance maxCitations).distinctSources = (sourceNames records).card ∧
    IsLeastValue records (assessAgreement records tolerance maxCitations).minValue ∧
    (assessAgreement records tolerance maxCitations).citations
      = (((orderedPositions records : List (Position ℚ)).map Position.id).take
          maxCitations).insertionSort (· ≤ ·) := by
  have hsize := size_distinct ℚ records
  have hfields : (assessAgreement records tolerance maxCitations).distinctSources
        = ((orderedPositions records).foldl (fun m p => m.emplace p.source p)
            (OrdMap.empty : OrdMap Name (Position ℚ))).size ∧
      (assessAgreement records tolerance maxCitations).minValue
        = ((orderedPositions records).head?.map Position.scalar).getD 0 ∧
      (assessAgreement records tolerance maxCitations).citations
        = (((orderedPositions records : List (Position ℚ)).map Position.id).take
            maxCitations).insertionSort (· ≤ ·) := by
    unfold assessAgreement
    rw [if_neg h]
    dsimp only
    split
    · exact ⟨rfl, rfl, rfl⟩
    split
    · exact ⟨rfl, rfl, rfl⟩
    split
    · exact ⟨rfl, rfl, rfl⟩
    · split <;> exact ⟨rfl, rfl, rfl⟩
  obtain ⟨hdistinct, hmin, hcitations⟩ := hfields
  refine ⟨hdistinct.trans hsize, ?_, hcitations⟩
  rw [hmin]
  -- The first position has the least value.
  obtain ⟨first, rest, heq⟩ :=
    List.exists_cons_of_ne_nil (@orderedPositions_ne_nil ℚ _ _ h)
  have hascending := orderedPositions_ascending records
  rw [heq] at hascending ⊢
  have hfirst : first ∈ orderedPositions records := heq ▸ List.mem_cons_self
  obtain ⟨r, hr, hposition⟩ := mem_orderedPositions.mp hfirst
  refine ⟨⟨r, hr, congrArg Position.scalar hposition⟩, fun r' hr' => ?_⟩
  have hmem : r'.position ∈ first :: rest := heq ▸ mem_orderedPositions.mpr ⟨r', hr', rfl⟩
  rcases List.mem_cons.mp hmem with hsame | hrest
  · exact (congrArg Position.scalar hsame).ge
  · exact (List.pairwise_cons.mp hascending).1 _ hrest

/-- There is one cluster exactly when every value is close to the least one. -/
theorem length_agreementClusters_iff (htolerance : 0 ≤ tolerance) (h : records ≠ []) {m : ℚ}
    (hm : IsLeastValue records m) :
    (agreementClusters tolerance records).length = 1 ↔
      ∀ r ∈ records, |r.scalar - m| ≤ tolerance * max |m| tiny := by
  obtain ⟨first, rest, heq⟩ :=
    List.exists_cons_of_ne_nil (@orderedPositions_ne_nil ℚ _ _ h)
  -- The first position has the least value.
  have hleast : first.scalar = m := by
    have hascending := orderedPositions_ascending records
    rw [heq] at hascending
    obtain ⟨⟨r, hr, hvalue⟩, hle⟩ := hm
    have hmem : r.position ∈ first :: rest := heq ▸ mem_orderedPositions.mpr ⟨r, hr, rfl⟩
    obtain ⟨r', hr', hfirst⟩ := mem_orderedPositions.mp (heq ▸ List.mem_cons_self)
    have hge : m ≤ first.scalar := hfirst ▸ hle r' hr'
    rcases List.mem_cons.mp hmem with hsame | hrest
    · rw [← hsame]
      exact hvalue
    · exact le_antisymm (hvalue ▸ (List.pairwise_cons.mp hascending).1 _ hrest) hge
  rw [length_agreementClusters_eq_one_iff heq, hleast]
  simp only [withinTolerance_iff]
  constructor
  · intro hall r hr
    have hmem : r.position ∈ first :: rest := heq ▸ mem_orderedPositions.mpr ⟨r, hr, rfl⟩
    rcases List.mem_cons.mp hmem with hsame | hrest
    · have hvalue : r.scalar = m := (congrArg Position.scalar hsame).trans hleast
      rw [hvalue]
      exact (withinTolerance_iff m m).mp ((withinTolerance_convex htolerance).refl m)
    · exact hall r.position hrest
  · intro hall p hp
    have hmem : p ∈ orderedPositions records := by
      rw [heq]
      exact List.mem_cons_of_mem first hp
    obtain ⟨r, hr, rfl⟩ := mem_orderedPositions.mp hmem
    exact hall r hr

/-! ### The counts -/

/-- One cluster holds the smallest value of a source: the first one with a record of it. -/
theorem existsUnique_holdsSmallest (htolerance : 0 ≤ tolerance) {source : Name}
    (hsource : source ∈ sourceNames records) :
    ∃! i : Nat, ∃ c, (agreementClusters tolerance records)[i]? = some c ∧
      HoldsSmallest records c source := by
  have hclustered := agreementClusters_clustered records htolerance
  have hholder : ∀ i : Nat,
      Leader.holder Position.source (agreementClusters tolerance records) source = some i ↔
        ∃ c, (agreementClusters tolerance records)[i]? = some c ∧
          HoldsSmallest records c source :=
    fun _ => Leader.holder_eq_some_iff hclustered (orderedPositions_ascending records)
  obtain ⟨i, hi⟩ := Option.isSome_iff_exists.mp
    ((Leader.holder_isSome_iff hclustered source).mpr ((mem_sourceNames ℚ).mp hsource))
  refine ⟨i, (hholder i).mp hi, fun j hj => ?_⟩
  have hj' := (hholder j).mpr hj
  rw [hi, Option.some.injEq] at hj'
  exact hj'.symm

/-- A cluster is counted by the sources whose smallest value it holds. -/
theorem sourcesPerCluster_eq (htolerance : 0 ≤ tolerance) {i : Nat} {c : List (Position ℚ)}
    (hc : (agreementClusters tolerance records)[i]? = some c) :
    (sourcesPerCluster tolerance records)[i]?
      = some ((sourceNames records).filter fun source => HoldsSmallest records c source).card := by
  have hlt := (List.getElem?_eq_some_iff.mp hc).1
  have hmem := List.mem_of_getElem? hc
  have hflat := (agreementClusters_clustered records htolerance).flatten
  have hcounted : ∀ source,
      source ∈ (sourceNames records).filter (fun source => HoldsSmallest records c source) ↔
        HoldsSmallest records c source := by
    intro source
    rw [Finset.mem_filter]
    refine ⟨And.right, fun hholds => ⟨?_, hholds⟩⟩
    obtain ⟨p, hp, hsource, -⟩ := hholds
    rw [mem_sourceNames ℚ, ← hflat]
    exact List.mem_map.mpr ⟨p, List.mem_flatten.mpr ⟨c, hmem, hp⟩, hsource⟩
  rw [sourcesPerCluster, List.getElem?_map, List.getElem?_range hlt, Option.map_some]
  rw [agreementClusters, clusterPositions_eq] at hc
  rw [clusterPositions_eq, Leader.count_values_clusterBy (withinTolerance_convex htolerance)
    (orderedPositions_ascending records) hc hcounted]

/-- Every source is counted once. -/
theorem sum_sourcesPerCluster (htolerance : 0 ≤ tolerance) :
    (sourcesPerCluster tolerance records).sum = (sourceNames records).card := by
  rw [sourcesPerCluster, agreementClusters, clusterPositions_eq]
  exact Leader.sum_counts (withinTolerance_convex htolerance) (orderedPositions_ascending records)
    fun _ => mem_sourceNames ℚ

/-- The values of a cluster are close to its first value. -/
theorem abs_sub_first_le (htolerance : 0 ≤ tolerance) {first : Position ℚ} {rest : List (Position ℚ)}
    (hc : first :: rest ∈ agreementClusters tolerance records) {p : Position ℚ}
    (hp : p ∈ first :: rest) :
    |p.scalar - first.scalar| ≤ tolerance * max |first.scalar| tiny := by
  have hled := (agreementClusters_clustered records htolerance).led _ hc p hp
  rw [Leader.leads_cons] at hled
  exact (withinTolerance_iff _ _).mp hled

theorem agreement_unanimous_iff (htolerance : 0 ≤ tolerance)
    (hcomparable : comparableRecords records = true) (hsources : 2 ≤ (sourceNames records).card)
    (maxCitations : Nat) {m : ℚ} (hm : IsLeastValue records m) :
    (assessAgreement records tolerance maxCitations).agreement = .unanimous ↔
      ∀ r ∈ records, |r.scalar - m| ≤ tolerance * max |m| tiny := by
  rw [assessAgreement_of_comparable hcomparable hsources,
    ← length_agreementClusters_iff htolerance (ne_nil_of_sources hsources) hm]
  by_cases hlength : (agreementClusters tolerance records).length = 1
  · simp [hlength]
  · rw [if_neg hlength]
    refine iff_of_false ?_ hlength
    split <;> exact Agreement.noConfusion

theorem agreement_minority_iff (hcomparable : comparableRecords records = true)
    (hsources : 2 ≤ (sourceNames records).card) (maxCitations : Nat)
    (hunanimous : (assessAgreement records tolerance maxCitations).agreement ≠ .unanimous) :
    (assessAgreement records tolerance maxCitations).agreement = .minority ↔
      ∃ n ∈ sourcesPerCluster tolerance records, (sourceNames records).card < 2 * n := by
  rw [assessAgreement_of_comparable hcomparable hsources] at hunanimous ⊢
  by_cases hlength : (agreementClusters tolerance records).length = 1
  · rw [if_pos hlength] at hunanimous
    exact absurd rfl hunanimous
  rw [if_neg hlength]
  by_cases hmost : ∃ n ∈ sourcesPerCluster tolerance records, (sourceNames records).card < 2 * n
  · rw [if_pos hmost]
    exact iff_of_true rfl hmost
  · rw [if_neg hmost]
    exact iff_of_false Agreement.noConfusion hmost

theorem agreement_conflicting (hcomparable : comparableRecords records = true)
    (hsources : 2 ≤ (sourceNames records).card) (maxCitations : Nat)
    (hunanimous : (assessAgreement records tolerance maxCitations).agreement ≠ .unanimous)
    (hminority : (assessAgreement records tolerance maxCitations).agreement ≠ .minority) :
    (assessAgreement records tolerance maxCitations).agreement = .conflicting := by
  rw [ne_eq, agreement_minority_iff hcomparable hsources maxCitations hunanimous] at hminority
  rw [assessAgreement_of_comparable hcomparable hsources] at hunanimous ⊢
  by_cases hlength : (agreementClusters tolerance records).length = 1
  · rw [if_pos hlength] at hunanimous
    exact absurd rfl hunanimous
  · rw [if_neg hlength, if_neg hminority]

/-- Every record is cited when there are not too many. -/
theorem mem_citations (h : records ≠ []) {maxCitations : Nat}
    (hlength : records.length ≤ maxCitations) {r : EvidenceRecord} (hr : r ∈ records) :
    r.id ∈ (assessAgreement records tolerance maxCitations).citations := by
  have hall : ((orderedPositions records : List (Position ℚ)).map Position.id).length
      ≤ maxCitations := by
    rw [List.length_map, orderedPositions, List.length_insertionSort, List.length_map]
    exact hlength
  rw [(assessAgreement_report tolerance h maxCitations).2.2, List.mem_insertionSort,
    List.take_of_length_le hall]
  exact List.mem_map.mpr ⟨r.position, mem_orderedPositions.mpr ⟨r, hr, rfl⟩, rfl⟩

/-! ### The specification -/

variable (tolerance) (records) in
/-- What a majority is, for records that can be compared and have at least two sources. -/
structure MajoritySpecification (maxCitations : Nat) : Prop where
  /-- The clusters are consecutive runs of the records in ascending order. -/
  contiguous : (agreementClusters tolerance records).flatten = orderedPositions records ∧
    (∀ c ∈ agreementClusters tolerance records, c ≠ []) ∧
    (orderedPositions records).Pairwise fun p q : Position ℚ => p.scalar ≤ q.scalar
  /-- One cluster holds the smallest value of a source. -/
  once : ∀ source ∈ sourceNames records, ∃! i : Nat, ∃ c,
    (agreementClusters tolerance records)[i]? = some c ∧ HoldsSmallest records c source
  /-- A cluster is counted by the sources whose smallest value it holds. -/
  counted : ∀ (i : Nat) c, (agreementClusters tolerance records)[i]? = some c →
    (sourcesPerCluster tolerance records)[i]?
      = some ((sourceNames records).filter fun source => HoldsSmallest records c source).card
  total : (sourcesPerCluster tolerance records).sum
      = (assessAgreement records tolerance maxCitations).distinctSources ∧
    (assessAgreement records tolerance maxCitations).distinctSources = (sourceNames records).card
  unanimous : ∀ m, IsLeastValue records m →
    ((assessAgreement records tolerance maxCitations).agreement = .unanimous ↔
      ∀ r ∈ records, |r.scalar - m| ≤ tolerance * max |m| tiny)
  minority : (assessAgreement records tolerance maxCitations).agreement ≠ .unanimous →
    ((assessAgreement records tolerance maxCitations).agreement = .minority ↔
      ∃ n ∈ sourcesPerCluster tolerance records, (sourceNames records).card < 2 * n)
  /-- The sources of a majority have their smallest value close to the cluster's first value. -/
  majority : ∀ (i : Nat) c n, (agreementClusters tolerance records)[i]? = some c →
    (sourcesPerCluster tolerance records)[i]? = some n → (sourceNames records).card < 2 * n →
    ∀ source, HoldsSmallest records c source → ∃ first ∈ c.head?, ∃ p ∈ c,
      p.source = source ∧
      (∀ q ∈ orderedPositions records, q.source = source → p.scalar ≤ q.scalar) ∧
      |p.scalar - first.scalar| ≤ tolerance * max |first.scalar| tiny
  conflicting : (assessAgreement records tolerance maxCitations).agreement ≠ .unanimous →
    (assessAgreement records tolerance maxCitations).agreement ≠ .minority →
    (assessAgreement records tolerance maxCitations).agreement = .conflicting
  cited : records.length ≤ maxCitations → ∀ r ∈ records,
    r.id ∈ (assessAgreement records tolerance maxCitations).citations

/-- `assess_agreement` meets the specification for every tolerance and every list of records with
one unit, no cumulative counter and at least two sources. -/
theorem agreement_meets_specification (tolerance : ℚ) (records : List EvidenceRecord)
    (maxCitations : Nat) (htolerance : 0 ≤ tolerance)
    (hunit : ∀ r ∈ records, ∀ r' ∈ records, r.value.unit = r'.value.unit)
    (hsemantics : ∀ r ∈ records, r.value.semantics ≠ .cumulativeCounter)
    (hsources : 2 ≤ (sourceNames records).card) :
    MajoritySpecification tolerance records maxCitations := by
  have hne := ne_nil_of_sources hsources
  have hcomparable := comparableRecords_of_uniform hunit hsemantics
  have hclustered := agreementClusters_clustered records htolerance
  have hdistinct := (assessAgreement_report tolerance hne maxCitations).1
  exact
    { contiguous := ⟨hclustered.flatten, hclustered.ne_nil, orderedPositions_ascending records⟩
      once := fun _ => existsUnique_holdsSmallest htolerance
      counted := fun _ _ => sourcesPerCluster_eq htolerance
      total := ⟨(sum_sourcesPerCluster htolerance).trans hdistinct.symm, hdistinct⟩
      unanimous := fun _ => agreement_unanimous_iff htolerance hcomparable hsources maxCitations
      minority := agreement_minority_iff hcomparable hsources maxCitations
      majority := by
        rintro i c n hc - - source ⟨p, hp, hsource, hleast⟩
        have hmem := List.mem_of_getElem? hc
        obtain ⟨first, rest, rfl⟩ := List.exists_cons_of_ne_nil (hclustered.ne_nil c hmem)
        exact ⟨first, rfl, p, hp, hsource, hleast, abs_sub_first_le htolerance hmem hp⟩
      conflicting := agreement_conflicting hcomparable hsources maxCitations
      cited := fun hlength _ => mem_citations hne hlength }

end Exact

/-- A utilization of one link, as a ratio. -/
def linkUtilization (source : String) (ratio : Double) (sequence : UInt64) : EvidenceRecord :=
  linkObservation .linkUtilization { scalar := ratio, unit := .ratio } source sequence

/-- Two sources near 0.5 and one at 1.0: a majority and a dissenting minority. -/
def dissent : List EvidenceRecord :=
  [linkUtilization "agent1" ⟨0x3FE0000000000000⟩ 1, linkUtilization "agent2" ⟨0x3FF0000000000000⟩ 2,
    linkUtilization "agent3" ⟨0x3FE0000000000000⟩ 3]

theorem dissent_meets_specification :
    MajoritySpecification (1 / 20) dissent 64 ∧
      (assessAgreement dissent (1 / 20 : ℚ) 64).agreement = .minority :=
  ⟨agreement_meets_specification (1 / 20) dissent 64 (by norm_num) (by decide +kernel)
    (by decide +kernel) (by decide +kernel), by decide +kernel⟩

end CongestionObservatory
