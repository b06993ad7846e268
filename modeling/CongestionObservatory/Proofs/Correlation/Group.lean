import CongestionObservatory.Proofs.Correlation.Placement

/-!
# `CongestionObservatory.Proofs.Correlation.Group`: what a grouping is

`Grouped` is what `correlate` is for: a bounded partition of the episodes into groups whose
members are compatible with one reference and near it, with a decision for each of them. With
the test of `intervals_within` for nearness the groups are that for every input. That test
subtracts two timestamps in 64 bits: two episodes 2^63 nanoseconds apart or more have a negative
gap, and may pass for near ones.

`correlate_groups_iff` says when the members are near by the exact distance: at every step the
subtraction that picked the group stayed in 64 bits.
-/

set_option autoImplicit false

namespace CongestionObservatory

open Lib

/-- How far apart two episodes are that do not overlap, as an exact number. -/
def separation (lhs rhs : Episode) : Int :=
  (gapStart lhs rhs).nanos.toInt - (gapEnd lhs rhs).nanos.toInt

/-- The intervals overlap, or are at most `maxGap` apart. -/
def IntervalsNear (maxGap : Duration) (lhs rhs : Episode) : Prop :=
  intervalsOverlap lhs rhs ∨ separation lhs rhs ≤ maxGap.nanos.toInt

instance (maxGap : Duration) (lhs rhs : Episode) : Decidable (IntervalsNear maxGap lhs rhs) :=
  inferInstanceAs (Decidable (_ ∨ _))

/-- The member agrees with the reference where the policy asks for it. -/
structure Compatible (policy : CorrelationPolicy) (reference member : Episode) : Prop where
  policyVersion : member.key.policyVersion = reference.key.policyVersion
  generation : policy.requireSameGeneration = true →
    member.key.generation = reference.key.generation
  mechanism : policy.requireSameMechanism = true → member.key.mechanism = reference.key.mechanism
  scopeKind : policy.mergeAcrossScopeKinds = false →
    member.key.scope.kind = reference.key.scope.kind

/-- The groups are a bounded partition of the episodes into compatible groups, whose members are
near their reference. -/
structure Grouped (near : Episode → Episode → Prop) (episodes : List Episode)
    (policy : CorrelationPolicy) (limits : Limits) (groups : List CorrelationGroup) : Prop where
  disjoint : groups.Pairwise fun g h => g.members.Disjoint h.members
  known : ∀ g ∈ groups, ∀ id ∈ g.members, ∃ e ∈ episodes, e.id = id
  ascending : ∀ g ∈ groups, g.members.Pairwise (· < ·)
  sized : ∀ g ∈ groups, g.members.length ≤ min policy.maxGroupMembers limits.maxGroupMembers
  bounded : groups.length ≤ min policy.maxGroups limits.maxGroups
  covered : ∀ e ∈ episodes, (∃ g ∈ groups, e.id ∈ g.members) ∨
    groups.length = min policy.maxGroups limits.maxGroups
  compatible : ∀ g ∈ groups, ∃ reference ∈ episodes, reference.id ∈ g.members ∧
    (∀ d ∈ g.decisions, d.reference = reference.id) ∧
    ∀ member ∈ episodes, member.id ∈ g.members → Compatible policy reference member ∧
      (member ≠ reference → near member reference)
  decided : ∀ g ∈ groups, ∀ id ∈ g.members,
    (g.decisions.filter fun d => d.member = id ∧ mergeAccepted d.code).length = 1
  identified : ∀ g ∈ groups, g.id = computeGroupId g.members

/-- The subtraction of `intervals_within` against the first episode of the group, where there is
one, does not leave 64 bits. -/
def FitsReference (held : List Episode) (episode : Episode) : Prop :=
  ∀ reference ∈ held.head?,
    intervalsOverlap episode reference ∨ separation episode reference < 2 ^ 63

instance (held : List Episode) (episode : Episode) : Decidable (FitsReference held episode) :=
  inferInstanceAs (Decidable (∀ reference ∈ held.head?, _))

variable {policy : CorrelationPolicy} {limits : Limits} {token : CancellationToken}

/-! ### Nearness -/

/-- Intervals that do not overlap are apart, whichever comes first. -/
theorem separation_pos {lhs rhs : Episode} (hapart : ¬ intervalsOverlap lhs rhs) :
    0 < separation lhs rhs := by
  unfold separation gapStart gapEnd
  by_cases hafter : lhs.firstSeen > rhs.lastSeen
  · rw [if_pos hafter, if_pos hafter]
    exact Int.sub_pos.mpr (Timestamp.lt_iff.mp hafter)
  · rw [if_neg hafter, if_neg hafter]
    refine Int.sub_pos.mpr (Timestamp.lt_iff.mp ?_)
    exact lt_of_not_ge fun hle => hapart ⟨not_lt.mp hafter, hle⟩

/-- An episode that passed the 64-bit test is as near as the test asks for exactly when the
subtraction did not leave 64 bits. -/
theorem intervalsNear_iff_fits {maxGap span : Duration} {episode reference : Episode}
    (hwithin : intervalsWithin episode reference maxGap) (hle : maxGap ≤ span) :
    IntervalsNear span episode reference ↔
      intervalsOverlap episode reference ∨ separation episode reference < 2 ^ 63 := by
  refine or_congr_right' fun hapart => ?_
  have hpos := separation_pos hapart
  have hgap := Duration.le_iff.mp (hwithin.resolve_left hapart)
  have hspan := Duration.le_iff.mp hle
  have hdifference : (gapStart episode reference - gapEnd episode reference).nanos.toInt
      = (separation episode reference).bmod (2 ^ 64) :=
    Int64.toInt_sub _ _
  rw [hdifference, Int.bmod_def] at hgap
  constructor
  · intro hnear
    exact lt_of_le_of_lt hnear (Int64.toInt_lt _)
  · intro hfits
    -- The separation is positive, so below 2^63 it is its own 64-bit value.
    omega

/-- A member agrees with its reference where the policy asks for it. -/
theorem Joinable.compatible {cap size : Nat} {episode reference : Episode}
    (h : Joinable policy cap episode reference size) : Compatible policy reference episode :=
  ⟨h.policyVersion, h.generation, h.mechanism, h.scopeKind⟩

/-! ### The groups of distinct episodes -/

section Placed

variable {ordered : List Episode} {groups : List WorkingGroup}
  (hplaced : placeEpisodes ordered policy limits token = .ok groups)

include hplaced

theorem episodes_mem_placement {w : WorkingGroup} (hw : w ∈ groups) :
    w.episodes ∈ placement policy limits ordered := by
  rw [← (placeEpisodes_spec hplaced).1]
  exact List.mem_map_of_mem hw

theorem length_groups : groups.length = (placement policy limits ordered).length := by
  rw [← (placeEpisodes_spec hplaced).1, length_heldBy]

theorem length_groups_le : groups.length ≤ min policy.maxGroups limits.maxGroups := by
  rw [length_groups hplaced]
  exact FirstFit.length_run_le (Nat.zero_le _)

/-- The episodes of the groups and those left out are the input. -/
theorem exists_ungrouped : ∃ left, ((heldBy groups).flatten ++ left).Perm ordered ∧
    (left ≠ [] → min policy.maxGroups limits.maxGroups ≤ groups.length) := by
  rw [length_groups hplaced, (placeEpisodes_spec hplaced).1]
  exact FirstFit.exists_left _ _ ordered

theorem mem_ordered_of_mem {w : WorkingGroup} (hw : w ∈ groups) {m : Episode}
    (hm : m ∈ w.episodes) : m ∈ ordered := by
  obtain ⟨left, hperm, -⟩ := exists_ungrouped hplaced
  refine hperm.mem_iff.mp (List.mem_append_left _ (List.mem_flatten.mpr ⟨w.episodes, ?_, hm⟩))
  exact List.mem_map_of_mem hw

/-- The later episodes of a group joined its reference. -/
theorem joinable_of_mem {w : WorkingGroup} (hw : w ∈ groups) {m : Episode}
    (hm : m ∈ w.episodes) (hne : m ≠ w.reference) : ∃ size,
    Joinable policy (min policy.maxGroupMembers limits.maxGroupMembers) m w.reference size := by
  have hformed := FirstFit.formed_run (episodes_mem_placement hplaced hw)
  rw [w.episodes_eq_cons] at hformed hm
  obtain ⟨before, haccepted⟩ := hformed.of_head ((List.mem_cons.mp hm).resolve_left hne)
  exact ⟨_, mergeAccepted_judge_iff.mp haccepted⟩

/-- The episodes of a group agree with its reference. -/
theorem compatible_of_mem {w : WorkingGroup} (hw : w ∈ groups) {m : Episode}
    (hm : m ∈ w.episodes) : Compatible policy w.reference m := by
  by_cases hne : m = w.reference
  · rw [hne]
    exact ⟨rfl, fun _ => rfl, fun _ => rfl, fun _ => rfl⟩
  · obtain ⟨size, hjoinable⟩ := joinable_of_mem hplaced hw hm hne
    exact hjoinable.compatible

variable (hids : (ordered.map Episode.id).Nodup)

include hids

theorem members_nodup : (groups.map WorkingGroup.members).flatten.Nodup := by
  obtain ⟨left, hperm, -⟩ := exists_ungrouped hplaced
  have hmembers : groups.map WorkingGroup.members = (heldBy groups).map (List.map Episode.id) := by
    rw [heldBy, List.map_map]
    exact List.map_congr_left fun w _ => w.members_eq
  have hnodup : ((heldBy groups).flatten.map Episode.id ++ left.map Episode.id).Nodup := by
    rw [← List.map_append]
    exact (hperm.map Episode.id).nodup_iff.mpr hids
  rw [hmembers, ← List.map_flatten]
  exact (List.nodup_append.mp hnodup).1

theorem result_members_perm {w : WorkingGroup} (hw : w ∈ groups) :
    w.result.members.Perm w.members :=
  sortUnique_perm_of_nodup
    ((List.nodup_flatten.mp (members_nodup hplaced hids)).1 _ (List.mem_map_of_mem hw))

/-- The members of a returned group are the identities of its episodes. -/
theorem id_mem_members_iff {w : WorkingGroup} (hw : w ∈ groups) {m : Episode} (hm : m ∈ ordered) :
    m.id ∈ w.result.members ↔ m ∈ w.episodes := by
  rw [(result_members_perm hplaced hids hw).mem_iff, w.members_eq, List.mem_map]
  constructor
  · rintro ⟨m', hm', hid⟩
    have hsame : m' = m :=
      List.inj_on_of_nodup_map hids (mem_ordered_of_mem hplaced hw hm') hm hid
    exact hsame ▸ hm'
  · exact fun hmem => ⟨m, hmem, rfl⟩

/-- Each member has one decision that accepted it. -/
theorem accepted_once {w : WorkingGroup} (hw : w ∈ groups) {id : EpisodeId}
    (hid : id ∈ w.result.members) :
    (w.result.decisions.filter fun d => d.member = id ∧ mergeAccepted d.code).length = 1 := by
  have hrecorded := (placeEpisodes_spec hplaced).2 _ (WorkingGroup.recorded_kept policy limits) w hw
  have hnodup := (List.nodup_flatten.mp (members_nodup hplaced hids)).1 _ (List.mem_map_of_mem hw)
  have hmember : id ∈ w.members := (result_members_perm hplaced hids hw).mem_iff.mp hid
  have hcount : (w.decisions.filter fun d => d.member = id ∧ mergeAccepted d.code).length
      = w.members.count id := by
    rw [← hrecorded.accepted, List.count_eq_countP, List.countP_map, List.countP_filter,
      List.countP_eq_length_filter]
    congr 1
    refine List.filter_congr fun d _ => ?_
    rw [Bool.eq_iff_iff]
    simp
  have hsame : (w.result.decisions.filter fun d => d.member = id ∧ mergeAccepted d.code).Perm
      (w.decisions.filter fun d => d.member = id ∧ mergeAccepted d.code) :=
    (List.perm_insertionSort _ w.decisions).filter _
  rw [hsame.length_eq, hcount]
  exact List.count_eq_one_of_mem hnodup hmember

/-- A group is formed by a comparison with its reference exactly when every other member
compares. -/
theorem formed_reference_iff {near : Episode → Episode → Prop} {w : WorkingGroup}
    (hw : w ∈ groups) :
    FirstFit.Formed (fun held e => ∀ reference ∈ held.head?, near e reference) w.episodes ↔
      ∀ m ∈ w.episodes, m ≠ w.reference → near m w.reference := by
  constructor
  · intro hformed m hm hne
    rw [w.episodes_eq_cons] at hformed hm
    obtain ⟨before, hnear⟩ := hformed.of_head ((List.mem_cons.mp hm).resolve_left hne)
    exact hnear w.reference rfl
  · intro hnear
    refine ⟨w.opened, fun before m after hsplit hbefore reference hreference => ?_⟩
    have hhead : w.episodes.head? = some reference := by
      rw [hsplit, List.head?_append_of_ne_nil _ hbefore]
      exact hreference
    have hfirst : w.reference = reference := by
      rw [w.episodes_eq_cons] at hhead
      exact Option.some.inj hhead
    rw [← hfirst]
    -- The identities are distinct, so the first episode does not come again.
    refine hnear m (by simp [hsplit]) fun hm => ?_
    have hnodup : (w.episodes.map Episode.id).Nodup := w.members_eq ▸
      (List.nodup_flatten.mp (members_nodup hplaced hids)).1 _ (List.mem_map_of_mem hw)
    rw [hsplit] at hnodup
    have hmem : m ∈ before := by
      rw [hm, hfirst]
      exact List.mem_of_mem_head? hreference
    exact (List.nodup_append.mp hnodup.of_map).2.2 m hmem m List.mem_cons_self rfl

/-- The reference that the decisions name is the first episode. -/
theorem eq_reference_of_decisions {w : WorkingGroup} (hw : w ∈ groups) {reference : Episode}
    (hmem : reference ∈ ordered) (h : ∀ d ∈ w.result.decisions, d.reference = reference.id) :
    reference = w.reference := by
  have hrecorded := (placeEpisodes_spec hplaced).2 _ (WorkingGroup.recorded_kept policy limits) w hw
  have hsome : w.decisions ≠ [] := by
    intro hnil
    have hmembers := hrecorded.accepted
    rw [hnil, w.members_eq, w.episodes_eq_cons] at hmembers
    cases hmembers
  obtain ⟨d, hd⟩ := List.exists_mem_of_ne_nil _ hsome
  have hid : reference.id = w.reference.id :=
    (h d ((List.mem_insertionSort _).mpr hd)).symm.trans (hrecorded.reference d hd)
  refine List.inj_on_of_nodup_map hids hmem (mem_ordered_of_mem hplaced hw ?_) hid
  exact List.head_mem w.opened

theorem result_disjoint :
    (groups.map WorkingGroup.result).Pairwise fun g h => g.members.Disjoint h.members := by
  have hpairs := (List.nodup_flatten.mp (members_nodup hplaced hids)).2
  rw [List.pairwise_map] at hpairs ⊢
  refine hpairs.imp_of_mem fun {v w} hv hw hdisjoint id hidv hidw => ?_
  exact hdisjoint ((result_members_perm hplaced hids hv).mem_iff.mp hidv)
    ((result_members_perm hplaced hids hw).mem_iff.mp hidw)

theorem result_length_le (hcap : 1 ≤ min policy.maxGroupMembers limits.maxGroupMembers)
    {w : WorkingGroup} (hw : w ∈ groups) :
    w.result.members.length ≤ min policy.maxGroupMembers limits.maxGroupMembers := by
  rw [(result_members_perm hplaced hids hw).length_eq, w.members_eq, List.length_map]
  exact (FirstFit.formed_run (episodes_mem_placement hplaced hw)).length_le hcap
    fun before e haccepted => by
      obtain ⟨reference, rest, -, hjoinable⟩ := joinable_of_groupAccepts haccepted
      exact hjoinable.room

/-- An episode is left out only when there are as many groups as there may be. -/
theorem covered_or_full {e : Episode} (he : e ∈ ordered) :
    (∃ w ∈ groups, e.id ∈ w.result.members) ∨
      groups.length = min policy.maxGroups limits.maxGroups := by
  obtain ⟨left, hperm, hfull⟩ := exists_ungrouped hplaced
  rcases List.mem_append.mp (hperm.mem_iff.mpr he) with hin | hout
  · obtain ⟨held, hheld, he'⟩ := List.mem_flatten.mp hin
    obtain ⟨w, hw, rfl⟩ := List.mem_map.mp hheld
    exact .inl ⟨w, hw, (id_mem_members_iff hplaced hids hw he).mpr he'⟩
  · exact .inr (Nat.le_antisymm (length_groups_le hplaced) (hfull (List.ne_nil_of_mem hout)))

/-- The placed groups are a grouping exactly when their members are near the reference. -/
theorem grouped_iff {near : Episode → Episode → Prop} {episodes : List Episode}
    (hmem : ∀ e, e ∈ episodes ↔ e ∈ ordered)
    (hcap : 1 ≤ min policy.maxGroupMembers limits.maxGroupMembers) :
    Grouped near episodes policy limits (finishGroups groups) ↔
      ∀ w ∈ groups, ∀ m ∈ w.episodes, m ≠ w.reference → near m w.reference := by
  have hperm : (finishGroups groups).Perm (groups.map WorkingGroup.result) :=
    List.perm_insertionSort _ _
  have hlength : (finishGroups groups).length = groups.length := by
    rw [hperm.length_eq, List.length_map]
  have hall : ∀ {P : CorrelationGroup → Prop},
      (∀ g ∈ finishGroups groups, P g) ↔ ∀ w ∈ groups, P w.result := by
    intro P
    simp only [hperm.mem_iff, List.forall_mem_map]
  -- Only the reference says which episodes have to be near. In the grouping it is told by the
  -- decisions, so it is the one the group was opened with.
  constructor
  · intro hgrouped w hw m hm hne
    obtain ⟨reference, hreference, -, hdecisions, hmembers⟩ := hall.mp hgrouped.compatible w hw
    have hfirst := eq_reference_of_decisions hplaced hids hw ((hmem reference).mp hreference)
      hdecisions
    have hordered := mem_ordered_of_mem hplaced hw hm
    have hmember := (id_mem_members_iff hplaced hids hw hordered).mpr hm
    rw [← hfirst] at hne ⊢
    exact (hmembers m ((hmem m).mpr hordered) hmember).2 hne
  · intro hnear
    exact {
      disjoint := (hperm.pairwise_iff fun hgh => List.Disjoint.symm hgh).mpr
        (result_disjoint hplaced hids)
      known := hall.mpr fun w hw id hid => by
        rw [(result_members_perm hplaced hids hw).mem_iff, w.members_eq, List.mem_map] at hid
        obtain ⟨m, hm, hmid⟩ := hid
        exact ⟨m, (hmem m).mpr (mem_ordered_of_mem hplaced hw hm), hmid⟩
      ascending := hall.mpr fun w _ => sortUnique_ascending w.members
      sized := hall.mpr fun w hw => result_length_le hplaced hids hcap hw
      bounded := by
        rw [hlength]
        exact length_groups_le hplaced
      covered := fun e he => by
        rw [hlength]
        refine (covered_or_full hplaced hids ((hmem e).mp he)).imp_left ?_
        rintro ⟨w, hw, hid⟩
        exact ⟨w.result, hperm.mem_iff.mpr (List.mem_map_of_mem hw), hid⟩
      compatible := hall.mpr fun w hw => by
        have hreference := mem_ordered_of_mem hplaced hw (List.head_mem w.opened)
        refine ⟨w.reference, (hmem _).mpr hreference, ?_, fun d hd => ?_, fun m hm hid => ?_⟩
        · exact (id_mem_members_iff hplaced hids hw hreference).mpr (List.head_mem w.opened)
        · have hrecorded := (placeEpisodes_spec hplaced).2 _
            (WorkingGroup.recorded_kept policy limits) w hw
          exact hrecorded.reference d ((List.mem_insertionSort _).mp hd)
        · have hin := (id_mem_members_iff hplaced hids hw ((hmem m).mp hm)).mp hid
          exact ⟨compatible_of_mem hplaced hw hin, hnear w hw m hin⟩
      decided := hall.mpr fun w hw id hid => accepted_once hplaced hids hw hid
      identified := hall.mpr fun w _ => rfl }

/-- By the exact distance the placed groups are a grouping exactly when at every step the
subtraction that picked a group stayed in 64 bits. -/
theorem grouped_near_iff {episodes : List Episode} (hmem : ∀ e, e ∈ episodes ↔ e ∈ ordered)
    (hcap : 1 ≤ min policy.maxGroupMembers limits.maxGroupMembers) :
    Grouped (IntervalsNear policy.maxGap) episodes policy limits (finishGroups groups) ↔
      ∀ held ∈ placement policy limits ordered, FirstFit.Formed FitsReference held := by
  rw [grouped_iff hplaced hids hmem hcap, ← (placeEpisodes_spec hplaced).1, heldBy,
    List.forall_mem_map]
  refine forall₂_congr fun w hw => Iff.trans ?_ (formed_reference_iff hplaced hids hw).symm
  refine forall₂_congr fun m hm => forall_congr' fun hne => ?_
  obtain ⟨size, hjoinable⟩ := joinable_of_mem hplaced hw hm hne
  exact intervalsNear_iff_fits hjoinable.within le_rfl

end Placed

/-! ### Order independence -/

theorem inOrder_eq_of_perm {episodes episodes' : List Episode} (h : episodes'.Perm episodes)
    (hids : (episodes.map Episode.id).Nodup) : inOrder episodes' = inOrder episodes := by
  refine (insertionSort_key_eq_of_perm h.symm ?_).symm
  refine List.Nodup.of_map (fun key => (ofLex key).2) ?_
  rw [List.map_map]
  exact hids

/-- For distinct episodes, a policy that admits members and validated limits, the groups
`correlate` returns are a grouping by the test of `intervals_within`, and the same for every order
of the input. They are one by the exact distance exactly when at every step of the placement the
subtraction that picked a group stayed in 64 bits. -/
theorem correlate_groups_iff {episodes : List Episode} (hids : (episodes.map Episode.id).Nodup)
    (hcap : 1 ≤ policy.maxGroupMembers) (hlimits : limits.validate = .ok ()) :
    (∃ groups, correlate episodes policy limits .never = .ok groups ∧
      Grouped (intervalsWithin · · policy.maxGap) episodes policy limits groups) ∧
    (∀ episodes', episodes'.Perm episodes →
      correlate episodes' policy limits .never = correlate episodes policy limits .never) ∧
    (((∃ groups, correlate episodes policy limits .never = .ok groups ∧
        Grouped (IntervalsNear policy.maxGap) episodes policy limits groups) ∧
      ∀ episodes', episodes'.Perm episodes →
        correlate episodes' policy limits .never = correlate episodes policy limits .never) ↔
    Guarded
      (FirstFit.step (FirstFit.strict (groupAccepts policy limits) FitsReference)
        (groupBound policy limits))
      (FirstFit.Picks (groupAccepts policy limits) FitsReference) [] (inOrder episodes)) := by
  have hperm : (inOrder episodes).Perm episodes := List.perm_insertionSort _ _
  have hmem : ∀ e, e ∈ episodes ↔ e ∈ inOrder episodes := fun e => hperm.mem_iff.symm
  have hids' : ((inOrder episodes).map Episode.id).Nodup :=
    (hperm.map Episode.id).nodup_iff.mpr hids
  have hcap' : 1 ≤ min policy.maxGroupMembers limits.maxGroupMembers :=
    Nat.le_min.mpr ⟨hcap, Limits.pos_of_validate hlimits
      (limits.maxGroupMembers, "max_group_members") (by simp [Limits.positives])⟩
  -- Without a cancellation the placement succeeds, so that only the grouping is in question.
  obtain ⟨groups, hplaced⟩ := placeEpisodes_never (inOrder episodes) policy limits
  have hcorrelate : correlate episodes policy limits .never = .ok (finishGroups groups) :=
    correlateOrdered_of_placeEpisodes hplaced
  -- The order of the input is gone after the sort, as the identities are different.
  have hsame : ∀ episodes', episodes'.Perm episodes →
      correlate episodes' policy limits .never = correlate episodes policy limits .never := by
    intro episodes' hperm'
    rw [correlate, correlate, inOrder_eq_of_perm hperm' hids]
  refine ⟨⟨_, hcorrelate, (grouped_iff hplaced hids' hmem hcap').mpr fun w hw m hm hne => ?_⟩,
    hsame, ?_⟩
  · obtain ⟨size, hjoinable⟩ := joinable_of_mem hplaced hw hm hne
    exact hjoinable.within
  · rw [and_iff_left hsame, ← FirstFit.formed_run_iff, ← placement,
      ← grouped_near_iff hplaced hids' hmem hcap', hcorrelate]
    constructor
    · rintro ⟨groups', hgroups', h⟩
      cases hgroups'
      exact h
    · exact fun h => ⟨_, rfl, h⟩

theorem oneTenant_grouped :
    (∃ groups, correlate oneTenant {} {} .never = .ok groups ∧
      Grouped (IntervalsNear (Duration.fromSeconds 10)) oneTenant {} {} groups) ∧
      ∀ episodes', episodes'.Perm oneTenant →
        correlate episodes' {} {} .never = correlate oneTenant {} {} .never := by
  have hgroups := @correlate_groups_iff {} {} oneTenant (by decide +kernel) (by decide)
    (by decide +kernel)
  refine hgroups.2.2.mpr ?_
  have hsorted : inOrder oneTenant = oneTenant := by decide +kernel
  rw [hsorted]
  exact FirstFit.guarded_pair (by decide +kernel)

/-- Two episodes 2^63 nanoseconds apart. -/
def farApart : List Episode := [episodeSeen 1 "" (-9223372036854775808), episodeSeen 2 "" 0]

/-- The gap wraps to a negative number and the episodes are merged. -/
theorem farApart_not_grouped : (farApart.map Episode.id).Nodup ∧
    1 ≤ ({} : CorrelationPolicy).maxGroupMembers ∧ ({} : Limits).validate = .ok () ∧
    ¬ ((∃ groups, correlate farApart {} {} .never = .ok groups ∧
        Grouped (IntervalsNear ({} : CorrelationPolicy).maxGap) farApart {} {} groups) ∧
      ∀ episodes', episodes'.Perm farApart →
        correlate episodes' {} {} .never = correlate farApart {} {} .never) := by
  refine ⟨by decide +kernel, by decide, by decide +kernel, ?_⟩
  rintro ⟨⟨groups, hgroups, hgrouped⟩, -⟩
  have hmembers : (correlate farApart {} {} .never).toOption.map
      (List.map CorrelationGroup.members) = some [farApart.map Episode.id] := by decide +kernel
  rw [hgroups] at hmembers
  obtain ⟨g, rfl, hg⟩ := List.map_eq_singleton_iff.mp (Option.some.inj hmembers)
  obtain ⟨reference, hreference, -, -, hnear⟩ := hgrouped.compatible g List.mem_cons_self
  have hfar : ∀ reference ∈ farApart, ∃ member ∈ farApart, member ≠ reference ∧
      ¬ IntervalsNear ({} : CorrelationPolicy).maxGap member reference := by decide +kernel
  obtain ⟨member, hmember, hne, hnot⟩ := hfar reference hreference
  exact hnot ((hnear member hmember (hg ▸ List.mem_map_of_mem hmember)).2 hne)

end CongestionObservatory
