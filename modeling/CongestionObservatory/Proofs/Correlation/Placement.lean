import CongestionObservatory.Lib.FirstFit
import CongestionObservatory.Correlation.Group

/-!
# `CongestionObservatory.Proofs.Correlation.Placement`: the placement loop is first fit

The working groups of `correlate`, seen as the lists of their episodes, are the groups of a
first-fit placement whose test is `judge` against the reference (`heldBy_placeEpisodes`). What
the placement library knows of such groups then holds of the groups `correlate` returns.

Besides the episodes a working group keeps the decisions made about it. `Recorded` is what they
say at every moment: each is about the reference, and those that accepted are the members in the
order they came.

A group compares an episode with its reference and with no other member. `Joinable` is what that
comparison asks for. `tenants_apart_iff` says when it keeps the tenants apart: a reference with a
tenant does. An unattributed reference accepts every tenant, so two different tenants can meet in
its group.
-/

set_option autoImplicit false

namespace CongestionObservatory

open Lib

variable {policy : CorrelationPolicy} {limits : Limits} {token token' : CancellationToken}
  {episode : Episode}

/-- The test of the placement: `judge` against the first episode of the group. -/
def groupAccepts (policy : CorrelationPolicy) (limits : Limits) (held : List Episode)
    (episode : Episode) : Bool :=
  match held with
  | [] => false
  | reference :: _ => mergeAccepted (judge policy
      (min policy.maxGroupMembers limits.maxGroupMembers) episode reference held.length).1

/-- The number of groups there may be. -/
def groupBound (policy : CorrelationPolicy) (limits : Limits) : Nat :=
  min policy.maxGroups limits.maxGroups

/-- The placement `correlate` makes. -/
def placement (policy : CorrelationPolicy) (limits : Limits) (ordered : List Episode) :
    List (List Episode) :=
  run (FirstFit.step (groupAccepts policy limits) (groupBound policy limits)) [] ordered

/-- The episodes each working group holds. -/
def heldBy (groups : List WorkingGroup) : List (List Episode) := groups.map WorkingGroup.episodes

/-! ### One comparison -/

/-- What the decision about an episode asks for before it merges: agreement with the reference
where the policy wants it, room in the group, and the 64-bit test of the intervals. -/
structure Joinable (policy : CorrelationPolicy) (cap : Nat) (episode reference : Episode)
    (size : Nat) : Prop where
  generation : policy.requireSameGeneration = true →
    episode.key.generation = reference.key.generation
  mechanism : policy.requireSameMechanism = true → episode.key.mechanism = reference.key.mechanism
  policyVersion : episode.key.policyVersion = reference.key.policyVersion
  scopeKind : policy.mergeAcrossScopeKinds = false →
    episode.key.scope.kind = reference.key.scope.kind
  tenant : policy.mergeAcrossTenants = false → episode.key.tenant.valid = true →
    reference.key.tenant.valid = true → episode.key.tenant = reference.key.tenant
  room : size < cap
  within : intervalsWithin episode reference policy.maxGap

theorem mergeAccepted_judge_iff {cap size : Nat} {reference : Episode} :
    mergeAccepted (judge policy cap episode reference size).1 = true ↔
      Joinable policy cap episode reference size := by
  unfold judge
  constructor
  · intro h
    split at h
    · cases h
    rename_i hgeneration
    split at h
    · cases h
    rename_i hmechanism
    split at h
    · cases h
    rename_i hversion
    split at h
    · cases h
    rename_i hkind
    split at h
    · cases h
    rename_i htenant
    split at h
    · cases h
    rename_i hroom
    split at h
    · cases h
    rename_i hwithin
    exact {
      generation := fun hrequired => not_not.mp fun hne => hgeneration ⟨hrequired, hne⟩
      mechanism := fun hrequired => not_not.mp fun hne => hmechanism ⟨hrequired, hne⟩
      policyVersion := not_not.mp hversion
      scopeKind := fun hrequired => not_not.mp fun hne => hkind ⟨by simp [hrequired], hne⟩
      tenant := fun hrequired hepisode hreference => not_not.mp fun hne =>
        htenant ⟨by simp [hrequired], hepisode, hreference, hne⟩
      room := Nat.lt_of_not_ge hroom
      within := not_not.mp hwithin }
  · intro h
    rw [if_neg fun hbad => hbad.2 (h.generation hbad.1),
      if_neg fun hbad => hbad.2 (h.mechanism hbad.1), if_neg fun hbad => hbad h.policyVersion,
      if_neg fun hbad => hbad.2 (h.scopeKind (Bool.eq_false_iff.mpr hbad.1)),
      if_neg fun hbad => hbad.2.2.2 (h.tenant (Bool.eq_false_iff.mpr hbad.1) hbad.2.1 hbad.2.2.1),
      if_neg (Nat.not_le.mpr h.room), if_neg fun hbad => hbad h.within]
    split <;> rfl

/-- A group that accepts an episode has a reference the episode may join. -/
theorem joinable_of_groupAccepts {held : List Episode}
    (h : groupAccepts policy limits held episode = true) : ∃ reference rest,
      held = reference :: rest ∧ Joinable policy
        (min policy.maxGroupMembers limits.maxGroupMembers) episode reference held.length := by
  cases held with
  | nil => cases h
  | cons reference rest => exact ⟨reference, rest, rfl, mergeAccepted_judge_iff.mp h⟩

namespace WorkingGroup

variable {group : WorkingGroup}

theorem episodes_eq_cons (group : WorkingGroup) :
    group.episodes = group.reference :: group.episodes.tail :=
  (List.cons_head_tail group.opened).symm

theorem groupAccepts_episodes (policy : CorrelationPolicy) (limits : Limits) (group : WorkingGroup)
    (episode : Episode) : groupAccepts policy limits group.episodes episode =
      mergeAccepted (judge policy (min policy.maxGroupMembers limits.maxGroupMembers) episode
        group.reference group.members.length).1 := by
  have hlength : group.members.length = group.episodes.length := by
    rw [group.members_eq, List.length_map]
  rw [hlength]
  conv_lhs => rw [group.episodes_eq_cons]
  rw [groupAccepts, ← group.episodes_eq_cons]

/-- What one comparison can do. -/
theorem compare_cases (policy : CorrelationPolicy) (limits : Limits) (group : WorkingGroup)
    (episode : Episode) : ∃ code detail,
    groupAccepts policy limits group.episodes episode = mergeAccepted code ∧
    group.compare policy (min policy.maxGroupMembers limits.maxGroupMembers) episode =
      if mergeAccepted code then (true, (group.record episode code detail).take episode)
      else (false, group.record episode code detail) :=
  ⟨_, _, groupAccepts_episodes policy limits group episode, rfl⟩

theorem reference_record (code : MergeDecisionCode) (detail : Text) :
    (group.record episode code detail).reference = group.reference := rfl

theorem reference_take : (group.take episode).reference = group.reference := by
  simp only [reference, take]
  exact List.head_append_of_ne_nil group.opened

/-- What the decisions of a group say at every moment. -/
structure Recorded (group : WorkingGroup) : Prop where
  reference : ∀ d ∈ group.decisions, d.reference = group.reference.id
  accepted : (group.decisions.filter fun d => mergeAccepted d.code).map MergeDecision.member
    = group.members

variable (policy limits) in
/-- What holds of a new group and stays after every comparison. -/
structure Kept (P : WorkingGroup → Prop) : Prop where
  opened : ∀ episode, P (ofEpisode episode)
  compared : ∀ group episode, P group →
    P (group.compare policy (min policy.maxGroupMembers limits.maxGroupMembers) episode).2

theorem recorded_ofEpisode (episode : Episode) : (ofEpisode episode).Recorded where
  reference d hd := by
    rw [List.mem_singleton.mp hd]
    rfl
  accepted := rfl

theorem Recorded.compare (h : group.Recorded) (policy : CorrelationPolicy) (limits : Limits)
    (episode : Episode) :
    (group.compare policy (min policy.maxGroupMembers limits.maxGroupMembers)
      episode).2.Recorded := by
  obtain ⟨code, detail, -, hcompare⟩ := compare_cases policy limits group episode
  have hreference : ∀ d ∈ (group.record episode code detail).decisions,
      d.reference = group.reference.id := by
    intro d hd
    rcases List.mem_append.mp hd with hd | hd
    · exact h.reference d hd
    · rw [List.mem_singleton.mp hd]
  have hfilter : ((group.record episode code detail).decisions.filter
      fun d => mergeAccepted d.code).map MergeDecision.member
        = group.members ++ if mergeAccepted code then [episode.id] else [] := by
    rw [record, List.filter_append, List.map_append, h.accepted, List.filter_singleton]
    cases mergeAccepted code <;> rfl
  rw [hcompare]
  cases hcode : mergeAccepted code with
  | true =>
      rw [hcode] at hfilter
      exact ⟨fun d hd => by rw [if_pos rfl, reference_take]; exact hreference d hd, hfilter⟩
  | false =>
      rw [hcode] at hfilter
      exact ⟨hreference, hfilter.trans (List.append_nil _)⟩

theorem recorded_kept (policy : CorrelationPolicy) (limits : Limits) :
    Kept policy limits Recorded where
  opened := recorded_ofEpisode
  compared _ episode h := h.compare policy limits episode

end WorkingGroup

/-! ### The loops -/

theorem pollCorrelation_never : pollCorrelation .never = .ok .never := rfl

/-- The loop over the groups is the offer of the placement, and no group loses what comparisons
keep. -/
theorem offerEpisode_spec {groups groups' : List WorkingGroup} {placed : Bool}
    (h : offerEpisode policy (min policy.maxGroupMembers limits.maxGroupMembers) episode groups
      token = .ok (placed, groups', token')) :
    (if placed then FirstFit.offer (groupAccepts policy limits) episode (heldBy groups)
        = some (heldBy groups')
      else FirstFit.offer (groupAccepts policy limits) episode (heldBy groups) = none ∧
        heldBy groups' = heldBy groups) ∧
    ∀ P, WorkingGroup.Kept policy limits P → (∀ g ∈ groups, P g) → ∀ g ∈ groups', P g := by
  -- The loop polls its token before each group, so the token is generalised with the groups.
  induction groups generalizing groups' placed token token' with
  | nil =>
      cases h
      exact ⟨⟨rfl, rfl⟩, fun _ _ h => h⟩
  | cons group rest ih =>
      rw [offerEpisode] at h
      obtain ⟨polled, -, h⟩ := bind_eq_ok.mp h
      obtain ⟨code, detail, haccepts, hcompare⟩ :=
        WorkingGroup.compare_cases policy limits group episode
      have hcompared := fun P (hkept : WorkingGroup.Kept policy limits P) (hgroup : P group) =>
        hkept.compared group episode hgroup
      rw [hcompare] at h hcompared
      cases hcode : mergeAccepted code with
      | true =>
          simp only [hcode, if_true] at h hcompared
          cases h
          refine ⟨?_, fun P hP hall => ?_⟩
          · simp [heldBy, FirstFit.offer, haccepts, hcode, WorkingGroup.take, WorkingGroup.record]
          · exact List.forall_mem_cons.mpr ⟨hcompared P hP (hall group List.mem_cons_self),
              fun g hg => hall g (List.mem_cons_of_mem _ hg)⟩
      | false =>
          simp only [hcode, Bool.false_eq_true, if_false] at h hcompared
          obtain ⟨⟨placed', rest', token''⟩, hrest, h⟩ := bind_eq_ok.mp h
          cases h
          obtain ⟨hoffer, hkeep⟩ := ih hrest
          refine ⟨?_, fun P hP hall => ?_⟩
          · simp only [heldBy, List.map_cons, FirstFit.offer, haccepts, hcode, Bool.false_eq_true,
              if_false] at hoffer ⊢
            cases placed' with
            | true =>
                simp only [if_true] at hoffer ⊢
                rw [hoffer]
                rfl
            | false =>
                simp only [Bool.false_eq_true, if_false] at hoffer ⊢
                rw [hoffer.1, hoffer.2]
                exact ⟨rfl, rfl⟩
          · exact List.forall_mem_cons.mpr ⟨hcompared P hP (hall group List.mem_cons_self),
              hkeep P hP fun g hg => hall g (List.mem_cons_of_mem _ hg)⟩

theorem length_heldBy (groups : List WorkingGroup) : (heldBy groups).length = groups.length :=
  List.length_map _

/-- One turn of the loop over the episodes is one placement. -/
theorem placeEpisode_spec {state state' : List WorkingGroup × CancellationToken}
    (h : placeEpisode policy limits state episode = .ok state') :
    heldBy state'.1 = FirstFit.place (groupAccepts policy limits) (groupBound policy limits)
        (heldBy state.1) episode ∧
    ∀ P, WorkingGroup.Kept policy limits P → (∀ g ∈ state.1, P g) → ∀ g ∈ state'.1, P g := by
  rw [placeEpisode] at h
  obtain ⟨polled, -, h⟩ := bind_eq_ok.mp h
  obtain ⟨⟨placed, groups, token⟩, hoffered, h⟩ := bind_eq_ok.mp h
  obtain ⟨hoffer, hkeep⟩ := offerEpisode_spec hoffered
  cases placed with
  | true =>
      cases h
      simp only [if_true] at hoffer
      exact ⟨by simp only [FirstFit.place, hoffer], hkeep⟩
  | false =>
      simp only [Bool.false_eq_true, if_false] at hoffer h
      have hlength : (heldBy state.1).length = groups.length := by
        rw [← hoffer.2, length_heldBy]
      -- The episode found no group. It opens one where the bound allows it, and is passed over
      -- otherwise.
      by_cases hfull : groups.length ≥ min policy.maxGroups limits.maxGroups
      · rw [if_pos hfull] at h
        cases h
        refine ⟨?_, hkeep⟩
        simp only [FirstFit.place, hoffer.1, hoffer.2, hlength, groupBound,
          if_neg (Nat.not_lt.mpr hfull)]
      · rw [if_neg hfull] at h
        cases h
        refine ⟨?_, fun P hP hall => List.forall_mem_append.mpr ⟨hkeep P hP hall, ?_⟩⟩
        · have hheld : heldBy (groups ++ [.ofEpisode episode]) = heldBy state.1 ++ [[episode]] := by
            rw [← hoffer.2]
            simp [heldBy, WorkingGroup.ofEpisode]
          rw [hheld]
          simp only [FirstFit.place, hoffer.1, hlength, groupBound,
            if_pos (Nat.lt_of_not_ge hfull)]
        · exact List.forall_mem_singleton.mpr (hP.opened episode)

/-- The loop over the episodes is the placement, and every group has what comparisons keep. -/
theorem placeEpisodes_spec {ordered : List Episode} {groups : List WorkingGroup}
    (h : placeEpisodes ordered policy limits token = .ok groups) :
    heldBy groups = placement policy limits ordered ∧
      ∀ P, WorkingGroup.Kept policy limits P → ∀ g ∈ groups, P g := by
  obtain ⟨⟨final, token'⟩, hfold, hfinal⟩ := bind_eq_ok.mp h
  cases hfinal
  have hgen : ∀ (ordered : List Episode) (state state' : List WorkingGroup × CancellationToken),
      ordered.foldlM (placeEpisode policy limits) state = .ok state' →
      heldBy state'.1 = run (FirstFit.step (groupAccepts policy limits) (groupBound policy limits))
        (heldBy state.1) ordered ∧
      ∀ P, WorkingGroup.Kept policy limits P → (∀ g ∈ state.1, P g) → ∀ g ∈ state'.1, P g := by
    intro ordered
    induction ordered with
    | nil =>
        intro state state' h
        cases h
        exact ⟨rfl, fun _ _ hall => hall⟩
    | cons episode rest ih =>
        intro state state' h
        rw [List.foldlM_cons] at h
        obtain ⟨next, hplace, hrest⟩ := bind_eq_ok.mp h
        obtain ⟨hheld, hkeep⟩ := placeEpisode_spec hplace
        obtain ⟨hrun, hfinal⟩ := ih next state' hrest
        exact ⟨by rw [hrun, hheld]; rfl, fun P hP hall => hfinal P hP (hkeep P hP hall)⟩
  obtain ⟨hheld, hkeep⟩ := hgen ordered ([], token) (groups, token') hfold
  exact ⟨hheld, fun P hP => hkeep P hP (by simp)⟩

/-- A token nobody cancels lets the loops run to their end. -/
theorem placeEpisodes_never (ordered : List Episode) (policy : CorrelationPolicy)
    (limits : Limits) : ∃ groups, placeEpisodes ordered policy limits .never = .ok groups := by
  -- A cancelled poll is the only error of the three loops, from the inner one outwards.
  have hoffer : ∀ (cap : Nat) (episode : Episode) (groups : List WorkingGroup),
      ∃ placed groups', offerEpisode policy cap episode groups .never
        = .ok (placed, groups', .never) := by
    intro cap episode groups
    induction groups with
    | nil => exact ⟨false, [], rfl⟩
    | cons group rest ih =>
        obtain ⟨placed, rest', hrest⟩ := ih
        rw [offerEpisode, pollCorrelation_never]
        rcases hcompare : group.compare policy cap episode with ⟨took, group'⟩
        cases took with
        | true => exact ⟨true, group' :: rest, by simp [bind, Except.bind]⟩
        | false =>
            exact ⟨placed, group' :: rest', by simp [hrest, bind, Except.bind]⟩
  have hplace : ∀ (episode : Episode) (groups : List WorkingGroup),
      ∃ groups', placeEpisode policy limits (groups, .never) episode = .ok (groups', .never) := by
    intro episode groups
    obtain ⟨placed, groups', hoffered⟩ :=
      hoffer (min policy.maxGroupMembers limits.maxGroupMembers) episode groups
    simp only [placeEpisode, pollCorrelation_never, hoffered, bind, Except.bind]
    split
    · exact ⟨_, rfl⟩
    · split
      · exact ⟨_, rfl⟩
      · exact ⟨_, rfl⟩
  have hfold : ∀ (ordered : List Episode) (groups : List WorkingGroup), ∃ groups',
      ordered.foldlM (placeEpisode policy limits) (groups, .never) = .ok (groups', .never) := by
    intro ordered
    induction ordered with
    | nil => exact fun groups => ⟨groups, rfl⟩
    | cons episode rest ih =>
        intro groups
        obtain ⟨next, hnext⟩ := hplace episode groups
        obtain ⟨final, hfinal⟩ := ih next
        exact ⟨final, by rw [List.foldlM_cons, hnext]; exact hfinal⟩
  obtain ⟨groups, hgroups⟩ := hfold ordered []
  exact ⟨groups, by rw [placeEpisodes, hgroups]; rfl⟩

/-- The groups that were placed are finished and returned. -/
theorem correlateOrdered_of_placeEpisodes {ordered : List Episode} {groups : List WorkingGroup}
    (h : placeEpisodes ordered policy limits token = .ok groups) :
    correlateOrdered ordered policy limits token = .ok (finishGroups groups) := by
  rw [correlateOrdered, h]
  rfl

/-! ### The groups that are returned -/

/-- The group that is returned was made from the episodes `held`, in the order it took them. -/
def MadeFrom (ordered : List Episode) (policy : CorrelationPolicy) (limits : Limits)
    (token : CancellationToken) (g : CorrelationGroup) (held : List Episode) : Prop :=
  ∃ groups, placeEpisodes ordered policy limits token = .ok groups ∧
    ∃ w ∈ groups, w.result = g ∧ w.episodes = held

/-- A returned group was made from a group of the placement. -/
theorem MadeFrom.mem_placement {ordered held : List Episode} {g : CorrelationGroup}
    (h : MadeFrom ordered policy limits token g held) :
    held ∈ placement policy limits ordered := by
  obtain ⟨groups, hgroups, w, hw, -, rfl⟩ := h
  rw [← (placeEpisodes_spec hgroups).1]
  exact List.mem_map_of_mem hw

/-- The members of a returned group before one that is not the first accepted it. -/
theorem MadeFrom.joinable {ordered held before after : List Episode} {g : CorrelationGroup}
    (h : MadeFrom ordered policy limits token g held)
    (hsplit : held = before ++ episode :: after) (hbefore : before ≠ []) : ∃ reference rest,
      before = reference :: rest ∧ Joinable policy
        (min policy.maxGroupMembers limits.maxGroupMembers) episode reference before.length :=
  joinable_of_groupAccepts ((FirstFit.formed_run h.mem_placement).2 _ _ _ hsplit hbefore)

/-- In a group whose test compares an episode with every member every two members are related. -/
theorem MadeFrom.formed_iff {ordered held : List Episode} {g : CorrelationGroup}
    (h : MadeFrom ordered policy limits token g held) {R : Episode → Episode → Prop}
    (hrefl : ∀ a ∈ ordered, R a a) (hsymm : ∀ a ∈ ordered, ∀ b ∈ ordered, R a b → R b a) :
    FirstFit.Formed (fun before e => ∀ member ∈ before, R member e) held ↔
      ∀ a ∈ held, ∀ b ∈ held, R a b := by
  have hheld := h.mem_placement
  have hmem := (FirstFit.sublist_run hheld).subset
  exact FirstFit.formed_forall_iff (fun a ha => hrefl a (hmem ha))
    (fun a ha b hb => hsymm a (hmem ha) b (hmem hb)) (FirstFit.formed_run hheld).1

/-- Where the placement makes one group of all episodes, `correlate` returns that group. -/
theorem correlate_of_placement {episodes : List Episode} (hsorted : inOrder episodes = episodes)
    (hplacement : placement policy limits episodes = [episodes]) :
    ∃ g, correlate episodes policy limits .never = .ok [g] ∧
      MadeFrom episodes policy limits .never g episodes := by
  obtain ⟨groups, hgroups⟩ := placeEpisodes_never episodes policy limits
  have hheld := (placeEpisodes_spec hgroups).1
  rw [hplacement] at hheld
  obtain ⟨w, rfl, hepisodes⟩ := List.map_eq_singleton_iff.mp hheld
  refine ⟨w.result, ?_, [w], hgroups, w, by simp, rfl, hepisodes⟩
  rw [correlate, hsorted, correlateOrdered_of_placeEpisodes hgroups]
  rfl

section Returned

variable {ordered : List Episode} {returned : List CorrelationGroup}
  (h : correlateOrdered ordered policy limits token = .ok returned)

include h

/-- The returned groups are the results of the working groups, in another order. -/
theorem exists_placeEpisodes_of_correlateOrdered : ∃ groups,
    placeEpisodes ordered policy limits token = .ok groups ∧
      returned.Perm (groups.map WorkingGroup.result) := by
  obtain ⟨groups, hgroups, hreturned⟩ := bind_eq_ok.mp h
  cases hreturned
  exact ⟨groups, hgroups, List.perm_insertionSort _ _⟩

/-- The contents of the returned groups are the groups of the placement. -/
theorem mem_placement_iff {held : List Episode} :
    held ∈ placement policy limits ordered ↔
      ∃ g ∈ returned, MadeFrom ordered policy limits token g held := by
  obtain ⟨groups, hgroups, hperm⟩ := exists_placeEpisodes_of_correlateOrdered h
  rw [← (placeEpisodes_spec hgroups).1, heldBy, List.mem_map]
  constructor
  · rintro ⟨w, hw, hheld⟩
    exact ⟨w.result, hperm.mem_iff.mpr (List.mem_map_of_mem hw), groups, hgroups, w, hw, rfl, hheld⟩
  · rintro ⟨g, -, groups', hgroups', w, hw, -, hheld⟩
    cases hgroups.symm.trans hgroups'
    exact ⟨w, hw, hheld⟩

variable {good : List Episode → Episode → Prop} [∀ held e, Decidable (good held e)]

/-- When a property of a returned group says that its episodes were placed by a test, it holds of
every group exactly when the placement that asks for the test picks the same group at every
step. -/
theorem made_iff_guarded {Q : CorrelationGroup → List Episode → Prop}
    (hformed : ∀ g held, MadeFrom ordered policy limits token g held →
      (FirstFit.Formed good held ↔ Q g held)) :
    (∀ g ∈ returned, ∀ held, MadeFrom ordered policy limits token g held → Q g held) ↔
    Guarded (FirstFit.step (FirstFit.strict (groupAccepts policy limits) good)
        (groupBound policy limits))
      (FirstFit.Picks (groupAccepts policy limits) good) [] ordered := by
  rw [← FirstFit.formed_run_iff ordered]
  constructor
  · intro hall held hheld
    obtain ⟨g, hg, hmade⟩ := (mem_placement_iff h).mp hheld
    exact (hformed g held hmade).mpr (hall g hg held hmade)
  · intro hall g hg held hmade
    have hheld := (mem_placement_iff h).mpr ⟨g, hg, hmade⟩
    exact (hformed g held hmade).mp (hall held hheld)

end Returned

/-! ### Tenants -/

/-- Both tenants are set, and they differ. -/
def TenantsDiffer (a b : Episode) : Prop :=
  a.key.tenant.valid = true ∧ b.key.tenant.valid = true ∧ a.key.tenant ≠ b.key.tenant

instance (a b : Episode) : Decidable (TenantsDiffer a b) := inferInstanceAs (Decidable (_ ∧ _ ∧ _))

/-- No member of the group has another tenant than the episode. -/
def TenantsMatch (held : List Episode) (episode : Episode) : Prop :=
  ∀ member ∈ held, ¬ TenantsDiffer member episode

instance (held : List Episode) (episode : Episode) : Decidable (TenantsMatch held episode) :=
  inferInstanceAs (Decidable (∀ member ∈ held, _))

theorem not_tenantsDiffer_self (a : Episode) : ¬ TenantsDiffer a a := fun h => h.2.2 rfl

theorem TenantsDiffer.symm {a b : Episode} (h : TenantsDiffer a b) : TenantsDiffer b a :=
  ⟨h.2.1, h.1, h.2.2.symm⟩

/-- The tenant of the reference speaks for the group: the reference has one, or the episode has
none, or the first member with a tenant has that of the episode. -/
def TenantTold (held : List Episode) (episode : Episode) : Prop :=
  (∀ reference ∈ held.head?, reference.key.tenant.valid = true) ∨
  episode.key.tenant.valid = false ∨
  ∀ member ∈ held.find? (fun member => member.key.tenant.valid),
    member.key.tenant = episode.key.tenant

instance (held : List Episode) (episode : Episode) : Decidable (TenantTold held episode) :=
  inferInstanceAs (Decidable ((∀ reference ∈ held.head?, _) ∨ _ ∨ ∀ member ∈ held.find? _, _))

/-- Where the tenants of a group agree, one member with a tenant speaks for all. -/
theorem tenantsMatch_iff_of_mem {held : List Episode} {member : Episode}
    (hagree : ∀ a ∈ held, ∀ b ∈ held, ¬ TenantsDiffer a b) (hmember : member ∈ held)
    (htenant : member.key.tenant.valid = true) (hepisode : episode.key.tenant.valid = true) :
    TenantsMatch held episode ↔ member.key.tenant = episode.key.tenant := by
  constructor
  · intro hmatch
    exact not_not.mp fun hne => hmatch member hmember ⟨htenant, hepisode, hne⟩
  · rintro hsame a ha ⟨hvalid, -, hne⟩
    exact hagree a ha member hmember ⟨hvalid, htenant, fun heq => hne (heq.trans hsame)⟩

/-- An episode that joined a reference matches every tenant of the group exactly when the tenant
of the reference speaks for the group. -/
theorem tenantTold_iff {cap size : Nat} {reference : Episode} {rest : List Episode}
    (hpolicy : policy.mergeAcrossTenants = false)
    (hjoinable : Joinable policy cap episode reference size)
    (hagree : ∀ a ∈ reference :: rest, ∀ b ∈ reference :: rest, ¬ TenantsDiffer a b) :
    TenantTold (reference :: rest) episode ↔ TenantsMatch (reference :: rest) episode := by
  cases hepisode : episode.key.tenant.valid with
  | false =>
      refine iff_of_true (.inr (.inl hepisode)) fun member _ hdiffer => ?_
      rw [hdiffer.2.1] at hepisode
      cases hepisode
  | true =>
      cases hreference : reference.key.tenant.valid with
      | true =>
          -- The code compares these two tenants.
          have hsame := hjoinable.tenant hpolicy hepisode hreference
          refine iff_of_true (.inl fun _ hhead => Option.some.inj hhead ▸ hreference) ?_
          exact (tenantsMatch_iff_of_mem hagree List.mem_cons_self hreference hepisode).mpr
            hsame.symm
      | false =>
          have hnot : ¬ ∀ r ∈ (reference :: rest).head?, r.key.tenant.valid = true := by
            intro hall
            rw [hall reference rfl] at hreference
            cases hreference
          rw [TenantTold, or_iff_right hnot, or_iff_right (by simp [hepisode])]
          cases hfind : (reference :: rest).find? (fun member => member.key.tenant.valid) with
          | none =>
              refine iff_of_true (fun _ hfirst => by cases hfirst) fun member hmember hdiffer => ?_
              exact List.find?_eq_none.mp hfind member hmember hdiffer.1
          | some first =>
              have hmem := List.mem_of_find?_eq_some hfind
              have hvalid : first.key.tenant.valid = true :=
                @List.find?_some _ (fun member => member.key.tenant.valid) first _ hfind
              rw [tenantsMatch_iff_of_mem hagree hmem hvalid hepisode]
              simp only [Option.mem_some_iff, forall_eq']

/-- With merging across tenants off, the tenants of every returned group agree exactly when at
every step the reference of the picked group speaks for the group: it has a tenant, or the
episode has none, or the first member with a tenant has that of the episode. -/
theorem tenants_apart_iff {ordered : List Episode} {returned : List CorrelationGroup}
    (h : correlateOrdered ordered policy limits token = .ok returned)
    (hpolicy : policy.mergeAcrossTenants = false) :
    (∀ g ∈ returned, ∀ held, MadeFrom ordered policy limits token g held →
      ∀ a ∈ held, ∀ b ∈ held, ¬ TenantsDiffer a b) ↔
    Guarded (FirstFit.step (FirstFit.strict (groupAccepts policy limits) TenantTold)
        (groupBound policy limits))
      (FirstFit.Picks (groupAccepts policy limits) TenantTold) [] ordered := by
  refine made_iff_guarded h fun g held hmade => ?_
  have hsymm : ∀ a b, ¬ TenantsDiffer a b → ¬ TenantsDiffer b a := fun _ _ hab hba => hab hba.symm
  rw [← hmade.formed_iff (fun a _ => not_tenantsDiffer_self a) fun a _ b _ => hsymm a b]
  refine FirstFit.Formed.congr fun before e after hsplit hformed => ?_
  obtain ⟨reference, rest, rfl, hjoinable⟩ := hmade.joinable hsplit hformed.1
  refine tenantTold_iff hpolicy hjoinable ?_
  exact (FirstFit.formed_forall_iff (fun a _ => not_tenantsDiffer_self a)
    (fun a _ b _ => hsymm a b) hformed.1).mp hformed

/-- An episode that was seen at one moment. -/
def episodeSeen (number : UInt64) (tenant : String) (nanos : Int64) : Episode :=
  { id := ⟨0, number⟩
    key := { tenant := EntityId.unchecked (ascii tenant) }
    firstSeen := ⟨nanos⟩
    lastSeen := ⟨nanos⟩ }

/-- Two episodes of one tenant. -/
def oneTenant : List Episode := [episodeSeen 1 "blue" 1, episodeSeen 2 "blue" 2]

theorem oneTenant_apart : ∃ returned, correlateOrdered oneTenant {} {} .never = .ok returned ∧
    ∀ g ∈ returned, ∀ held, MadeFrom oneTenant {} {} .never g held →
      ∀ a ∈ held, ∀ b ∈ held, ¬ TenantsDiffer a b := by
  obtain ⟨groups, hgroups⟩ := placeEpisodes_never oneTenant {} {}
  have hreturned := correlateOrdered_of_placeEpisodes hgroups
  exact ⟨_, hreturned, (tenants_apart_iff hreturned rfl).mpr
    (FirstFit.guarded_pair (by decide +kernel))⟩

/-- An unattributed episode, and two of different tenants. -/
def mixedTenants : List Episode :=
  [episodeSeen 1 "" 1, episodeSeen 2 "blue" 2, episodeSeen 3 "green" 3]

/-- The unattributed episode is the reference, and both tenants join it. -/
theorem tenants_merged : ({} : CorrelationPolicy).mergeAcrossTenants = false ∧
    ∃ g held, correlate mixedTenants {} {} .never = .ok [g] ∧
      MadeFrom mixedTenants {} {} .never g held ∧ ∃ a ∈ held, ∃ b ∈ held, TenantsDiffer a b := by
  obtain ⟨g, hg, hmade⟩ := @correlate_of_placement {} {} mixedTenants (by decide +kernel)
    (by decide +kernel)
  exact ⟨rfl, g, mixedTenants, hg, hmade, episodeSeen 2 "blue" 2, by simp [mixedTenants],
    episodeSeen 3 "green" 3, by simp [mixedTenants], by decide +kernel⟩

end CongestionObservatory
