import CongestionObservatory.Proofs.Episode.History

/-!
# `CongestionObservatory.Proofs.Episode.Lifecycle`: what one call does to the episodes

`LifecycleSafe r call` is the contract of the registry for one call, in seven clauses. An
identity appears only when its key is asserted or when it is restored. An episode leaves only to
make room for a new key in a full registry, and then it is the oldest of those that are over.
`advance` moves along four edges. A call that does not assert congestion only quiesces the open
episodes of its scope. An episode opens only when its own key is asserted or when it is restored.
Its revision never decreases, and a transition raises it by one. A call that fails changes no
episode.

The proofs go through the lookups. `find?_advance`, `find?_observeQuiet` and
`find?_observeAsserted` say what each operation leaves under each identity, and each clause is
read off them.

Two things are not checked by the code. The revision has 64 bits and its bump can wrap, and
`restore` does not compare the identity of an episode with its key. `LifecycleFits` excludes both,
and `lifecycle_safe_iff` says that a run is safe exactly when each of its calls meets it.
-/

set_option autoImplicit false

namespace CongestionObservatory

open Lib

namespace EpisodeRegistry

/-- The call asserts congestion for the key. -/
def Call.Asserts (call : Call) (key : EpisodeKey) : Prop :=
  ∃ assessment policy now, call = .observe assessment policy now ∧
    assessment.congestionAsserted = true ∧ keyOf assessment = key

/-- The call restores an episode under the identity. -/
def Call.Restores (call : Call) (id : EpisodeId) : Prop := ∃ e, call = .restore e ∧ e.id = id

/-- The edges of `advance`. -/
def advanceEdges : List (EpisodeState × EpisodeState) :=
  [(.open, .quiescent), (.quiescent, .resolved), (.quiescent, .expired), (.resolved, .expired)]

/-- The reply reports that an observation or a restore failed. -/
def Reply.failed : Reply → Bool
  | .observed result => !result.isOk
  | .advanced _ => false
  | .restored result => !result.isOk

/-- What one call may do to the episodes. `r` is the registry before the call. -/
structure LifecycleSafe (r : EpisodeRegistry) (call : Call) : Prop where
  appears : ∀ id e', r.episodes.find? id = none → (r.step call).2.episodes.find? id = some e' →
    (call.Asserts e'.key ∧ id = computeEpisodeId e'.key) ∨ call.Restores id
  leaves : ∀ id e, r.episodes.find? id = some e → (r.step call).2.episodes.find? id = none →
    (∃ key, call.Asserts key ∧ r.episodes.find? (computeEpisodeId key) = none) ∧
      r.limits.maxEpisodes ≤ r.episodes.size ∧ (e.state = .resolved ∨ e.state = .expired) ∧
      ∀ id' e', r.episodes.find? id' = some e' → e'.state = .resolved ∨ e'.state = .expired →
        e.lastUpdated ≤ e'.lastUpdated
  advances : ∀ now policy token, call = .advance now policy token → ∀ id e e',
    r.episodes.find? id = some e → (r.step call).2.episodes.find? id = some e' →
      e'.state = e.state ∨ (e.state, e'.state) ∈ advanceEdges
  quiets : ∀ assessment policy now, call = .observe assessment policy now →
    assessment.congestionAsserted = false → ∀ id e e',
      r.episodes.find? id = some e → (r.step call).2.episodes.find? id = some e' →
      e' = e ∨ (e.key.scope = assessment.subject ∧ e.state = .open ∧ e'.state = .quiescent)
  opens : ∀ id e e', r.episodes.find? id = some e →
    (r.step call).2.episodes.find? id = some e' → e.state ≠ .open → e'.state = .open →
      call.Asserts e'.key ∨ call.Restores id
  revisions : ∀ id e e', r.episodes.find? id = some e →
    (r.step call).2.episodes.find? id = some e' →
      e.revision ≤ e'.revision ∧
        (call.Restores id ∨ e' = e ∨ e'.revision.toNat = e.revision.toNat + 1)
  failures : (r.step call).1.failed = true → (r.step call).2.episodes = r.episodes

/-- The call bumps no revision that is at its maximum. When it reopens an episode, the episode
has the key that is asserted. -/
def LifecycleFits (r : EpisodeRegistry) : Call → Prop
  | .observe assessment _ _ => ∀ entry ∈ r.episodes.entries, Observes assessment entry →
      HasRoom entry.2.revision ∧
        (assessment.congestionAsserted = true → entry.2.state ≠ .open →
          entry.2.key = keyOf assessment)
  | .advance now policy token => ∀ entry ∈ visited token r.episodes.entries,
      (entry.2.due now policy).isSome = true → HasRoom entry.2.revision
  | .restore _ => True

/-! ### One episode -/

section

variable {e : Episode} {now : Timestamp} {policy : EpisodePolicy}

/-- What is due moves along an edge. -/
theorem mem_advanceEdges {next : EpisodeState} {kind : EpisodeTransitionKind}
    (h : e.due now policy = some (next, kind)) : (e.state, next) ∈ advanceEdges := by
  unfold Episode.due at h
  simp only at h
  split at h
  · cases h
  · split at h
    · rename_i hopen
      cases h
      rw [hopen.1]
      decide
    · split at h
      · rename_i hquiescent
        cases h
        rw [hquiescent.1]
        decide
      · split at h
        · rename_i hover
          cases h
          rcases hover.1 with hresolved | hquiescent
          · rw [hresolved]
            decide
          · rw [hquiescent]
            decide
        · cases h

/-- No edge of `advance` ends in an open episode. -/
theorem ne_open_of_mem_advanceEdges {before after : EpisodeState}
    (h : (before, after) ∈ advanceEdges) : after ≠ .open := by
  rintro rfl
  simp [advanceEdges] at h

/-- A bump of a revision is a step up exactly when it does not wrap. -/
theorem bump_le_iff {revision : UInt64} : revision ≤ revision + 1 ↔ HasRoom revision := by
  rw [UInt64.le_iff_toNat_le]
  by_cases hroom : HasRoom revision
  · rw [toNat_succ hroom]
    exact iff_of_true (Nat.le_succ _) hroom
  · rw [toNat_wrap hroom]
    refine iff_of_false ?_ hroom
    unfold HasRoom at hroom
    omega

end

/-! ### The lookups after an operation -/

section

variable {r : EpisodeRegistry} {id : EpisodeId}

/-- Every episode that `advance` leaves under an identity is the one from before, or it was
visited and something was due. -/
theorem find?_advance {now : Timestamp} {policy : EpisodePolicy} {token : CancellationToken}
    {e e' : Episode} (h : r.episodes.find? id = some e)
    (h' : (r.advance now policy token).2.episodes.find? id = some e') :
    e' = e ∨ ∃ next kind, (id, e) ∈ visited token r.episodes.entries ∧
      e.due now policy = some (next, kind) ∧ e' = e.moveTo next kind now r.limits := by
  have hmem := OrdMap.find?_eq_some_iff.mp h'
  have hold := visited_append_unvisited token r.episodes.entries
  -- An identity is registered once.
  have honce : ∀ e'', (id, e'') ∈ r.episodes.entries → e'' = e := by
    intro e'' hmem
    have hother := OrdMap.find?_eq_some_iff.mpr hmem
    rw [h] at hother
    exact (Option.some.inj hother).symm
  rw [advance_entries, List.mem_append] at hmem
  rcases hmem with hmem | hmem
  · obtain ⟨⟨id', old⟩, hvisited, heq⟩ := List.mem_map.mp hmem
    obtain ⟨rfl, rfl⟩ := Prod.mk.inj heq
    have hsame := honce old (hold ▸ List.mem_append_left _ hvisited)
    subst hsame
    unfold advanced
    cases hdue : old.due now policy with
    | none => exact Or.inl rfl
    | some p => exact Or.inr ⟨p.1, p.2, hvisited, rfl, rfl⟩
  · exact Or.inl (honce e' (hold ▸ List.mem_append_right _ hmem))

/-- An episode that is visited is moved when something is due. -/
theorem find?_advance_visited (now : Timestamp) (policy : EpisodePolicy)
    {token : CancellationToken} {entry : EpisodeId × Episode}
    (h : entry ∈ visited token r.episodes.entries) :
    (r.advance now policy token).2.episodes.find? entry.1
      = some (advanced r.limits now policy entry.2) := by
  rw [OrdMap.find?_eq_some_iff, advance_entries]
  exact List.mem_append_left _ (List.mem_map_of_mem h)

/-- `advance` registers no identity and removes none. -/
theorem find?_advance_none (now : Timestamp) (policy : EpisodePolicy) (token : CancellationToken) :
    (r.advance now policy token).2.episodes.find? id = none ↔ r.episodes.find? id = none := by
  rw [OrdMap.find?_eq_none_iff_keys, OrdMap.find?_eq_none_iff_keys, advance_registry,
    OrdMap.mapAccum_keys]

/-- A non-asserting observation quiesces the open episodes of its scope. -/
theorem find?_observeQuiet (assessment : CongestionAssessment) (now : Timestamp) :
    (r.observeQuiet assessment now).2.episodes.find? id = (r.episodes.find? id).map fun e =>
      if e.key.scope = assessment.subject ∧ e.state = .open then e.quiesce assessment now r.limits
      else e := by
  rw [observeQuiet_registry]
  exact OrdMap.find?_mapValues _ _ _

/-- What an asserting observation leaves: the registry as it was, with a failure; or a refreshed
episode; or a new one, in a registry that gave up its victim when it was full. -/
theorem observeAsserted_cases (r : EpisodeRegistry) (assessment : CongestionAssessment)
    (now : Timestamp) :
    ((r.observeAsserted assessment now).2.episodes = r.episodes ∧
      ((keyOf assessment).mechanism ≠ .none →
        r.episodes.find? (computeEpisodeId (keyOf assessment)) = none)) ∨
    (∃ e, r.episodes.find? (computeEpisodeId (keyOf assessment)) = some e ∧
      (keyOf assessment).mechanism ≠ .none ∧
      (r.observeAsserted assessment now).1.isOk = true ∧
      (r.observeAsserted assessment now).2.episodes
        = r.episodes.insert (computeEpisodeId (keyOf assessment))
            (e.refresh assessment now r.limits)) ∨
    (∃ left, r.episodes.find? (computeEpisodeId (keyOf assessment)) = none ∧
      (left = r.episodes ∨ ∃ gone, r.limits.maxEpisodes ≤ r.episodes.size ∧
        r.victim = some gone ∧ left = r.episodes.erase gone.1) ∧
      (r.observeAsserted assessment now).1.isOk = true ∧
      (r.observeAsserted assessment now).2.episodes
        = left.insert (computeEpisodeId (keyOf assessment))
            (Episode.opened (keyOf assessment) assessment now r.limits)) := by
  unfold observeAsserted
  simp only
  by_cases hmechanism : (keyOf assessment).mechanism = .none
  · rw [if_pos hmechanism]
    exact Or.inl ⟨rfl, fun hne => absurd hmechanism hne⟩
  rw [if_neg hmechanism]
  cases hfind : r.episodes.find? (computeEpisodeId (keyOf assessment)) with
  | some e => exact Or.inr (Or.inl ⟨e, rfl, hmechanism, rfl, rfl⟩)
  | none =>
      -- The new identity is still absent when the victim is gone, so it is really inserted.
      have hinsert : ∀ (left : OrdMap EpisodeId Episode) (e : Episode),
          left.find? (computeEpisodeId (keyOf assessment)) = none →
          left.emplace (computeEpisodeId (keyOf assessment)) e
            = left.insert (computeEpisodeId (keyOf assessment)) e := by
        intro left e habsent
        rw [OrdMap.emplace, if_neg]
        simp [OrdMap.contains, habsent]
      simp only [makeRoom]
      by_cases hfull : r.episodes.size ≥ r.limits.maxEpisodes
      · rw [if_pos hfull]
        cases hvictim : r.victim with
        | none => exact Or.inl ⟨rfl, fun _ => trivial⟩
        | some gone =>
            refine Or.inr (Or.inr ⟨r.episodes.erase gone.1, trivial, ?_, rfl, ?_⟩)
            · exact Or.inr ⟨gone, hfull, rfl, rfl⟩
            · refine hinsert _ _ ?_
              rw [OrdMap.find?_erase, hfind, ite_self]
      · rw [if_neg hfull]
        exact Or.inr (Or.inr ⟨r.episodes, trivial, Or.inl rfl, rfl, hinsert _ _ hfind⟩)

/-- A restore fails and changes nothing, or it puts the episode under its identity. A registered
episode is replaced only by one that is not older. -/
theorem restore_cases (r : EpisodeRegistry) (e : Episode) :
    (r.restore e).2.episodes = r.episodes ∨
      ((r.restore e).1.isOk = true ∧ (r.restore e).2.episodes = r.episodes.insert e.id e ∧
        ∀ known, r.episodes.find? e.id = some known → known.revision ≤ e.revision) := by
  unfold restore
  by_cases hvalid : e.id.valid = true
  · rw [if_neg (by simp [hvalid])]
    cases hfind : r.episodes.find? e.id with
    | some known =>
        simp only
        split
        · exact Or.inl rfl
        · rename_i hle
          refine Or.inr ⟨rfl, rfl, fun known' hknown => ?_⟩
          cases hknown
          exact UInt64.not_lt.mp hle
    | none =>
        simp only
        split
        · exact Or.inl rfl
        · refine Or.inr ⟨rfl, ?_, fun known hknown => by cases hknown⟩
          show r.episodes.emplace e.id e = r.episodes.insert e.id e
          rw [OrdMap.emplace, if_neg]
          simp [OrdMap.contains, hfind]
  · rw [if_pos (by simp [hvalid])]
    exact Or.inl rfl

/-! ### One call -/

/-- A call that leaves the episodes as they are is safe. -/
theorem safe_of_unchanged {call : Call} (h : (r.step call).2.episodes = r.episodes) :
    LifecycleSafe r call := by
  have hnone : ∀ id e', r.episodes.find? id = none → r.episodes.find? id ≠ some e' := by
    intro id e' hnone hsome
    rw [hnone] at hsome
    cases hsome
  have hsame : ∀ id e e', r.episodes.find? id = some e →
      r.episodes.find? id = some e' → e' = e := by
    intro id e e' he he'
    rw [he] at he'
    exact (Option.some.inj he').symm
  refine ⟨?_, ?_, ?_, ?_, ?_, ?_, fun _ => h⟩ <;> rw [h]
  · exact fun id e' habsent hpresent => absurd hpresent (hnone id e' habsent)
  · exact fun id e hpresent habsent => absurd hpresent (hnone id e habsent)
  · intro now policy token _ id e e' he he'
    exact Or.inl (congrArg Episode.state (hsame id e e' he he'))
  · exact fun _ _ _ _ _ id e e' he he' => Or.inl (hsame id e e' he he')
  · intro id e e' he he' hclosed hopen
    rw [hsame id e e' he he'] at hopen
    exact absurd hopen hclosed
  · intro id e e' he he'
    rw [hsame id e e' he he']
    exact ⟨UInt64.le_refl _, Or.inr (Or.inl rfl)⟩

/-- The revision clause for an episode that was bumped once. -/
theorem bumped_revision {e e' : Episode} {call : Call} (hroom : HasRoom e.revision)
    (h : e'.revision = e.revision + 1) : e.revision ≤ e'.revision ∧
      (call.Restores id ∨ e' = e ∨ e'.revision.toNat = e.revision.toNat + 1) := by
  rw [h]
  exact ⟨bump_le_iff.mpr hroom, Or.inr (Or.inr (toNat_succ hroom))⟩

theorem safe_advance_iff (now : Timestamp) (policy : EpisodePolicy) (token : CancellationToken) :
    LifecycleSafe r (.advance now policy token) ↔ LifecycleFits r (.advance now policy token) := by
  constructor
  · intro hsafe entry hvisited hdue
    -- Where an episode is due, its revision must not fall, and it is the bumped one.
    have hold : r.episodes.find? entry.1 = some entry.2 := by
      rw [OrdMap.find?_eq_some_iff, ← visited_append_unvisited token r.episodes.entries]
      exact List.mem_append_left _ hvisited
    have hle := (hsafe.revisions entry.1 _ _ hold (find?_advance_visited now policy hvisited)).1
    unfold advanced at hle
    cases hsome : entry.2.due now policy with
    | none => rw [hsome] at hdue; cases hdue
    | some p =>
        rw [hsome] at hle
        exact bump_le_iff.mp hle
  · intro hfits
    refine ⟨?_, ?_, ?_, ?_, ?_, ?_, ?_⟩
    · intro id e' habsent hpresent
      have hgone : (r.step (.advance now policy token)).2.episodes.find? id = none :=
        (find?_advance_none now policy token).mpr habsent
      rw [hgone] at hpresent
      cases hpresent
    · intro id e hpresent habsent
      rw [(find?_advance_none now policy token).mp habsent] at hpresent
      cases hpresent
    · rintro - - - - id e e' he he'
      rcases find?_advance he he' with rfl | ⟨next, kind, -, hdue, rfl⟩
      · exact Or.inl rfl
      · exact Or.inr (mem_advanceEdges hdue)
    · intro assessment policy' now' hcall
      cases hcall
    · intro id e e' he he' hclosed hopen
      rcases find?_advance he he' with rfl | ⟨next, kind, -, hdue, rfl⟩
      · exact absurd hopen hclosed
      · exact absurd hopen (ne_open_of_mem_advanceEdges (mem_advanceEdges hdue))
    · intro id e e' he he'
      rcases find?_advance he he' with rfl | ⟨next, kind, hvisited, hdue, rfl⟩
      · exact ⟨UInt64.le_refl _, Or.inr (Or.inl rfl)⟩
      · exact bumped_revision (hfits _ hvisited (by rw [hdue]; rfl)) rfl
    · intro hfailed
      cases hfailed

theorem step_observe_quiet {assessment : CongestionAssessment} (policy : EpisodePolicy)
    (now : Timestamp) (hsubject : assessment.subject.valid = true)
    (hquiet : assessment.congestionAsserted = false) :
    r.step (.observe assessment policy now)
      = (.observed (.ok (r.observeQuiet assessment now).1), (r.observeQuiet assessment now).2) := by
  simp [step, observe, hsubject, hquiet]

theorem step_observe_asserted {assessment : CongestionAssessment} (policy : EpisodePolicy)
    (now : Timestamp) (hsubject : assessment.subject.valid = true)
    (hasserted : assessment.congestionAsserted = true) :
    r.step (.observe assessment policy now)
      = (.observed (r.observeAsserted assessment now).1, (r.observeAsserted assessment now).2) := by
  simp [step, observe, hsubject, hasserted]

theorem safe_observe_quiet_iff {assessment : CongestionAssessment} (policy : EpisodePolicy)
    (now : Timestamp) (hsubject : assessment.subject.valid = true)
    (hquiet : assessment.congestionAsserted = false) :
    LifecycleSafe r (.observe assessment policy now) ↔
      LifecycleFits r (.observe assessment policy now) := by
  have hstep := step_observe_quiet (r := r) policy now hsubject hquiet
  have hfind : ∀ id, (r.step (.observe assessment policy now)).2.episodes.find? id
      = (r.episodes.find? id).map fun e =>
        if e.key.scope = assessment.subject ∧ e.state = .open then
          e.quiesce assessment now r.limits
        else e := by
    intro id
    rw [hstep]
    exact find?_observeQuiet assessment now
  constructor
  · rintro hsafe entry hentry ⟨-, hobserves⟩
    rw [hquiet, if_neg Bool.false_ne_true] at hobserves
    have hold := OrdMap.find?_eq_some_iff.mpr hentry
    have hnew := hfind entry.1
    rw [hold, Option.map_some, if_pos hobserves] at hnew
    refine ⟨bump_le_iff.mp (hsafe.revisions _ _ _ hold hnew).1, fun hasserted => ?_⟩
    rw [hquiet] at hasserted
    cases hasserted
  · intro hfits
    -- Every registered episode is kept or quiesced, and a quiesced one was bumped.
    have hcases : ∀ id e e', r.episodes.find? id = some e →
        (r.step (.observe assessment policy now)).2.episodes.find? id = some e' →
        e' = e ∨ (HasRoom e.revision ∧ e.key.scope = assessment.subject ∧ e.state = .open ∧
          e' = e.quiesce assessment now r.limits) := by
      intro id e e' he he'
      rw [hfind, he, Option.map_some, Option.some.injEq] at he'
      split at he'
      · rename_i hopen
        refine Or.inr ⟨(hfits (id, e) (OrdMap.find?_eq_some_iff.mp he) ?_).1, hopen.1, hopen.2,
          he'.symm⟩
        refine ⟨hsubject, ?_⟩
        rw [hquiet, if_neg Bool.false_ne_true]
        exact hopen
      · exact Or.inl he'.symm
    refine ⟨?_, ?_, ?_, ?_, ?_, ?_, ?_⟩
    · intro id e' habsent hpresent
      rw [hfind, habsent] at hpresent
      cases hpresent
    · intro id e hpresent habsent
      rw [hfind, hpresent] at habsent
      cases habsent
    · intro now' policy' token hcall
      cases hcall
    · intro assessment' policy' now' hcall _ id e e' he he'
      cases hcall
      rcases hcases id e e' he he' with rfl | ⟨-, hscope, hopen, rfl⟩
      · exact Or.inl rfl
      · exact Or.inr ⟨hscope, hopen, rfl⟩
    · intro id e e' he he' hclosed hopen
      rcases hcases id e e' he he' with rfl | ⟨-, -, hwas, -⟩
      · exact absurd hopen hclosed
      · exact absurd hwas hclosed
    · intro id e e' he he'
      rcases hcases id e e' he he' with rfl | ⟨hroom, -, -, rfl⟩
      · exact ⟨UInt64.le_refl _, Or.inr (Or.inl rfl)⟩
      · exact bumped_revision hroom rfl
    · intro hfailed
      rw [hstep] at hfailed
      cases hfailed

/-- A known episode is refreshed: the call is safe exactly when the revision does not wrap and an
episode that opens has the asserted key. -/
theorem safe_refresh_iff {assessment : CongestionAssessment} (policy : EpisodePolicy)
    {now : Timestamp} {known : Episode} (hasserted : assessment.congestionAsserted = true)
    (hknown : r.episodes.find? (computeEpisodeId (keyOf assessment)) = some known)
    (hok : (r.step (.observe assessment policy now)).1.failed = false)
    (hepisodes : (r.step (.observe assessment policy now)).2.episodes
      = r.episodes.insert (computeEpisodeId (keyOf assessment))
          (known.refresh assessment now r.limits)) :
    LifecycleSafe r (.observe assessment policy now) ↔
      HasRoom known.revision ∧ (known.state ≠ .open → known.key = keyOf assessment) := by
  have hnew : (r.step (.observe assessment policy now)).2.episodes.find?
      (computeEpisodeId (keyOf assessment)) = some (known.refresh assessment now r.limits) := by
    rw [hepisodes, OrdMap.find?_insert_self]
  constructor
  · intro hsafe
    refine ⟨bump_le_iff.mp (hsafe.revisions _ _ _ hknown hnew).1, fun hclosed => ?_⟩
    rcases hsafe.opens _ _ _ hknown hnew hclosed rfl with ⟨_, _, _, hcall, -, hkey⟩ | ⟨_, hcall, -⟩
    · cases hcall
      exact hkey.symm
    · cases hcall
  · rintro ⟨hroom, hkey⟩
    -- Every other episode stays as it is.
    have hcases : ∀ id e e', r.episodes.find? id = some e →
        (r.step (.observe assessment policy now)).2.episodes.find? id = some e' →
        e' = e ∨ (e = known ∧ e' = known.refresh assessment now r.limits) := by
      intro id e e' he he'
      rw [hepisodes, OrdMap.find?_insert] at he'
      split at he'
      · rename_i heq
        rw [heq, hknown] at he
        exact Or.inr ⟨(Option.some.inj he).symm, (Option.some.inj he').symm⟩
      · rw [he] at he'
        exact Or.inl (Option.some.inj he').symm
    refine ⟨?_, ?_, ?_, ?_, ?_, ?_, ?_⟩
    · intro id e' habsent hpresent
      rw [hepisodes, OrdMap.find?_insert] at hpresent
      split at hpresent
      · rename_i heq
        rw [heq, hknown] at habsent
        cases habsent
      · rw [habsent] at hpresent
        cases hpresent
    · intro id e hpresent habsent
      rw [hepisodes, OrdMap.find?_insert] at habsent
      split at habsent
      · cases habsent
      · rw [hpresent] at habsent
        cases habsent
    · intro now' policy' token hcall
      cases hcall
    · intro assessment' policy' now' hcall hquiet
      cases hcall
      rw [hasserted] at hquiet
      cases hquiet
    · intro id e e' he he' hclosed hopen
      rcases hcases id e e' he he' with rfl | ⟨rfl, rfl⟩
      · exact absurd hopen hclosed
      · exact Or.inl ⟨assessment, policy, now, rfl, hasserted, (hkey hclosed).symm⟩
    · intro id e e' he he'
      rcases hcases id e e' he he' with rfl | ⟨rfl, rfl⟩
      · exact ⟨UInt64.le_refl _, Or.inr (Or.inl rfl)⟩
      · exact bumped_revision hroom rfl
    · intro hfailed
      rw [hok] at hfailed
      cases hfailed

/-- A new episode is opened, with or without a victim. -/
theorem safe_opened {assessment : CongestionAssessment} {policy : EpisodePolicy}
    {now : Timestamp} {left : OrdMap EpisodeId Episode}
    (hasserted : assessment.congestionAsserted = true)
    (hnew : r.episodes.find? (computeEpisodeId (keyOf assessment)) = none)
    (hleft : left = r.episodes ∨ ∃ gone, r.limits.maxEpisodes ≤ r.episodes.size ∧
      r.victim = some gone ∧ left = r.episodes.erase gone.1)
    (hok : (r.step (.observe assessment policy now)).1.failed = false)
    (hepisodes : (r.step (.observe assessment policy now)).2.episodes
      = left.insert (computeEpisodeId (keyOf assessment))
          (Episode.opened (keyOf assessment) assessment now r.limits)) :
    LifecycleSafe r (.observe assessment policy now) := by
  have hasserts : (Call.observe assessment policy now).Asserts (keyOf assessment) :=
    ⟨assessment, policy, now, rfl, hasserted, rfl⟩
  -- What is left was there before, and only the victim is missing.
  have hsub : ∀ id e, left.find? id = some e → r.episodes.find? id = some e := by
    intro id e he
    rcases hleft with rfl | ⟨gone, -, -, rfl⟩
    · exact he
    · rw [OrdMap.find?_erase] at he
      split at he
      · cases he
      · exact he
  have hkept : ∀ id e e', r.episodes.find? id = some e →
      (r.step (.observe assessment policy now)).2.episodes.find? id = some e' → e' = e := by
    intro id e e' he he'
    rw [hepisodes, OrdMap.find?_insert] at he'
    split at he'
    · rename_i heq
      rw [heq, hnew] at he
      cases he
    · have hold := hsub id e' he'
      rw [he] at hold
      exact (Option.some.inj hold).symm
  refine ⟨?_, ?_, ?_, ?_, ?_, ?_, ?_⟩
  · intro id e' habsent hpresent
    rw [hepisodes, OrdMap.find?_insert] at hpresent
    split at hpresent
    · rename_i heq
      cases hpresent
      exact Or.inl ⟨hasserts, heq⟩
    · rw [hsub id e' hpresent] at habsent
      cases habsent
  · intro id e hpresent habsent
    rw [hepisodes, OrdMap.find?_insert] at habsent
    split at habsent
    · cases habsent
    · rcases hleft with rfl | ⟨gone, hfull, hvictim, rfl⟩
      · rw [hpresent] at habsent
        cases habsent
      · obtain ⟨hmem, hover, hleast⟩ := victim_spec hvictim
        rw [OrdMap.find?_erase] at habsent
        split at habsent
        · rename_i heq
          have he : gone.2 = e := by
            have hgone : r.episodes.find? gone.1 = some gone.2 := OrdMap.find?_eq_some_iff.mpr hmem
            rw [← heq, hpresent] at hgone
            exact (Option.some.inj hgone).symm
          subst he
          refine ⟨⟨_, hasserts, hnew⟩, hfull, by simpa [Episode.terminal] using hover, ?_⟩
          intro id' e' he' hterminal
          exact hleast (id', e') (OrdMap.find?_eq_some_iff.mp he')
            (by simpa [Episode.terminal] using hterminal)
        · rw [hpresent] at habsent
          cases habsent
  · intro now' policy' token hcall
    cases hcall
  · intro assessment' policy' now' hcall hquiet
    cases hcall
    rw [hasserted] at hquiet
    cases hquiet
  · intro id e e' he he' hclosed hopen
    rw [hkept id e e' he he'] at hopen
    exact absurd hopen hclosed
  · intro id e e' he he'
    rw [hkept id e e' he he']
    exact ⟨UInt64.le_refl _, Or.inr (Or.inl rfl)⟩
  · intro hfailed
    rw [hok] at hfailed
    cases hfailed

theorem safe_observe_iff (assessment : CongestionAssessment) (policy : EpisodePolicy)
    (now : Timestamp) :
    LifecycleSafe r (.observe assessment policy now) ↔
      LifecycleFits r (.observe assessment policy now) := by
  by_cases hsubject : assessment.subject.valid = true
  swap
  · -- Without a subject nothing is observed.
    refine iff_of_true (safe_of_unchanged ?_) fun entry _ hobserves =>
      absurd hobserves.1 hsubject
    simp [step, observe, hsubject]
  cases hasserted : assessment.congestionAsserted with
  | false => exact safe_observe_quiet_iff policy now hsubject hasserted
  | true =>
      have hstep := step_observe_asserted (r := r) policy now hsubject hasserted
      have hobserves : ∀ entry, Observes assessment entry ↔
          (keyOf assessment).mechanism ≠ .none ∧
            entry.1 = computeEpisodeId (keyOf assessment) := by
        intro entry
        simp [Observes, hsubject, hasserted]
      rcases observeAsserted_cases r assessment now with ⟨hsame, habsent⟩ |
        ⟨known, hknown, hmechanism, hok, hepisodes⟩ | ⟨left, hnew, hleft, hok, hepisodes⟩
      · refine iff_of_true (safe_of_unchanged (by rw [hstep]; exact hsame)) ?_
        intro entry hentry hobserved
        obtain ⟨hmechanism, hid⟩ := (hobserves entry).mp hobserved
        have hnone := habsent hmechanism
        rw [← hid, OrdMap.find?_eq_some_iff.mpr hentry] at hnone
        cases hnone
      · rw [safe_refresh_iff policy hasserted hknown
          (by rw [hstep]; simp [Reply.failed, hok]) (by rw [hstep]; exact hepisodes)]
        constructor
        · rintro ⟨hroom, hkey⟩ entry hentry hobserved
          obtain ⟨-, hid⟩ := (hobserves entry).mp hobserved
          have hentry' := OrdMap.find?_eq_some_iff.mpr hentry
          rw [hid, hknown] at hentry'
          cases hentry'
          exact ⟨hroom, fun _ => hkey⟩
        · intro hfits
          obtain ⟨hroom, hkey⟩ := hfits _ (OrdMap.find?_eq_some_iff.mp hknown)
            ((hobserves _).mpr ⟨hmechanism, rfl⟩)
          exact ⟨hroom, hkey hasserted⟩
      · refine iff_of_true (safe_opened hasserted hnew hleft
          (by rw [hstep]; simp [Reply.failed, hok]) (by rw [hstep]; exact hepisodes)) ?_
        intro entry hentry hobserved
        rw [← ((hobserves entry).mp hobserved).2, OrdMap.find?_eq_some_iff.mpr hentry] at hnew
        cases hnew

theorem safe_restore (e : Episode) : LifecycleSafe r (.restore e) := by
  rcases restore_cases r e with hsame | ⟨hok, hepisodes, hnewer⟩
  · exact safe_of_unchanged hsame
  have hfind : ∀ id, (r.step (.restore e)).2.episodes.find? id
      = if id = e.id then some e else r.episodes.find? id := by
    intro id
    show (r.restore e).2.episodes.find? id = _
    rw [hepisodes, OrdMap.find?_insert]
  -- A restored episode replaces the one with its identity, and all others stay.
  have hcases : ∀ id known e', r.episodes.find? id = some known →
      (r.step (.restore e)).2.episodes.find? id = some e' →
      e' = known ∨ (id = e.id ∧ e' = e) := by
    intro id known e' hknown he'
    rw [hfind] at he'
    split at he'
    · rename_i heq
      exact Or.inr ⟨heq, (Option.some.inj he').symm⟩
    · rw [hknown] at he'
      exact Or.inl (Option.some.inj he').symm
  refine ⟨?_, ?_, ?_, ?_, ?_, ?_, ?_⟩
  · intro id e' habsent hpresent
    rw [hfind] at hpresent
    split at hpresent
    · rename_i heq
      exact Or.inr ⟨e, rfl, heq.symm⟩
    · rw [habsent] at hpresent
      cases hpresent
  · intro id known hpresent habsent
    rw [hfind] at habsent
    split at habsent
    · cases habsent
    · rw [hpresent] at habsent
      cases habsent
  · intro now policy token hcall
    cases hcall
  · intro assessment policy now hcall
    cases hcall
  · intro id known e' hknown he' hclosed hopen
    rcases hcases id known e' hknown he' with rfl | ⟨hid, -⟩
    · exact absurd hopen hclosed
    · exact Or.inr ⟨e, rfl, hid.symm⟩
  · intro id known e' hknown he'
    rcases hcases id known e' hknown he' with rfl | ⟨hid, rfl⟩
    · exact ⟨UInt64.le_refl _, Or.inr (Or.inl rfl)⟩
    · exact ⟨hnewer known (hid ▸ hknown), Or.inl ⟨e', rfl, hid.symm⟩⟩
  · intro hfailed
    have hfailed' : (!(r.restore e).1.isOk) = true := hfailed
    rw [hok] at hfailed'
    cases hfailed'

/-- A call is safe exactly when the revisions it bumps do not wrap and the episode it opens has
the asserted key. -/
theorem safe_step_iff (r : EpisodeRegistry) (call : Call) :
    LifecycleSafe r call ↔ LifecycleFits r call := by
  cases call with
  | observe assessment policy now => exact safe_observe_iff assessment policy now
  | advance now policy token => exact safe_advance_iff now policy token
  | restore e => exact iff_of_true (safe_restore e) trivial

/-- From the empty registry, under any limits and with any episodes restored, every call of a run
is safe exactly when every call of it fits. -/
theorem lifecycle_safe_iff (limits : Limits) (calls : List Call) :
    Guarded step LifecycleSafe { limits := limits } calls ↔
      Guarded step LifecycleFits { limits := limits } calls := by
  have hguards : LifecycleSafe = LifecycleFits := by
    funext r call
    exact propext (safe_step_iff r call)
  rw [hguards]

/-- A sound episode at the last revision is restored, and then congestion is no longer asserted
for its scope: the revision falls to zero. -/
theorem wrapped_revision_decreases :
    EpisodeSound {} (restoredEpisode 0xFFFFFFFFFFFFFFFE) ∧
      ¬ Guarded step LifecycleSafe { limits := {} } (restoreThenQuiet 0xFFFFFFFFFFFFFFFE) := by
  refine ⟨restoredEpisode_sound (by decide), fun hsafe => ?_⟩
  have hold : (step { limits := {} } (.restore (restoredEpisode 0xFFFFFFFFFFFFFFFE))).2.episodes.find?
      (restoredEpisode 0xFFFFFFFFFFFFFFFE).id = some (restoredEpisode 0xFFFFFFFFFFFFFFFE) := by
    decide +kernel
  have hfits := (safe_step_iff _ _).mp hsafe.2.1 _ (OrdMap.find?_eq_some_iff.mp hold)
    ⟨by decide, by rw [if_neg Bool.false_ne_true]; exact ⟨rfl, rfl⟩⟩
  exact absurd hfits.1 (by decide)

end

end EpisodeRegistry

end CongestionObservatory
