import CongestionObservatory.Episode.Episode

/-!
# `CongestionObservatory.Proofs.Episode.History`: the bounded history of an episode

`EpisodeSound` says what the registry promises about one episode: its identity is the hash of
its key, its history is bounded, and nothing is lost silently. The revision counts the kept and
the dropped transitions, the kept transitions carry consecutive revisions that end at the
revision of the episode, the observations count the kept and the dropped assessments, and
`historyTruncated` is set exactly when something was dropped.

Four paths change an episode: it is opened, refreshed, made quiescent, or moved by `advance`.
Each bumps the revision and appends one transition, and all but the last bump the observations
and append one assessment. `sound_record_iff` covers the first three and `sound_moveTo_iff` the
last. Both are equivalences: the counters have 64 bits and the bump is not checked, so an episode
stays sound exactly when no bumped counter is at its maximum.

A registry gets such an episode from a snapshot. `history_sound_iff` states the result over
runs: from the empty registry, with sound episodes restored, every state of a run is sound
exactly when no call bumps a counter that is at its maximum. `wrapped_revision_loses_history` is
a run in which one does.
-/

set_option autoImplicit false

namespace CongestionObservatory

open Lib

/-- A history that keeps at most `bound` entries, with the count of all entries there ever
were. -/
structure Counted {α : Type} (bound : Nat) (count dropped : UInt64) (kept : List α) : Prop where
  bounded : kept.length ≤ bound
  count_eq : count.toNat = dropped.toNat + kept.length

/-- The counter can be bumped without a wrap. -/
def HasRoom (count : UInt64) : Prop := count.toNat + 1 < 2 ^ 64

instance (count : UInt64) : Decidable (HasRoom count) :=
  inferInstanceAs (Decidable (count.toNat + 1 < 2 ^ 64))

/-- The transitions carry consecutive revisions, and the last one carries `revision`. -/
def Consecutive (revision : UInt64) (transitions : List EpisodeTransition) : Prop :=
  ∀ i t, transitions[i]? = some t →
    t.revision.toNat + (transitions.length - (i + 1)) = revision.toNat

/-- What holds of every registered episode. -/
structure EpisodeSound (limits : Limits) (e : Episode) : Prop where
  identity : e.id = computeEpisodeId e.key
  transitions : Counted limits.maxEpisodeTransitions e.revision e.transitionsDropped e.transitions
  consecutive : Consecutive e.revision e.transitions
  assessments :
    Counted limits.maxEpisodeAssessments e.observations e.assessmentsDropped e.assessments
  truncated : e.historyTruncated = true ↔
    0 < e.transitionsDropped.toNat + e.assessmentsDropped.toNat
  severity : toUnderlying e.currentSeverity ≤ toUnderlying e.peakSeverity

/-! ### One entry more -/

theorem toNat_succ {count : UInt64} (h : HasRoom count) : (count + 1).toNat = count.toNat + 1 := by
  unfold HasRoom at h
  rw [UInt64.toNat_add]
  show (count.toNat + 1) % 2 ^ 64 = count.toNat + 1
  omega

/-- A counter without room is bumped to zero. -/
theorem toNat_wrap {count : UInt64} (h : ¬ HasRoom count) : (count + 1).toNat = 0 := by
  unfold HasRoom at h
  have hlt := count.toNat_lt
  rw [UInt64.toNat_add]
  show (count.toNat + 1) % 2 ^ 64 = 0
  omega

section

variable {α : Type} {bound : Nat} {count dropped : UInt64} {kept : List α}

theorem dropOldest_of_le (l : List α) (truncated : Bool) (h : l.length ≤ bound) :
    dropOldest bound l dropped truncated = (l, dropped, truncated) := by
  cases l with
  | nil => rfl
  | cons oldest rest =>
      rw [dropOldest, if_neg (by omega)]

/-- A history within its bound loses at most its oldest entry when one is appended. -/
theorem dropOldest_append (a : α) (truncated : Bool) (h : kept.length ≤ bound) :
    dropOldest bound (kept ++ [a]) dropped truncated
      = if kept.length < bound then (kept ++ [a], dropped, truncated)
        else ((kept ++ [a]).tail, dropped + 1, true) := by
  have hlength : (kept ++ [a]).length = kept.length + 1 := by simp
  split
  · exact dropOldest_of_le _ _ (by omega)
  · cases hcons : kept ++ [a] with
    | nil => simp at hcons
    | cons oldest rest =>
        rw [hcons, List.length_cons] at hlength
        rw [dropOldest, if_pos (by simp only [List.length_cons]; omega)]
        exact dropOldest_of_le _ _ (by omega)

/-- The appended history is counted exactly when the bumped counter did not wrap: after a wrap
the counter is zero, but the new entry is there. -/
theorem Counted.append_iff (h : Counted bound count dropped kept) (hbound : 0 < bound) (a : α)
    (truncated : Bool) :
    Counted bound (count + 1) (dropOldest bound (kept ++ [a]) dropped truncated).2.1
      (dropOldest bound (kept ++ [a]) dropped truncated).1 ↔ HasRoom count := by
  have hlength : (kept ++ [a]).length = kept.length + 1 := by simp
  have hcount := h.count_eq
  have hle := h.bounded
  rw [dropOldest_append a truncated hle]
  by_cases hroom : HasRoom count
  · refine iff_of_true ?_ hroom
    have hsucc := toNat_succ hroom
    split
    · rename_i hlt
      refine ⟨?_, ?_⟩
      · show (kept ++ [a]).length ≤ bound
        omega
      · show (count + 1).toNat = dropped.toNat + (kept ++ [a]).length
        omega
    · -- The bound is reached, so the oldest entry moves from the kept to the dropped ones.
      have hdropped : (dropped + 1).toNat = dropped.toNat + 1 := by
        apply toNat_succ
        unfold HasRoom at hroom ⊢
        omega
      refine ⟨?_, ?_⟩
      · show (kept ++ [a]).tail.length ≤ bound
        rw [List.length_tail]
        omega
      · show (count + 1).toNat = (dropped + 1).toNat + (kept ++ [a]).tail.length
        rw [List.length_tail]
        omega
  · refine iff_of_false ?_ hroom
    intro hcounted
    have hzero := toNat_wrap hroom
    have heq := hcounted.count_eq
    split at heq
    · simp only at heq
      omega
    · simp only [List.length_tail] at heq
      omega

/-- What an append does to the drop counter and to the truncation flag. -/
theorem Counted.append_dropped (h : Counted bound count dropped kept) (hroom : HasRoom count)
    (a : α) (truncated : Bool) :
    ((dropOldest bound (kept ++ [a]) dropped truncated).2 = (dropped, truncated)) ∨
      ((dropOldest bound (kept ++ [a]) dropped truncated).2.1.toNat = dropped.toNat + 1 ∧
        (dropOldest bound (kept ++ [a]) dropped truncated).2.2 = true) := by
  have hcount := h.count_eq
  rw [dropOldest_append a truncated h.bounded]
  split
  · exact Or.inl rfl
  · refine Or.inr ⟨?_, rfl⟩
    apply toNat_succ
    unfold HasRoom at hroom ⊢
    omega

end

theorem Consecutive.append {revision : UInt64} {transitions : List EpisodeTransition}
    {t : EpisodeTransition} (h : Consecutive revision transitions) (hroom : HasRoom revision)
    (ht : t.revision = revision + 1) : Consecutive (revision + 1) (transitions ++ [t]) := by
  intro i t' hget
  have hsucc := toNat_succ hroom
  rw [List.getElem?_append] at hget
  split at hget
  · rename_i hlt
    have hold := h i t' hget
    simp only [List.length_append, List.length_cons, List.length_nil]
    omega
  · -- Past the old transitions there is only the new one.
    rename_i hge
    have hindex : i - transitions.length = 0 := by
      have hlt := (List.getElem?_eq_some_iff.mp hget).1
      simp only [List.length_cons, List.length_nil] at hlt
      omega
    rw [hindex, List.getElem?_cons_zero, Option.some.injEq] at hget
    subst hget
    rw [ht]
    simp only [List.length_append, List.length_cons, List.length_nil]
    omega

theorem Consecutive.tail {revision : UInt64} {transitions : List EpisodeTransition}
    (h : Consecutive revision transitions) : Consecutive revision transitions.tail := by
  intro i t hget
  have hold := h (i + 1) t (by rw [List.getElem?_tail] at hget; exact hget)
  rw [List.length_tail]
  omega

theorem Consecutive.dropOldest {bound : Nat} {revision : UInt64} (dropped : UInt64)
    {transitions : List EpisodeTransition} {t : EpisodeTransition} (truncated : Bool)
    (hbounded : transitions.length ≤ bound) (h : Consecutive revision transitions)
    (hroom : HasRoom revision) (ht : t.revision = revision + 1) :
    Consecutive (revision + 1)
      (dropOldest bound (transitions ++ [t]) dropped truncated).1 := by
  rw [dropOldest_append t truncated hbounded]
  split
  · exact h.append hroom ht
  · exact (h.append hroom ht).tail

/-! ### The four paths -/

namespace Episode

/-- Everything the history of an episode consists of, apart from the two counts. -/
structure SameHistory (e changed : Episode) : Prop where
  id : changed.id = e.id
  key : changed.key = e.key
  transitions : changed.transitions = e.transitions
  transitionsDropped : changed.transitionsDropped = e.transitionsDropped
  assessments : changed.assessments = e.assessments
  assessmentsDropped : changed.assessmentsDropped = e.assessmentsDropped
  historyTruncated : changed.historyTruncated = e.historyTruncated

section

variable {limits : Limits} {e changed : Episode} {t : EpisodeTransition}

/-- The transition part of a path: one transition is appended under the bumped revision. -/
theorem appendTransition_counted_iff (h : EpisodeSound limits e) (hsame : e.SameHistory changed)
    (hbound : 0 < limits.maxEpisodeTransitions) (hrevision : changed.revision = e.revision + 1) :
    Counted limits.maxEpisodeTransitions (changed.appendTransition t limits).revision
      (changed.appendTransition t limits).transitionsDropped
      (changed.appendTransition t limits).transitions ↔ HasRoom e.revision := by
  have hiff := h.transitions.append_iff hbound t changed.historyTruncated
  rw [← hsame.transitions, ← hsame.transitionsDropped, ← hrevision] at hiff
  exact hiff

theorem appendTransition_consecutive (h : EpisodeSound limits e) (hsame : e.SameHistory changed)
    (hroom : HasRoom e.revision) (hrevision : changed.revision = e.revision + 1)
    (ht : t.revision = e.revision + 1) :
    Consecutive (changed.appendTransition t limits).revision
      (changed.appendTransition t limits).transitions := by
  have hnext := h.consecutive.dropOldest changed.transitionsDropped changed.historyTruncated
    h.transitions.bounded hroom ht
  rw [← hsame.transitions, ← hrevision] at hnext
  exact hnext

/-- A new drop counter together with the other one is positive exactly when the truncation flag
is set, since an append that drops an entry sets the flag. -/
theorem truncated_iff_of_append {dropped dropped' other : UInt64} {truncated truncated' : Bool}
    (h : truncated = true ↔ 0 < dropped.toNat + other.toNat)
    (hcases : (dropped', truncated') = (dropped, truncated) ∨
      (dropped'.toNat = dropped.toNat + 1 ∧ truncated' = true)) :
    truncated' = true ↔ 0 < dropped'.toNat + other.toNat := by
  rcases hcases with heq | ⟨hsucc, hset⟩
  · cases heq
    exact h
  · rw [hset, hsucc]
    refine iff_of_true rfl ?_
    omega

theorem appendTransition_truncated (h : EpisodeSound limits e) (hsame : e.SameHistory changed)
    (hroom : HasRoom e.revision) :
    (changed.appendTransition t limits).historyTruncated = true ↔
      0 < (changed.appendTransition t limits).transitionsDropped.toNat
        + e.assessmentsDropped.toNat := by
  have hcases := h.transitions.append_dropped hroom t e.historyTruncated
  rw [← hsame.transitions, ← hsame.transitionsDropped, ← hsame.historyTruncated] at hcases
  have hflag := h.truncated
  rw [← hsame.transitionsDropped, ← hsame.historyTruncated] at hflag
  exact truncated_iff_of_append hflag hcases

/-- A path that bumps the revision and appends a transition keeps the episode sound exactly when
the revision does not wrap. -/
theorem sound_transition_iff (h : EpisodeSound limits e) (hsame : e.SameHistory changed)
    (hvalid : limits.validate = .ok ()) (hrevision : changed.revision = e.revision + 1)
    (hobservations : changed.observations = e.observations)
    (hseverity : toUnderlying changed.currentSeverity ≤ toUnderlying changed.peakSeverity)
    (ht : t.revision = e.revision + 1) :
    EpisodeSound limits (changed.appendTransition t limits) ↔ HasRoom e.revision := by
  have hbound : 0 < limits.maxEpisodeTransitions :=
    Limits.pos_of_validate hvalid (_, "max_episode_transitions") (by simp [Limits.positives])
  have htransitions := appendTransition_counted_iff (t := t) h hsame hbound hrevision
  constructor
  · intro hsound
    exact htransitions.mp hsound.transitions
  · intro hroom
    have hassessments := h.assessments
    have hflag := appendTransition_truncated (t := t) h hsame hroom
    rw [← hsame.assessments, ← hsame.assessmentsDropped, ← hobservations] at hassessments
    rw [← hsame.assessmentsDropped] at hflag
    refine ⟨?_, htransitions.mpr hroom, ?_, hassessments, hflag, hseverity⟩
    · show changed.id = computeEpisodeId changed.key
      rw [hsame.id, hsame.key]
      exact h.identity
    · exact appendTransition_consecutive h hsame hroom hrevision ht

/-- A path that bumps both counters and appends a transition and an assessment keeps the episode
sound exactly when neither counter wraps. -/
theorem sound_record_iff (h : EpisodeSound limits e) (hsame : e.SameHistory changed)
    (hvalid : limits.validate = .ok ()) (hrevision : changed.revision = e.revision + 1)
    (hobservations : changed.observations = e.observations + 1)
    (hseverity : toUnderlying changed.currentSeverity ≤ toUnderlying changed.peakSeverity)
    (ht : t.revision = e.revision + 1) (d : AssessmentDigest) :
    EpisodeSound limits ((changed.appendTransition t limits).appendAssessment d limits) ↔
      HasRoom e.revision ∧ HasRoom e.observations := by
  have hpositive := Limits.pos_of_validate hvalid
  have hbound : 0 < limits.maxEpisodeTransitions :=
    hpositive (_, "max_episode_transitions") (by simp [Limits.positives])
  have hbound' : 0 < limits.maxEpisodeAssessments :=
    hpositive (_, "max_episode_assessments") (by simp [Limits.positives])
  -- The two histories are independent of each other, and each has an equivalence of its own.
  have htransitions := appendTransition_counted_iff (t := t) h hsame hbound hrevision
  have hassessments := h.assessments.append_iff hbound' d
    (changed.appendTransition t limits).historyTruncated
  rw [← hsame.assessments, ← hsame.assessmentsDropped, ← hobservations] at hassessments
  constructor
  · intro hsound
    exact ⟨htransitions.mp hsound.transitions, hassessments.mp hsound.assessments⟩
  · rintro ⟨hroom, hroom'⟩
    -- The flag is shared: it says that either of the histories has dropped something.
    have hflag := appendTransition_truncated (t := t) h hsame hroom
    rw [← hsame.assessmentsDropped] at hflag
    have hcases := h.assessments.append_dropped hroom' d
      (changed.appendTransition t limits).historyTruncated
    rw [← hsame.assessments, ← hsame.assessmentsDropped] at hcases
    refine ⟨?_, htransitions.mpr hroom, ?_, hassessments.mpr hroom', ?_, hseverity⟩
    · show changed.id = computeEpisodeId changed.key
      rw [hsame.id, hsame.key]
      exact h.identity
    · exact appendTransition_consecutive h hsame hroom hrevision ht
    · rw [Nat.add_comm] at hflag ⊢
      exact truncated_iff_of_append hflag hcases

theorem sound_quiesce_iff (h : EpisodeSound limits e) (hvalid : limits.validate = .ok ())
    (assessment : CongestionAssessment) (now : Timestamp) :
    EpisodeSound limits (e.quiesce assessment now limits) ↔
      HasRoom e.revision ∧ HasRoom e.observations := by
  unfold quiesce
  refine sound_record_iff h ?_ hvalid ?_ ?_ ?_ ?_ _
  · exact ⟨rfl, rfl, rfl, rfl, rfl, rfl, rfl⟩
  · rfl
  · rfl
  · -- A quiescent episode has the least severity there is.
    exact UInt8.zero_le
  · rfl

theorem sound_refresh_iff (h : EpisodeSound limits e) (hvalid : limits.validate = .ok ())
    (assessment : CongestionAssessment) (now : Timestamp) :
    EpisodeSound limits (e.refresh assessment now limits) ↔
      HasRoom e.revision ∧ HasRoom e.observations := by
  unfold refresh
  refine sound_record_iff h ?_ hvalid ?_ ?_ ?_ ?_ _
  · exact ⟨rfl, rfl, rfl, rfl, rfl, rfl, rfl⟩
  · rfl
  · rfl
  · -- The peak follows the new severity whenever that is higher.
    show toUnderlying assessment.severity ≤ toUnderlying (if _ then _ else _)
    split
    · exact le_refl _
    · rename_i hle
      exact not_lt.mp hle
  · rfl

/-- A new episode is the first record of an empty history. -/
theorem sound_opened (hvalid : limits.validate = .ok ()) (key : EpisodeKey)
    (assessment : CongestionAssessment) (now : Timestamp) :
    EpisodeSound limits (opened key assessment now limits) := by
  have hblank : EpisodeSound limits { id := computeEpisodeId key, key := key } :=
    ⟨rfl, ⟨Nat.zero_le _, rfl⟩, fun i t hget => by simp at hget, ⟨Nat.zero_le _, rfl⟩, by simp,
      le_refl _⟩
  have hroom : HasRoom 0 := by decide
  unfold opened
  refine (sound_record_iff hblank ?_ hvalid ?_ ?_ ?_ ?_ _).mpr ⟨hroom, hroom⟩
  · exact ⟨rfl, rfl, rfl, rfl, rfl, rfl, rfl⟩
  · rfl
  · rfl
  · exact le_refl _
  · rfl

/-- `advance` records no assessment, so only the revision can wrap. -/
theorem sound_moveTo_iff (h : EpisodeSound limits e) (hvalid : limits.validate = .ok ())
    (next : EpisodeState) (kind : EpisodeTransitionKind) (now : Timestamp) :
    EpisodeSound limits (e.moveTo next kind now limits) ↔ HasRoom e.revision := by
  unfold moveTo
  refine sound_transition_iff h ?_ hvalid ?_ ?_ ?_ ?_
  · exact ⟨rfl, rfl, rfl, rfl, rfl, rfl, rfl⟩
  · rfl
  · rfl
  · show toUnderlying (if _ then Severity.none else e.currentSeverity) ≤ _
    split
    · exact UInt8.zero_le
    · exact h.severity
  · rfl

end

end Episode

/-! ### The registry -/

namespace EpisodeRegistry

/-- What holds of every reached registry. -/
structure RegistrySound (r : EpisodeRegistry) : Prop where
  episodes : ∀ entry ∈ r.episodes.entries, EpisodeSound r.limits entry.2
  bounded : r.episodes.size ≤ r.limits.maxEpisodes

/-- The entries an observation changes: the episode of the asserted key, or the open episodes of
the scope when congestion is not asserted. -/
def Observes (assessment : CongestionAssessment) (entry : EpisodeId × Episode) : Prop :=
  assessment.subject.valid = true ∧
    if assessment.congestionAsserted then
      (keyOf assessment).mechanism ≠ .none ∧ entry.1 = computeEpisodeId (keyOf assessment)
    else entry.2.key.scope = assessment.subject ∧ entry.2.state = .open

/-- The entries a loop visits before its token is cancelled, when it polls once per entry. -/
def visited {α : Type} (token : CancellationToken) (entries : List α) : List α :=
  match token.pollsLeft with
  | none => entries
  | some n => entries.take n

/-- The entries it does not visit. -/
def unvisited {α : Type} (token : CancellationToken) (entries : List α) : List α :=
  match token.pollsLeft with
  | none => []
  | some n => entries.drop n

/-- The call bumps no counter that is at its maximum. -/
def CountersFit (r : EpisodeRegistry) : Call → Prop
  | .observe assessment _ _ => ∀ entry ∈ r.episodes.entries, Observes assessment entry →
      HasRoom entry.2.revision ∧ HasRoom entry.2.observations
  | .advance now policy token => ∀ entry ∈ visited token r.episodes.entries,
      (entry.2.due now policy).isSome = true → HasRoom entry.2.revision
  | .restore _ => True

variable {r : EpisodeRegistry}

/-- `advance` on one episode that it visits. -/
def advanced (limits : Limits) (now : Timestamp) (policy : EpisodePolicy) (e : Episode) : Episode :=
  match e.due now policy with
  | none => e
  | some (next, kind) => e.moveTo next kind now limits

theorem sound_advanced_iff {limits : Limits} {e : Episode} (h : EpisodeSound limits e)
    (hvalid : limits.validate = .ok ()) (now : Timestamp) (policy : EpisodePolicy) :
    EpisodeSound limits (advanced limits now policy e) ↔
      ((e.due now policy).isSome = true → HasRoom e.revision) := by
  unfold advanced
  cases hdue : e.due now policy with
  | none => exact iff_of_true h (fun hsome => absurd hsome (by simp))
  | some p =>
      obtain ⟨next, kind⟩ := p
      rw [Episode.sound_moveTo_iff h hvalid]
      simp

section

variable (limits : Limits) (now : Timestamp) (policy : EpisodePolicy)

/-- An episode whose poll is not cancelled is moved when a window has elapsed. -/
theorem advanceEpisode_visit {st : AdvanceState} {token : CancellationToken} (e : Episode)
    (hrunning : st.cancelled = false) (hpoll : st.token.cancelled = (false, token)) :
    (advanceEpisode limits now policy st e).2 = advanced limits now policy e ∧
      (advanceEpisode limits now policy st e).1.token = token ∧
      (advanceEpisode limits now policy st e).1.cancelled = false := by
  unfold advanceEpisode advanced
  rw [if_neg (by simp [hrunning]), hpoll]
  cases e.due now policy with
  | none => exact ⟨rfl, rfl, hrunning⟩
  | some p => exact ⟨rfl, rfl, hrunning⟩

/-- A loop of `advance` that is already cancelled leaves the entries as they are. -/
theorem advanceLoop_cancelled {st : AdvanceState} (hcancelled : st.cancelled = true)
    (l : List (EpisodeId × Episode)) :
    (OrdMap.mapAccumList (fun st _ e => advanceEpisode limits now policy st e) st l).2 = l := by
  induction l with
  | nil => rfl
  | cons entry rest ih =>
      obtain ⟨id, e⟩ := entry
      have hstep : advanceEpisode limits now policy st e = (st, e) := by
        rw [advanceEpisode, if_pos hcancelled]
      rw [OrdMap.mapAccumList_cons, hstep, ih]

/-- The loop of `advance` moves the entries it visits and leaves the others. -/
theorem advanceLoop_entries {st : AdvanceState} (hrunning : st.cancelled = false)
    (l : List (EpisodeId × Episode)) :
    (OrdMap.mapAccumList (fun st _ e => advanceEpisode limits now policy st e) st l).2
      = (visited st.token l).map (fun entry => (entry.1, advanced limits now policy entry.2))
        ++ unvisited st.token l := by
  induction l generalizing st with
  | nil =>
      unfold visited unvisited
      cases st.token.pollsLeft <;> simp [OrdMap.mapAccumList]
  | cons entry rest ih =>
      obtain ⟨id, e⟩ := entry
      rw [OrdMap.mapAccumList_cons]
      -- The poll answers `true` only when no poll is left.
      cases hpolls : st.token.pollsLeft with
      | none =>
          have hpoll : st.token.cancelled = (false, st.token) := by
            simp [CancellationToken.cancelled, hpolls]
          obtain ⟨hmoved, htoken, hnext⟩ := advanceEpisode_visit limits now policy e hrunning hpoll
          rw [ih hnext, hmoved, htoken]
          simp [visited, unvisited, hpolls]
      | some n =>
          cases n with
          | zero =>
              have hpoll : st.token.cancelled = (true, st.token) := by
                simp [CancellationToken.cancelled, hpolls]
              have hstep : advanceEpisode limits now policy st e
                  = ({ st with cancelled := true }, e) := by
                rw [advanceEpisode, if_neg (by simp [hrunning]), hpoll]
                rfl
              rw [hstep, advanceLoop_cancelled limits now policy rfl]
              simp [visited, unvisited, hpolls]
          | succ n =>
              have hpoll : st.token.cancelled = (false, ⟨some n⟩) := by
                simp [CancellationToken.cancelled, hpolls]
              obtain ⟨hmoved, htoken, hnext⟩ :=
                advanceEpisode_visit limits now policy e hrunning hpoll
              rw [ih hnext, hmoved, htoken]
              simp [visited, unvisited, hpolls]

theorem visited_append_unvisited {α : Type} (token : CancellationToken) (l : List α) :
    visited token l ++ unvisited token l = l := by
  unfold visited unvisited
  cases token.pollsLeft with
  | none => exact List.append_nil l
  | some n => exact List.take_append_drop n l

/-- Whether it is cancelled or not, `advance` leaves what its loop made of the episodes. -/
theorem advance_registry (r : EpisodeRegistry) (token : CancellationToken) :
    (r.advance now policy token).2
      = { r with episodes := (r.episodes.mapAccum
          (fun st _ e => advanceEpisode r.limits now policy st e)
          { updates := [], token := token, cancelled := false }).2 } := by
  unfold advance
  show (if _ then (_, _) else (_, _)).2 = _
  split <;> rfl

theorem advance_entries (r : EpisodeRegistry) (token : CancellationToken) :
    (r.advance now policy token).2.episodes.entries
      = (visited token r.episodes.entries).map
          (fun entry => (entry.1, advanced r.limits now policy entry.2))
        ++ unvisited token r.episodes.entries := by
  rw [advance_registry]
  exact advanceLoop_entries r.limits now policy rfl r.episodes.entries

/-- `advance` keeps the registry sound exactly when no revision it bumps wraps. -/
theorem sound_advance_iff (h : RegistrySound r) (hvalid : r.limits.validate = .ok ())
    (token : CancellationToken) :
    RegistrySound (r.advance now policy token).2 ↔ CountersFit r (.advance now policy token) := by
  have hentries := advance_entries now policy r token
  have hsize : (r.advance now policy token).2.episodes.size = r.episodes.size := by
    rw [advance_registry]
    exact OrdMap.mapAccum_size _ _ _
  have hlimits : (r.advance now policy token).2.limits = r.limits := by rw [advance_registry]
  -- The entries behind a cancellation are not visited and stay as they are.
  have hold : ∀ entry ∈ visited token r.episodes.entries ++ unvisited token r.episodes.entries,
      EpisodeSound r.limits entry.2 := by
    rw [visited_append_unvisited]
    exact h.episodes
  constructor
  · intro hnext entry hentry
    have hmem : (entry.1, advanced r.limits now policy entry.2)
        ∈ (r.advance now policy token).2.episodes.entries := by
      rw [hentries]
      exact List.mem_append_left _ (List.mem_map_of_mem hentry)
    have hsound := hnext.episodes _ hmem
    rw [hlimits] at hsound
    exact (sound_advanced_iff (hold entry (List.mem_append_left _ hentry)) hvalid now policy).mp
      hsound
  · intro hfit
    refine ⟨?_, ?_⟩
    · rw [hentries, hlimits]
      intro entry hentry
      rcases List.mem_append.mp hentry with hentry | hentry
      · obtain ⟨old, hmem, rfl⟩ := List.mem_map.mp hentry
        exact (sound_advanced_iff (hold old (List.mem_append_left _ hmem)) hvalid now policy).mpr
          (hfit old hmem)
      · exact hold entry (List.mem_append_right _ hentry)
    · rw [hsize, hlimits]
      exact h.bounded

end

/-- The entries after a non-asserting observation. -/
theorem observeQuiet_registry (r : EpisodeRegistry) (assessment : CongestionAssessment)
    (now : Timestamp) :
    (r.observeQuiet assessment now).2
      = { r with episodes := r.episodes.mapValues (fun _ e =>
          if e.key.scope = assessment.subject ∧ e.state = .open then
            e.quiesce assessment now r.limits
          else e) } := by
  unfold observeQuiet
  show ({ r with episodes := (OrdMap.mapAccum _ _ _).2 } : EpisodeRegistry) = _
  rw [OrdMap.mapAccum_values]
  intro first id e
  split <;> rfl

theorem sound_observeQuiet_iff (h : RegistrySound r) (hvalid : r.limits.validate = .ok ())
    (assessment : CongestionAssessment) (now : Timestamp) :
    RegistrySound (r.observeQuiet assessment now).2 ↔
      ∀ entry ∈ r.episodes.entries,
        entry.2.key.scope = assessment.subject ∧ entry.2.state = .open →
        HasRoom entry.2.revision ∧ HasRoom entry.2.observations := by
  rw [observeQuiet_registry]
  constructor
  · intro hnext entry hentry hopen
    rw [← Episode.sound_quiesce_iff (h.episodes entry hentry) hvalid assessment now]
    have hquiet := hnext.episodes _ (List.mem_map_of_mem hentry)
    simp only [if_pos hopen] at hquiet
    exact hquiet
  · intro hfit
    refine ⟨fun entry hentry => ?_, (OrdMap.size_mapValues _ _).le.trans h.bounded⟩
    obtain ⟨old, hmem, rfl⟩ := List.mem_map.mp hentry
    show EpisodeSound r.limits (if _ then _ else old.2)
    split
    · rename_i hopen
      exact (Episode.sound_quiesce_iff (h.episodes old hmem) hvalid assessment now).mpr
        (hfit old hmem hopen)
    · exact h.episodes old hmem

/-- The choice among some episodes: one that is over, with none that is over updated before it, or
nothing when none is over. -/
def Oldest (l : List (EpisodeId × Episode)) : Option (EpisodeId × Episode) → Prop
  | none => ∀ other ∈ l, other.2.terminal = false
  | some chosen => chosen ∈ l ∧ chosen.2.terminal = true ∧
      ∀ other ∈ l, other.2.terminal = true → chosen.2.lastUpdated ≤ other.2.lastUpdated

/-- A choice that stays when one more episode is seen. -/
theorem Oldest.keep {l : List (EpisodeId × Episode)} {chosen : Option (EpisodeId × Episode)}
    {a : EpisodeId × Episode} (h : Oldest l chosen) (ha : a.2.terminal = true →
      ∃ v, chosen = some v ∧ v.2.lastUpdated ≤ a.2.lastUpdated) : Oldest (l ++ [a]) chosen := by
  cases chosen with
  | none =>
      intro other hother
      rcases List.mem_append.mp hother with hother | hother
      · exact h other hother
      · rw [List.mem_singleton.mp hother, ← Bool.not_eq_true]
        intro hterminal
        obtain ⟨v, hv, -⟩ := ha hterminal
        cases hv
  | some v =>
      refine ⟨List.mem_append_left _ h.1, h.2.1, fun other hother hterminal => ?_⟩
      rcases List.mem_append.mp hother with hother | hother
      · exact h.2.2 other hother hterminal
      · rw [List.mem_singleton.mp hother] at hterminal ⊢
        obtain ⟨w, hw, hle⟩ := ha hterminal
        cases hw
        exact hle

/-- A choice that is replaced by the episode that is seen. -/
theorem Oldest.replace {l : List (EpisodeId × Episode)} {chosen : Option (EpisodeId × Episode)}
    {a : EpisodeId × Episode} (h : Oldest l chosen) (hterminal : a.2.terminal = true)
    (ha : ∀ v, chosen = some v → a.2.lastUpdated ≤ v.2.lastUpdated) :
    Oldest (l ++ [a]) (some a) := by
  refine ⟨by simp, hterminal, fun other hother hover => ?_⟩
  rcases List.mem_append.mp hother with hother | hother
  · cases chosen with
    | none => exact absurd hover (by simp [h other hother])
    | some v => exact (ha v rfl).trans (h.2.2 other hother hover)
  · rw [List.mem_singleton.mp hother]

/-- The episode chosen to go is the oldest that is over. -/
theorem oldest_victim (r : EpisodeRegistry) : Oldest r.episodes.entries r.victim := by
  -- The episodes are taken off from the last one, as the fold sees them.
  unfold victim
  induction r.episodes.entries using List.reverseRecOn with
  | nil => exact fun other hother => absurd hother List.not_mem_nil
  | append_singleton l a ih =>
      rw [List.foldl_append, List.foldl_cons, List.foldl_nil]
      split
      · rename_i hterminal
        split
        · rename_i hnone
          exact ih.replace hterminal fun v hv => by rw [hnone] at hv; cases hv
        · rename_i oldest hsome
          split
          · rename_i hlt
            refine ih.replace hterminal fun v hv => ?_
            rw [hsome] at hv
            cases hv
            exact hlt.le
          · rename_i hle
            rw [hsome] at ih ⊢
            exact ih.keep fun _ => ⟨oldest, rfl, not_lt.mp hle⟩
      · rename_i hlive
        exact ih.keep fun hterminal => absurd hterminal hlive

theorem victim_spec {entry : EpisodeId × Episode} (h : r.victim = some entry) :
    entry ∈ r.episodes.entries ∧ entry.2.terminal = true ∧
      ∀ other ∈ r.episodes.entries, other.2.terminal = true →
        entry.2.lastUpdated ≤ other.2.lastUpdated := by
  have holdest := oldest_victim r
  rw [h] at holdest
  exact holdest

theorem makeRoom_limits (r : EpisodeRegistry) (subject : EvidenceSubject) :
    (r.makeRoom subject).2.limits = r.limits := by
  unfold makeRoom
  split
  · split <;> rfl
  · rfl

/-- Making room changes no episode. When it succeeds, another one fits. -/
theorem makeRoom_spec (h : RegistrySound r) (subject : EvidenceSubject) :
    RegistrySound (r.makeRoom subject).2 ∧
      ((r.makeRoom subject).1 = .ok () →
        (r.makeRoom subject).2.episodes.size + 1 ≤ r.limits.maxEpisodes) := by
  have hbounded := h.bounded
  unfold makeRoom
  split
  · cases hvictim : r.victim with
    | none => exact ⟨⟨h.episodes, h.bounded⟩, fun hok => by cases hok⟩
    | some entry =>
        obtain ⟨id, e⟩ := entry
        have hsize := OrdMap.size_erase_of_some (OrdMap.find?_eq_some_iff.mpr (victim_spec hvictim).1)
        refine ⟨⟨fun entry hentry => h.episodes entry (List.mem_filter.mp hentry).1, ?_⟩, ?_⟩
        · show (r.episodes.erase id).size ≤ r.limits.maxEpisodes
          omega
        · intro _
          show (r.episodes.erase id).size + 1 ≤ r.limits.maxEpisodes
          omega
  · refine ⟨h, fun _ => ?_⟩
    show r.episodes.size + 1 ≤ r.limits.maxEpisodes
    omega

/-- One more sound episode, when it fits. -/
theorem sound_emplace (h : RegistrySound r) {id : EpisodeId} {e : Episode}
    (he : EpisodeSound r.limits e) (hfits : r.episodes.size + 1 ≤ r.limits.maxEpisodes) :
    RegistrySound { r with episodes := r.episodes.emplace id e } := by
  show RegistrySound { r with episodes := if r.episodes.contains id then _ else _ }
  split
  · exact h
  · refine ⟨fun entry hentry => ?_, ?_⟩
    · rcases OrdMap.mem_insert hentry with rfl | hentry
      · exact he
      · exact h.episodes entry hentry
    · show (r.episodes.insert id e).size ≤ r.limits.maxEpisodes
      exact (OrdMap.size_insert_le _ _ _).trans hfits

/-- A registered episode is replaced by another one: the registry is sound exactly when the new
episode is. -/
theorem sound_insert_iff (h : RegistrySound r) {id : EpisodeId} {known e : Episode}
    (hknown : r.episodes.find? id = some known) :
    RegistrySound { r with episodes := r.episodes.insert id e } ↔ EpisodeSound r.limits e := by
  constructor
  · intro hnext
    exact hnext.episodes (id, e)
      (OrdMap.find?_eq_some_iff.mp (OrdMap.find?_insert_self r.episodes id e))
  · intro he
    refine ⟨fun entry hentry => ?_, ?_⟩
    · rcases OrdMap.mem_insert hentry with rfl | hentry
      · exact he
      · exact h.episodes entry hentry
    · show (r.episodes.insert id e).size ≤ r.limits.maxEpisodes
      rw [OrdMap.size_insert_of_some hknown]
      exact h.bounded

theorem sound_observeAsserted_iff (h : RegistrySound r) (hvalid : r.limits.validate = .ok ())
    (assessment : CongestionAssessment) (now : Timestamp) :
    RegistrySound (r.observeAsserted assessment now).2 ↔
      ∀ entry ∈ r.episodes.entries,
        (keyOf assessment).mechanism ≠ .none ∧ entry.1 = computeEpisodeId (keyOf assessment) →
        HasRoom entry.2.revision ∧ HasRoom entry.2.observations := by
  unfold observeAsserted
  by_cases hmechanism : (keyOf assessment).mechanism = .none
  · rw [if_pos hmechanism]
    exact iff_of_true h fun entry _ hobserves => absurd hmechanism hobserves.1
  rw [if_neg hmechanism]
  cases hfind : r.episodes.find? (computeEpisodeId (keyOf assessment)) with
  | none =>
      -- A new episode starts with fresh counters, so nothing can wrap.
      refine iff_of_true ?_ fun entry hentry hobserves =>
        absurd hobserves.2 (OrdMap.find?_eq_none_iff.mp hfind entry hentry)
      obtain ⟨hsound, hfits⟩ := makeRoom_spec h assessment.subject
      have hlimits := makeRoom_limits r assessment.subject
      simp only [hfind]
      generalize r.makeRoom assessment.subject = made at hsound hlimits hfits
      obtain ⟨status, r'⟩ := made
      cases status with
      | error e => exact hsound
      | ok u =>
          simp only at hlimits hfits hsound
          refine sound_emplace hsound (Episode.sound_opened (hlimits ▸ hvalid) _ _ _) ?_
          rw [hlimits]
          exact hfits trivial
  | some known =>
      have hmem := OrdMap.find?_eq_some_iff.mp hfind
      simp only [hfind]
      rw [sound_insert_iff h hfind, Episode.sound_refresh_iff (h.episodes _ hmem) hvalid]
      constructor
      · intro hroom entry hentry hobserves
        have heq : entry.2 = known := by
          have hother : r.episodes.find? entry.1 = some entry.2 := OrdMap.find?_eq_some_iff.mpr hentry
          rw [hobserves.2, hfind, Option.some.injEq] at hother
          exact hother.symm
        rw [heq]
        exact hroom
      · intro hfit
        exact hfit _ hmem ⟨hmechanism, rfl⟩

theorem sound_observe_iff (h : RegistrySound r) (hvalid : r.limits.validate = .ok ())
    (assessment : CongestionAssessment) (policy : EpisodePolicy) (now : Timestamp) :
    RegistrySound (r.observe assessment policy now).2 ↔
      CountersFit r (.observe assessment policy now) := by
  unfold observe CountersFit Observes
  by_cases hsubject : assessment.subject.valid = true
  · by_cases hasserted : assessment.congestionAsserted = true
    · have hiff := sound_observeAsserted_iff h hvalid assessment now
      simpa [hsubject, hasserted] using hiff
    · have hiff := sound_observeQuiet_iff h hvalid assessment now
      simpa [hsubject, hasserted] using hiff
  · simpa [hsubject] using h

/-- A restored episode that is sound keeps the registry sound. -/
theorem sound_restore (h : RegistrySound r) {e : Episode} (he : EpisodeSound r.limits e) :
    RegistrySound (r.restore e).2 := by
  unfold restore
  split
  · exact h
  · cases hfind : r.episodes.find? e.id with
    | some known =>
        simp only
        split
        · exact h
        · exact (sound_insert_iff h hfind).mpr he
    | none =>
        simp only
        split
        · exact h
        · exact sound_emplace h he (by omega)

theorem observeAsserted_limits (r : EpisodeRegistry) (assessment : CongestionAssessment)
    (now : Timestamp) : (r.observeAsserted assessment now).2.limits = r.limits := by
  have hmade := makeRoom_limits r assessment.subject
  unfold observeAsserted
  simp only
  split
  · rfl
  · split
    · split
      · rename_i heq
        rwa [heq] at hmade
      · rename_i heq
        rwa [heq] at hmade
    · rfl

/-- The limits of a registry never change. -/
theorem step_limits (r : EpisodeRegistry) (call : Call) : (r.step call).2.limits = r.limits := by
  cases call with
  | observe assessment policy now =>
      show (r.observe assessment policy now).2.limits = r.limits
      unfold observe
      split
      · rfl
      · split
        · rfl
        · exact observeAsserted_limits r assessment now
  | advance now policy token =>
      show (r.advance now policy token).2.limits = r.limits
      rw [advance_registry]
  | restore e =>
      show (r.restore e).2.limits = r.limits
      unfold restore
      split
      · rfl
      · split
        · split <;> rfl
        · split <;> rfl

/-- One call keeps the registry sound exactly when the counters it bumps do not wrap. -/
theorem sound_step_iff (h : RegistrySound r) (hvalid : r.limits.validate = .ok ()) (call : Call)
    (hrestored : ∀ e, call = .restore e → EpisodeSound r.limits e) :
    RegistrySound (r.step call).2 ↔ CountersFit r call := by
  cases call with
  | observe assessment policy now => exact sound_observe_iff h hvalid assessment policy now
  | advance now policy token => exact sound_advance_iff now policy h hvalid token
  | restore e => exact iff_of_true (sound_restore h (hrestored e rfl)) trivial

/-- From the empty registry, with validated limits and sound episodes restored, every state of a
run is sound exactly when no call bumps a revision or an observation count that is at its
maximum. -/
theorem history_sound_iff (limits : Limits) (hvalid : limits.validate = .ok ()) (calls : List Call)
    (hrestored : ∀ e, Call.restore e ∈ calls → EpisodeSound limits e) :
    (∀ n, RegistrySound (run step { limits := limits } (calls.take n))) ↔
      Guarded step CountersFit { limits := limits } calls := by
  have hinit : RegistrySound { limits := limits } ∧
      ({ limits := limits } : EpisodeRegistry).limits = limits :=
    ⟨⟨fun entry hentry => absurd hentry List.not_mem_nil, Nat.zero_le _⟩, rfl⟩
  have hstep : ∀ r, ∀ call ∈ calls, (RegistrySound r ∧ r.limits = limits) →
      ((RegistrySound (r.step call).2 ∧ (r.step call).2.limits = limits) ↔ CountersFit r call) := by
    rintro r call hcall ⟨hsound, hlimits⟩
    rw [step_limits, sound_step_iff hsound (hlimits ▸ hvalid) call
      (fun e he => hlimits ▸ hrestored e (he ▸ hcall))]
    exact and_iff_left hlimits
  rw [← always_iff_guarded step (fun r => RegistrySound r ∧ r.limits = limits) calls hstep hinit]
  constructor
  · intro hsound n
    refine ⟨hsound n, ?_⟩
    exact run_induction step (fun r => r.limits = limits) rfl
      (fun r call hlimits => (step_limits r call).trans hlimits) _
  · intro halways n
    exact (halways n).1

/-- An episode of a link, with one transition kept and the given number dropped. -/
def restoredEpisode (dropped : UInt64) : Episode :=
  let key : EpisodeKey :=
    { scope := .link (EntityId.unchecked (ascii "l1")), mechanism := .packetDrop
      policyVersion := ascii "1" }
  { id := computeEpisodeId key
    key := key
    revision := dropped + 1
    observations := 1
    transitions := [{ revision := dropped + 1 }]
    assessments := [{}]
    transitionsDropped := dropped
    historyTruncated := decide (0 < dropped.toNat) }

theorem restoredEpisode_sound {dropped : UInt64} (hroom : HasRoom dropped) :
    EpisodeSound {} (restoredEpisode dropped) := by
  have hfits : 1 ≤ ({} : Limits).maxEpisodeTransitions := by decide
  have hfits' : 1 ≤ ({} : Limits).maxEpisodeAssessments := by decide
  refine ⟨rfl, ⟨hfits, toNat_succ hroom⟩, ?_, ⟨hfits', rfl⟩, ?_, le_refl _⟩
  · intro i t hget
    cases i with
    | zero =>
        cases hget
        rfl
    | succ i => cases hget
  · show decide (0 < dropped.toNat) = true ↔ 0 < dropped.toNat + 0
    simp

/-- The episode is restored, and then congestion is no longer asserted for its scope. -/
def restoreThenQuiet (dropped : UInt64) : List Call :=
  [.restore (restoredEpisode dropped),
   .observe { subject := .link (EntityId.unchecked (ascii "l1")) } {} Timestamp.zero]

theorem restoreThenQuiet_restored {dropped : UInt64} (hroom : HasRoom dropped) :
    ∀ e, Call.restore e ∈ restoreThenQuiet dropped → EpisodeSound {} e := by
  intro e he
  simp only [restoreThenQuiet, List.mem_cons, Call.restore.injEq, reduceCtorEq, List.not_mem_nil,
    or_false] at he
  rw [he]
  exact restoredEpisode_sound hroom

/-- With a few transitions dropped, every state of the run is sound. -/
theorem history_sound_restored :
    ({} : Limits).validate = .ok () ∧
      ∀ n, RegistrySound (run step { limits := {} } ((restoreThenQuiet 7).take n)) := by
  refine ⟨by decide +kernel, (history_sound_iff {} (by decide +kernel) (restoreThenQuiet 7)
    (restoreThenQuiet_restored (by decide))).mpr ⟨trivial, ?_, trivial⟩⟩
  have hentries : (step { limits := {} } (.restore (restoredEpisode 7))).2.episodes.entries
      = [((restoredEpisode 7).id, restoredEpisode 7)] := by
    decide +kernel
  intro entry hentry _
  rw [hentries, List.mem_singleton] at hentry
  rw [hentry]
  exact ⟨by decide, by decide⟩

/-- A sound episode at the last revision is restored and observed once more. Its revision wraps
to zero, although two transitions are kept and almost `2 ^ 64` were dropped. -/
theorem wrapped_revision_loses_history :
    ({} : Limits).validate = .ok () ∧
      (∀ e, Call.restore e ∈ restoreThenQuiet 0xFFFFFFFFFFFFFFFE → EpisodeSound {} e) ∧
      ¬ RegistrySound (run step { limits := {} } (restoreThenQuiet 0xFFFFFFFFFFFFFFFE)) := by
  refine ⟨by decide +kernel, restoreThenQuiet_restored (by decide), fun hsound => ?_⟩
  have hcount : ∀ entry ∈
      (run step { limits := {} } (restoreThenQuiet 0xFFFFFFFFFFFFFFFE)).episodes.entries,
      entry.2.revision.toNat = entry.2.transitionsDropped.toNat + entry.2.transitions.length :=
    fun entry hentry => (hsound.episodes entry hentry).transitions.count_eq
  revert hcount
  decide +kernel

end EpisodeRegistry

end CongestionObservatory
