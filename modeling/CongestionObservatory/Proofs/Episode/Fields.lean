import CongestionObservatory.Proofs.Episode.Lifecycle

/-!
# `CongestionObservatory.Proofs.Episode.Fields`: the fields an episode derives from its calls

`Written r id call e` lists the four ways in which a call on the registry `r` writes the episode
`e` under `id`: it opens a new one, refreshes a known one, quiesces an open one, or moves one when
a window has elapsed. `find?_step_cases` says that an episode is there after a call when it was
there before or the call wrote it, and `find?_of_written` is the converse for a known episode.

Two properties of runs are read off these cases.

* `fields_agree_iff`: a closed episode has no current severity and an open one has no end. The
  timed quiescence keeps the severity, and a refresh keeps `resolvedAt`, so this holds exactly when
  neither is set at that moment.
* `intervals_ordered_iff`: an episode is first seen, last seen and last updated in this order, and
  `lastSeen` never goes back. The code assigns `now` unconditionally, so this holds exactly when
  no call writes an episode with an earlier time than it was last seen at.
-/

set_option autoImplicit false

namespace CongestionObservatory

open Lib

namespace EpisodeRegistry

variable {r : EpisodeRegistry} {id : EpisodeId} {e e' : Episode} {call : Call}

/-! ### What a call writes -/

/-- The call writes the episode under the identity. -/
inductive Written (r : EpisodeRegistry) (id : EpisodeId) : Call → Episode → Prop
  | opened {assessment : CongestionAssessment} {policy : EpisodePolicy} {now : Timestamp}
      (hid : id = computeEpisodeId (keyOf assessment)) (hnew : r.episodes.find? id = none) :
      Written r id (.observe assessment policy now)
        (Episode.opened (keyOf assessment) assessment now r.limits)
  | refreshed {assessment : CongestionAssessment} {policy : EpisodePolicy} {now : Timestamp}
      {e : Episode} (hobserves : Observes assessment (id, e))
      (hasserted : assessment.congestionAsserted = true) (hfind : r.episodes.find? id = some e) :
      Written r id (.observe assessment policy now) (e.refresh assessment now r.limits)
  | quiesced {assessment : CongestionAssessment} {policy : EpisodePolicy} {now : Timestamp}
      {e : Episode} (hobserves : Observes assessment (id, e))
      (hquiet : assessment.congestionAsserted = false) (hfind : r.episodes.find? id = some e) :
      Written r id (.observe assessment policy now) (e.quiesce assessment now r.limits)
  | moved {now : Timestamp} {policy : EpisodePolicy} {token : CancellationToken} {e : Episode}
      {next : EpisodeState} {kind : EpisodeTransitionKind}
      (hvisited : (id, e) ∈ visited token r.episodes.entries)
      (hdue : e.due now policy = some (next, kind)) :
      Written r id (.advance now policy token) (e.moveTo next kind now r.limits)

/-- A visited entry is an entry. -/
theorem find?_of_visited {token : CancellationToken}
    (h : (id, e) ∈ visited token r.episodes.entries) : r.episodes.find? id = some e := by
  rw [OrdMap.find?_eq_some_iff, ← visited_append_unvisited token r.episodes.entries]
  exact List.mem_append_left _ h

theorem observe_find?_cases {assessment : CongestionAssessment} {policy : EpisodePolicy}
    {now : Timestamp}
    (h : (r.step (.observe assessment policy now)).2.episodes.find? id = some e') :
    r.episodes.find? id = some e' ∨ Written r id (.observe assessment policy now) e' := by
  by_cases hsubject : assessment.subject.valid = true
  swap
  · -- Without a subject nothing is observed.
    left
    simpa [step, observe, hsubject] using h
  cases hasserted : assessment.congestionAsserted with
  | false =>
      rw [step_observe_quiet policy now hsubject hasserted] at h
      obtain ⟨e, hfind, hquiet⟩ := Option.map_eq_some_iff.mp
        ((find?_observeQuiet assessment now).symm.trans h)
      split at hquiet
      · rename_i hopen
        right
        rw [← hquiet]
        refine .quiesced ⟨hsubject, ?_⟩ hasserted hfind
        rw [if_neg (by simp [hasserted])]
        exact hopen
      · left
        rw [hfind, hquiet]
  | true =>
      rw [step_observe_asserted policy now hsubject hasserted] at h
      have hopened : ∀ left : OrdMap EpisodeId Episode,
          (∀ e, left.find? id = some e → r.episodes.find? id = some e) →
          r.episodes.find? (computeEpisodeId (keyOf assessment)) = none →
          (left.insert (computeEpisodeId (keyOf assessment))
            (Episode.opened (keyOf assessment) assessment now r.limits)).find? id = some e' →
          r.episodes.find? id = some e' ∨ Written r id (.observe assessment policy now) e' := by
        intro left hleft hnew hinsert
        rw [OrdMap.find?_insert] at hinsert
        split at hinsert
        · rename_i heq
          cases hinsert
          right
          exact .opened heq (heq ▸ hnew)
        · exact Or.inl (hleft e' hinsert)
      rcases observeAsserted_cases r assessment now with ⟨hsame, -⟩ |
        ⟨known, hknown, hmechanism, -, hepisodes⟩ | ⟨left, hnew, hleft, -, hepisodes⟩
      · left
        exact hsame ▸ h
      · rw [hepisodes, OrdMap.find?_insert] at h
        split at h
        · rename_i heq
          cases h
          right
          refine .refreshed ⟨hsubject, ?_⟩ hasserted (heq ▸ hknown)
          rw [if_pos hasserted]
          exact ⟨hmechanism, heq⟩
        · exact Or.inl h
      · rw [hepisodes] at h
        refine hopened left (fun e he => ?_) hnew h
        rcases hleft with rfl | ⟨gone, -, -, rfl⟩
        · exact he
        · rw [OrdMap.find?_erase] at he
          split at he
          · cases he
          · exact he

/-- After a call that restores nothing, an episode was there before or the call wrote it. -/
theorem find?_step_cases (hcall : ∀ restored, call ≠ .restore restored)
    (h : (r.step call).2.episodes.find? id = some e') :
    r.episodes.find? id = some e' ∨ Written r id call e' := by
  cases call with
  | observe assessment policy now => exact observe_find?_cases h
  | advance now policy token =>
      cases hfind : r.episodes.find? id with
      | none =>
          have hnone := (find?_advance_none now policy token).mpr hfind
          rw [show (r.step (.advance now policy token)).2.episodes.find? id = none from hnone] at h
          cases h
      | some e =>
          rcases find?_advance hfind h with rfl | ⟨next, kind, hvisited, hdue, rfl⟩
          · exact Or.inl rfl
          · exact Or.inr (.moved hvisited hdue)
  | restore restored => exact absurd rfl (hcall restored)

/-- What a call writes over a known episode is there after the call. -/
theorem find?_of_written (hknown : r.episodes.find? id = some e) (h : Written r id call e') :
    (r.step call).2.episodes.find? id = some e' := by
  -- One case for each way in which a call writes an episode.
  cases h with
  | opened hid hnew =>
      rw [hnew] at hknown
      cases hknown
  | @refreshed assessment policy now e hobserves hasserted hfind =>
      obtain ⟨hsubject, hkey⟩ := hobserves
      rw [if_pos hasserted] at hkey
      obtain ⟨hmechanism, hid⟩ := hkey
      subst hid
      rw [step_observe_asserted policy now hsubject hasserted]
      rcases observeAsserted_cases r assessment now with ⟨-, hnone⟩ |
        ⟨known, hfind', -, -, hepisodes⟩ | ⟨left, hnone, -⟩
      · rw [hnone hmechanism] at hfind
        cases hfind
      · rw [hfind] at hfind'
        cases hfind'
        rw [hepisodes, OrdMap.find?_insert_self]
      · rw [hnone] at hfind
        cases hfind
  | @quiesced assessment policy now e hobserves hquiet hfind =>
      obtain ⟨hsubject, hopen⟩ := hobserves
      rw [if_neg (by simp [hquiet])] at hopen
      rw [step_observe_quiet policy now hsubject hquiet]
      refine (find?_observeQuiet assessment now).trans ?_
      rw [hfind, Option.map_some, if_pos hopen]
  | @moved now policy token e next kind hvisited hdue =>
      have hfind := find?_advance_visited now policy hvisited
      rw [advanced, hdue] at hfind
      exact hfind

/-! ### The state and its fields -/

/-- The fields agree with the state: a closed episode has no current severity, and an open one
has not ended. -/
structure FieldsAgree (e : Episode) : Prop where
  closed : e.state ≠ .open → e.currentSeverity = .none
  opened : e.state = .open → e.resolvedAt = Timestamp.zero

/-- The call reopens or refreshes no episode that has an end, and the window that makes an open
episode quiescent meets no severity. -/
def FieldsFit (r : EpisodeRegistry) : Call → Prop
  | .observe assessment _ _ => assessment.congestionAsserted = true →
      ∀ entry ∈ r.episodes.entries, Observes assessment entry →
        entry.2.resolvedAt = Timestamp.zero
  | .advance now policy token => ∀ entry ∈ visited token r.episodes.entries,
      entry.2.state = .open → (now - entry.2.lastSeen).isNegative = false →
      now - entry.2.lastSeen > policy.resolveAfter → entry.2.currentSeverity = .none
  | .restore _ => True

/-- What is due, from the state: an open episode gets quiescent, and every other one ends. -/
theorem due_cases {now : Timestamp} {policy : EpisodePolicy} {next : EpisodeState}
    {kind : EpisodeTransitionKind} (h : e.due now policy = some (next, kind)) :
    (e.state = .open ∧ next = .quiescent ∧ (now - e.lastSeen).isNegative = false ∧
      now - e.lastSeen > policy.resolveAfter) ∨
    (e.state ≠ .open ∧ (next = .resolved ∨ next = .expired)) := by
  unfold Episode.due at h
  simp only at h
  split at h
  · cases h
  · rename_i hsign
    split at h
    · rename_i hopen
      cases h
      exact Or.inl ⟨hopen.1, rfl, by simpa using hsign, hopen.2⟩
    · split at h
      · rename_i hquiescent
        cases h
        exact Or.inr ⟨by simp [hquiescent.1], Or.inl rfl⟩
      · split at h
        · rename_i hover
          cases h
          refine Or.inr ⟨?_, Or.inr rfl⟩
          rcases hover.1 with hresolved | hquiescent
          · simp [hresolved]
          · simp [hquiescent]
        · cases h

/-- An open episode whose window has elapsed gets quiescent. -/
theorem due_of_open {now : Timestamp} {policy : EpisodePolicy} (hopen : e.state = .open)
    (hsign : (now - e.lastSeen).isNegative = false) (hidle : now - e.lastSeen > policy.resolveAfter) :
    e.due now policy = some (.quiescent, .quiesced) := by
  unfold Episode.due
  simp only
  rw [if_neg (by simp [hsign]), if_pos ⟨hopen, hidle⟩]

/-- One call keeps the fields in agreement exactly when it fits. -/
theorem fields_step_iff (hcall : ∀ restored, call ≠ .restore restored)
    (h : ∀ entry ∈ r.episodes.entries, FieldsAgree entry.2) :
    (∀ entry ∈ (r.step call).2.episodes.entries, FieldsAgree entry.2) ↔ FieldsFit r call := by
  have hold : ∀ {id e}, r.episodes.find? id = some e → FieldsAgree e :=
    fun hfind => h _ (OrdMap.find?_eq_some_iff.mp hfind)
  constructor
  · intro hnext
    have hwritten : ∀ {id e e'}, r.episodes.find? id = some e → Written r id call e' →
        FieldsAgree e' :=
      fun hknown hwrites => hnext _ (OrdMap.find?_eq_some_iff.mp (find?_of_written hknown hwrites))
    cases call with
    | observe assessment policy now =>
        intro hasserted entry hentry hobserves
        have hfind := OrdMap.find?_eq_some_iff.mpr hentry
        have hrefreshed : Written r entry.1 (.observe assessment policy now) _ :=
          .refreshed hobserves hasserted hfind
        exact (hwritten hfind hrefreshed).opened rfl
    | advance now policy token =>
        intro entry hvisited hopen hsign hidle
        have hmoved := hwritten (find?_of_visited hvisited)
          (.moved hvisited (due_of_open hopen hsign hidle))
        exact hmoved.closed nofun
    | restore restored => trivial
  · intro hfits entry hentry
    rcases find?_step_cases hcall (OrdMap.find?_eq_some_iff.mpr hentry) with hknown | hwrites
    · exact hold hknown
    generalize hnew : entry.2 = e' at hwrites
    cases hwrites with
    | opened hid hnew => exact ⟨fun hclosed => absurd rfl hclosed, fun _ => rfl⟩
    | refreshed hobserves hasserted hfind =>
        refine ⟨fun hclosed => absurd rfl hclosed, fun _ => ?_⟩
        exact hfits hasserted _ (OrdMap.find?_eq_some_iff.mp hfind) hobserves
    | quiesced hobserves hquiet hfind => exact ⟨fun _ => rfl, nofun⟩
    | moved hvisited hdue =>
        rcases due_cases hdue with ⟨hopen, rfl, hsign, hidle⟩ | ⟨-, rfl | rfl⟩
        · -- The timed quiescence keeps the severity.
          exact ⟨fun _ => hfits _ hvisited hopen hsign hidle, nofun⟩
        · exact ⟨fun _ => rfl, nofun⟩
        · exact ⟨fun _ => rfl, nofun⟩

/-- From the empty registry, the fields agree with the state in every state of a run of
observations and advances exactly when every call fits. -/
theorem fields_agree_iff (limits : Limits) (calls : List Call)
    (hcalls : ∀ restored, Call.restore restored ∉ calls) :
    (∀ n, ∀ entry ∈ (run step { limits := limits } (calls.take n)).episodes.entries,
      FieldsAgree entry.2) ↔ Guarded step FieldsFit { limits := limits } calls := by
  refine always_iff_guarded step (fun r => ∀ entry ∈ r.episodes.entries, FieldsAgree entry.2)
    calls (fun r call hmem hr => fields_step_iff (fun restored heq => ?_) hr)
    (fun entry hentry => absurd hentry List.not_mem_nil)
  exact hcalls restored (heq ▸ hmem)

instance (e : Episode) : Decidable (FieldsAgree e) :=
  decidable_of_iff ((e.state ≠ .open → e.currentSeverity = .none) ∧
    (e.state = .open → e.resolvedAt = Timestamp.zero))
    ⟨fun h => ⟨h.1, h.2⟩, fun h => ⟨h.closed, h.opened⟩⟩

/-- An assessment of a link that drops packets. -/
def dropAsserted : CongestionAssessment :=
  { subject := .link (EntityId.unchecked (ascii "l1"))
    verdict := .congestionConfirmed
    mechanisms := mechanismBit .packetDrop
    severity := .high
    congestionAsserted := true }

/-- The same link, without congestion. -/
def dropOver : CongestionAssessment := { subject := dropAsserted.subject }

/-- A number of seconds after the epoch. -/
def atSecond (seconds : Int64) : Timestamp := ⟨seconds * 1000000000⟩

/-- An episode that is opened and then quiesced by an observation. -/
def quiescedOnce : List Call :=
  [.observe dropAsserted {} (atSecond 1), .observe dropOver {} (atSecond 2)]

/-- An episode that is quiesced by an observation has no severity. -/
theorem fields_agree_observed :
    (run step { limits := {} } quiescedOnce).episodes.entries.map (·.2.state) = [.quiescent] ∧
    ∀ n, ∀ entry ∈ (run step { limits := {} } (quiescedOnce.take n)).episodes.entries,
      FieldsAgree entry.2 := by
  refine ⟨by decide +kernel, (fields_agree_iff {} quiescedOnce ?_).mpr ⟨?_, ?_, trivial⟩⟩
  · simp [quiescedOnce]
  · intro _ entry hentry
    cases hentry
  · intro hasserted
    cases hasserted

/-- An episode that is asserted, times out twice and is asserted again. -/
def assertedTwice : List Call :=
  [.observe dropAsserted {} (atSecond 1), .advance (atSecond 40) {} .never,
    .advance (atSecond 100) {} .never, .observe dropAsserted {} (atSecond 101)]

/-- After the first timeout the episode is quiescent and its severity is still high. At the end it
is open and its end is still set. -/
theorem timed_out_fields_disagree : (∀ restored, Call.restore restored ∉ assertedTwice) ∧
    ¬ (∀ entry ∈ (run step { limits := {} } (assertedTwice.take 2)).episodes.entries,
      entry.2.state ≠ .open → entry.2.currentSeverity = .none) ∧
    ¬ (∀ entry ∈ (run step { limits := {} } (assertedTwice.take 4)).episodes.entries,
      entry.2.state = .open → entry.2.resolvedAt = Timestamp.zero) ∧
    ¬ ∀ n, ∀ entry ∈ (run step { limits := {} } (assertedTwice.take n)).episodes.entries,
      FieldsAgree entry.2 := by
  refine ⟨by simp [assertedTwice], by decide +kernel, by decide +kernel, fun hagree => ?_⟩
  have hquiescent := hagree 2
  revert hquiescent
  decide +kernel

/-! ### The interval -/

/-- The interval of an episode, in order. -/
structure IntervalOrdered (e : Episode) : Prop where
  seen : e.firstSeen ≤ e.lastSeen
  updated : e.lastSeen ≤ e.lastUpdated

/-- After the call every interval is in order, and no registered episode was last seen earlier than
before. -/
structure IntervalsSafe (r : EpisodeRegistry) (call : Call) : Prop where
  ordered : ∀ id e', (r.step call).2.episodes.find? id = some e' → IntervalOrdered e'
  forward : ∀ id e e', r.episodes.find? id = some e →
    (r.step call).2.episodes.find? id = some e' → e.lastSeen ≤ e'.lastSeen

/-- The time of the call is not before the moment an episode that it changes was last seen. -/
def OnTime (r : EpisodeRegistry) : Call → Prop
  | .observe assessment _ now => ∀ entry ∈ r.episodes.entries, Observes assessment entry →
      entry.2.lastSeen ≤ now
  | .advance now policy token => ∀ entry ∈ visited token r.episodes.entries,
      (entry.2.due now policy).isSome = true → entry.2.lastSeen ≤ now
  | .restore _ => True

/-- A call on episodes whose intervals are in order is safe exactly when it is on time. -/
theorem intervals_step_iff (hcall : ∀ restored, call ≠ .restore restored)
    (h : ∀ id e, r.episodes.find? id = some e → IntervalOrdered e) :
    IntervalsSafe r call ↔ OnTime r call := by
  constructor
  · intro hsafe
    cases call with
    | observe assessment policy now =>
        intro entry hentry hobserves
        have hfind := OrdMap.find?_eq_some_iff.mpr hentry
        cases hasserted : assessment.congestionAsserted with
        | true =>
            have hrefreshed : Written r entry.1 (.observe assessment policy now) _ :=
              .refreshed hobserves hasserted hfind
            exact hsafe.forward _ _ _ hfind (find?_of_written hfind hrefreshed)
        | false =>
            have hquiesced : Written r entry.1 (.observe assessment policy now) _ :=
              .quiesced hobserves hasserted hfind
            exact (hsafe.ordered _ _ (find?_of_written hfind hquiesced)).updated
    | advance now policy token =>
        intro entry hvisited hdue
        obtain ⟨⟨next, kind⟩, hsome⟩ := Option.isSome_iff_exists.mp hdue
        exact (hsafe.ordered _ _ (find?_of_written (find?_of_visited hvisited)
          (.moved hvisited hsome))).updated
    | restore restored => trivial
  · intro htime
    -- What is written over a known episode is in order and moves `lastSeen` forward.
    have hwritten : ∀ {id e'}, Written r id call e' → IntervalOrdered e' ∧
        ∀ e, r.episodes.find? id = some e → e.lastSeen ≤ e'.lastSeen := by
      intro id e' hwrites
      cases hwrites with
      | opened hid hnew =>
          refine ⟨⟨le_refl _, le_refl _⟩, fun e hfind => ?_⟩
          rw [hnew] at hfind
          cases hfind
      | @refreshed assessment policy now known hobserves hasserted hfind =>
          have hlate := htime _ (OrdMap.find?_eq_some_iff.mp hfind) hobserves
          refine ⟨⟨(h _ _ hfind).seen.trans hlate, le_refl _⟩, fun e hfind' => ?_⟩
          cases hfind.symm.trans hfind'
          exact hlate
      | @quiesced assessment policy now known hobserves hquiet hfind =>
          have hlate := htime _ (OrdMap.find?_eq_some_iff.mp hfind) hobserves
          refine ⟨⟨(h _ _ hfind).seen, hlate⟩, fun e hfind' => ?_⟩
          cases hfind.symm.trans hfind'
          exact le_refl _
      | @moved now policy token known next kind hvisited hdue =>
          have hfind := find?_of_visited hvisited
          have hlate := htime _ hvisited (by rw [hdue]; rfl)
          refine ⟨⟨(h _ _ hfind).seen, hlate⟩, fun e hfind' => ?_⟩
          cases hfind.symm.trans hfind'
          exact le_refl _
    refine ⟨fun id e' hnext => ?_, fun id e e' hfind hnext => ?_⟩
    · rcases find?_step_cases hcall hnext with hknown | hwrites
      · exact h id e' hknown
      · exact (hwritten hwrites).1
    · rcases find?_step_cases hcall hnext with hknown | hwrites
      · cases hfind.symm.trans hknown
        exact le_refl _
      · exact (hwritten hwrites).2 e hfind

/-- From the empty registry, the intervals of a run of observations and advances stay in order and
move forward exactly when every call is on time. -/
theorem intervals_ordered_iff (limits : Limits) (calls : List Call)
    (hcalls : ∀ restored, Call.restore restored ∉ calls) :
    Guarded step IntervalsSafe { limits := limits } calls ↔
      Guarded step OnTime { limits := limits } calls := by
  refine guarded_iff_guarded step
    (fun r => ∀ id e, r.episodes.find? id = some e → IntervalOrdered e) calls
    (fun r call hmem hr => intervals_step_iff (fun restored heq => ?_) hr)
    (fun r call _ _ hsafe => hsafe.ordered) (fun id e hfind => ?_)
  · exact hcalls restored (heq ▸ hmem)
  · cases hfind

/-- Two observations in order. -/
theorem intervals_ordered_observed :
    Guarded step IntervalsSafe { limits := {} }
      [.observe dropAsserted {} (atSecond 1), .observe dropOver {} (atSecond 2)] := by
  refine (intervals_ordered_iff {} _ (by simp)).mpr ⟨?_, ?_, trivial⟩
  · intro entry hentry
    cases hentry
  · intro entry hentry _
    have hlate : ∀ entry ∈ (step { limits := {} }
        (.observe dropAsserted {} (atSecond 1))).2.episodes.entries,
        entry.2.lastSeen ≤ atSecond 2 := by
      decide +kernel
    exact hlate entry hentry

/-- Two evaluations of one link whose observations arrive in the other order. -/
def lateObservation : List Call :=
  [.observe dropAsserted {} (atSecond 5), .observe dropAsserted {} (atSecond 2)]

/-- The episode is then first seen at second 5 and last seen at second 2. -/
theorem late_observation_reverses_interval :
    (∀ restored, Call.restore restored ∉ lateObservation) ∧
    ¬ Guarded step IntervalsSafe { limits := {} } lateObservation := by
  refine ⟨by simp [lateObservation], fun hsafe => ?_⟩
  obtain ⟨-, hsecond, -⟩ := hsafe
  have hordered : ∀ entry ∈ (step (step { limits := {} } (.observe dropAsserted {} (atSecond 5))).2
      (.observe dropAsserted {} (atSecond 2))).2.episodes.entries,
      entry.2.firstSeen ≤ entry.2.lastSeen := by
    intro entry hentry
    exact (hsecond.ordered entry.1 entry.2 (OrdMap.find?_eq_some_iff.mpr hentry)).seen
  revert hordered
  decide +kernel

end EpisodeRegistry

end CongestionObservatory
