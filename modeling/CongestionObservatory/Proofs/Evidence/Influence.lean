import CongestionObservatory.Proofs.Evidence.StoreCases

/-!
# `CongestionObservatory.Proofs.Evidence.Influence`: what a rejected observation leaves behind

An observation that the fence rejects should have no influence: a run of `ingest` calls and the
same run without the rejected ones should go the same way. `NoInfluence` states this for the
replies, for the retained records and for the fence states of the sources that were heard.

The two runs are compared through `Alike`. Their stores agree on everything but the statistics and
the source table, and there the first one may have entries the second one has not: a rejected call
creates one for a source that was not known. Such an entry is `Unheard`, so the fence treats the
source as it would without it. But it counts toward `max_sources`. A source that is refused because
the table is full of such entries is accepted in the other run. `RoomHonest` excludes this, and
`no_influence_iff` says that rejected calls have no influence exactly when no call of the run meets
such a table.
-/

set_option autoImplicit false

namespace CongestionObservatory

open Lib

namespace EvidenceStore

/-- A call of `ingest`. -/
structure IngestCall where
  record : EvidenceRecord
  now : Timestamp
  policy : IngestPolicy
  topology : Option Topology

/-- One call. -/
def ingestStep (s : EvidenceStore) (call : IngestCall) : Result IngestOutcome × EvidenceStore :=
  s.ingest call.record call.now call.policy call.topology

/-- The outcome of a call that the fence rejected. -/
def fenceRejected : Result IngestOutcome → Bool
  | .ok outcome => !outcome.stored
  | .error _ => false

/-- The run without the calls that the fence rejected. -/
abbrev accepted (limits : Limits) (calls : List IngestCall) : List IngestCall :=
  remaining ingestStep fenceRejected { limits := limits } calls

/-- The rejected calls of a run have no influence on the others, on the retained records and on the
fence states of the sources that were heard. -/
structure NoInfluence (limits : Limits) (calls : List IngestCall) : Prop where
  replies : trace ingestStep { limits := limits } (accepted limits calls)
    = (trace ingestStep { limits := limits } calls).filter fun entry => !fenceRejected entry.2
  records : (run ingestStep { limits := limits } (accepted limits calls)).records
    = (run ingestStep { limits := limits } calls).records
  sources : ∀ entry ∈ trace ingestStep { limits := limits } calls, ∀ outcome,
    entry.2 = .ok outcome → outcome.stored = true →
      let key := entry.1.record.provenance.source.name
      let state := (run ingestStep { limits := limits } (accepted limits calls)).sourceState key
      let state' := (run ingestStep { limits := limits } calls).sourceState key
      state.last = state'.last ∧ state.hasState = state'.hasState ∧ state.live = state'.live

/-- The subject is in the topology, when the policy asks for it and there is a topology. -/
def IngestCall.subjectCheck (call : IngestCall) : Status :=
  match call.topology with
  | some t => if call.policy.requireKnownSubject then t.require call.record.subject else .ok ()
  | none => .ok ()

/-- The checks of `ingest` before it takes the lock. -/
def precheck (s : EvidenceStore) (call : IngestCall) : Status := do
  validateEvidence call.record s.limits
  call.subjectCheck
  failIf (call.policy.requireIncarnation = true ∧ call.record.fence.incarnation = 0)
    (makeError .invalidArgument "evidence carries no source incarnation"
      call.record.provenance.source.str)

/-- The number of sources that were heard. -/
def heard (s : EvidenceStore) : Nat := s.sources.values.countP (·.hasState)

/-- A call of an unknown source that passes its checks and meets a full table meets a table that is
full of sources that were heard. -/
def RoomHonest (s : EvidenceStore) (call : IngestCall) : Prop :=
  s.precheck call = .ok () →
    s.sources.contains call.record.provenance.source.name = false →
    s.limits.maxSources ≤ s.sources.size → s.limits.maxSources ≤ s.heard

/-! ### What does not depend on the source table -/

/-- The store without its source table and its statistics. -/
def core (s : EvidenceStore) : EvidenceStore := { s with sources := OrdMap.empty, stats := {} }

section

variable {s t : EvidenceStore}

theorem limits_of_core (h : s.core = t.core) : s.limits = t.limits := congrArg (·.limits) h

theorem records_of_core (h : s.core = t.core) : s.records = t.records :=
  congrArg (·.bySubject.values.flatten) h

theorem evictOldest_core (h : s.core = t.core) :
    s.evictOldest.1 = t.evictOldest.1 ∧ s.evictOldest.2.core = t.evictOldest.2.core := by
  cases s
  cases t
  simp only [core, mk.injEq, true_and, and_true] at h
  obtain ⟨rfl, rfl, rfl, rfl, rfl⟩ := h
  unfold evictOldest
  dsimp only
  split
  · split <;> exact ⟨rfl, rfl⟩
  · exact ⟨rfl, rfl⟩

theorem evictFromSubject_core (h : s.core = t.core) (key : Name) :
    (s.evictFromSubject key).1 = (t.evictFromSubject key).1 ∧
      (s.evictFromSubject key).2.core = (t.evictFromSubject key).2.core := by
  cases s
  cases t
  simp only [core, mk.injEq, true_and, and_true] at h
  obtain ⟨rfl, rfl, rfl, rfl, rfl⟩ := h
  unfold evictFromSubject bucket
  dsimp only
  split
  · split <;> exact ⟨rfl, rfl⟩
  · exact ⟨rfl, rfl⟩

theorem append_core (h : s.core = t.core) (key : Name) (stored : EvidenceRecord) :
    (s.append key stored).core = (t.append key stored).core := by
  cases s
  cases t
  simp only [core, mk.injEq, true_and, and_true] at h
  obtain ⟨rfl, rfl, rfl, rfl, rfl⟩ := h
  rfl

theorem retireOnReset_core (h : s.core = t.core) (fence : FenceOutcome) (source : Name) :
    (s.retireOnReset fence source).core = (t.retireOnReset fence source).core := by
  cases s
  cases t
  simp only [core, mk.injEq, true_and, and_true] at h
  obtain ⟨rfl, rfl, rfl, rfl, rfl⟩ := h
  unfold retireOnReset
  split <;> rfl

/-- An admission goes the same way on both stores. -/
theorem admitLocked_core (h : s.core = t.core) (record : EvidenceRecord) (recovered : Bool) :
    (∃ e, s.admitLocked record recovered = .error e ∧ t.admitLocked record recovered = .error e) ∨
    ∃ n s' t', s.admitLocked record recovered = .ok (n, s') ∧
      t.admitLocked record recovered = .ok (n, t') ∧ s'.core = t'.core := by
  have hindex : s.nextInsertionIndex = t.nextInsertionIndex := congrArg (·.nextInsertionIndex) h
  have hstamp : s.stamp record recovered = t.stamp record recovered := by
    unfold stamp
    rw [hindex]
  have hnext : ({ s with nextInsertionIndex := s.nextInsertionIndex + 1 } : EvidenceStore).core
      = ({ t with nextInsertionIndex := t.nextInsertionIndex + 1 } : EvidenceStore).core := by
    have hbump := congrArg
      (fun c : EvidenceStore => { c with nextInsertionIndex := c.nextInsertionIndex + 1 }) h
    exact hbump
  obtain ⟨hcount, hfirst⟩ := evictOldest_core hnext
  obtain ⟨hcount', hsecond⟩ := evictFromSubject_core hfirst (Name.unchecked record.subject.str)
  unfold admitLocked
  dsimp only
  split
  · exact Or.inl ⟨_, rfl, rfl⟩
  · refine Or.inr ⟨_, _, _, rfl, ?_, append_core hsecond _ _⟩
    rw [hcount, hcount', hstamp]

/-- What a source is known for, apart from its rejections. -/
def heardPart (state : SourceFenceState) : SourceFenceState :=
  { state with source := EntityId.default, rejected := 0 }

/-- The fence reads only what a source is known for. -/
theorem evaluateFence_heardPart {a b : SourceFenceState} (h : heardPart a = heardPart b)
    (incoming : FenceVector) (authority minimum : AuthorityLevel) :
    evaluateFence incoming authority minimum a = evaluateFence incoming authority minimum b := by
  have hlast : a.last = b.last := congrArg (·.last) h
  have hstate : a.hasState = b.hasState := congrArg (·.hasState) h
  unfold evaluateFence
  rw [hlast, hstate]

end

/-! ### The two runs -/

/-- The first store is the second one with the traces of rejected calls: entries of sources that
were not heard, and counted rejections. -/
structure Alike (s t : EvidenceStore) : Prop where
  core : s.core = t.core
  states : ∀ key, heardPart (s.sourceState key) = heardPart (t.sourceState key)
  heard : ∀ key state, t.sources.find? key = some state → state.hasState = true
  known : ∀ key state, s.sources.find? key = some state → state.hasState = true →
    t.sources.contains key = true
  bounded : s.sources.size ≤ s.limits.maxSources

section

variable {s t : EvidenceStore}

theorem contains_iff_find? {key : Name} {m : OrdMap Name SourceFenceState} :
    m.contains key = true ↔ ∃ state, m.find? key = some state :=
  Option.isSome_iff_exists

/-- The sources of the second store are those of the first one that were heard. -/
theorem Alike.contains_iff (h : Alike s t) (key : Name) :
    t.sources.contains key = true ↔ ∃ state, s.sources.find? key = some state ∧
      state.hasState = true := by
  constructor
  · intro hcontains
    obtain ⟨state, hstate⟩ := contains_iff_find?.mp hcontains
    have hheard := h.heard key state hstate
    have hsame : (s.sourceState key).hasState = (t.sourceState key).hasState :=
      congrArg (·.hasState) (h.states key)
    unfold sourceState at hsame
    rw [hstate, Option.getD_some, hheard] at hsame
    cases hfind : s.sources.find? key with
    | none =>
        rw [hfind] at hsame
        cases hsame
    | some state' =>
        rw [hfind] at hsame
        exact ⟨state', rfl, hsame⟩
  · rintro ⟨state, hstate, hheard⟩
    exact h.known key state hstate hheard

theorem Alike.size_eq (h : Alike s t) : t.sources.size = s.heard := by
  have hkeys : t.sources.keys.Perm
      ((s.sources.entries.filter fun e => e.2.hasState).map Prod.fst) := by
    have hnodup : ((s.sources.entries.filter fun e => e.2.hasState).map Prod.fst).Nodup :=
      s.sources.nodup_keys.sublist (List.filter_sublist.map Prod.fst)
    refine (List.perm_ext_iff_of_nodup t.sources.nodup_keys hnodup).mpr fun key => ?_
    have hmem : key ∈ t.sources.keys ↔ t.sources.contains key = true := by
      rw [OrdMap.contains, ← not_iff_not, Bool.not_eq_true, Option.isSome_eq_false_iff,
        Option.isNone_iff_eq_none, OrdMap.find?_eq_none_iff_keys]
    rw [hmem, h.contains_iff]
    simp only [List.mem_map, List.mem_filter, OrdMap.find?_eq_some_iff]
    constructor
    · rintro ⟨state, hstate, hheard⟩
      exact ⟨(key, state), ⟨hstate, hheard⟩, rfl⟩
    · rintro ⟨e, ⟨he, hheard⟩, rfl⟩
      exact ⟨e.2, he, hheard⟩
  have hlength := hkeys.length_eq
  rw [List.length_map, OrdMap.keys, List.length_map, ← List.countP_eq_length_filter] at hlength
  rw [OrdMap.size, hlength, EvidenceStore.heard, OrdMap.values, List.countP_map]
  rfl

theorem heard_le_size (s : EvidenceStore) : s.heard ≤ s.sources.size := by
  rw [OrdMap.size, ← List.length_map (f := Prod.snd)]
  exact List.countP_le_length

/-- With an entry of a source that was not heard, fewer were heard than there are entries. -/
theorem heard_lt_size {key : Name} {state : SourceFenceState}
    (h : s.sources.find? key = some state) (hstate : state.hasState = false) :
    s.heard < s.sources.size := by
  rw [OrdMap.size, ← List.length_map (f := Prod.snd)]
  refine lt_of_le_of_ne List.countP_le_length fun hall => ?_
  have hmem : state ∈ s.sources.values :=
    List.mem_map_of_mem (f := Prod.snd) (OrdMap.find?_eq_some_iff.mp h)
  have hheard := List.countP_eq_length.mp hall state hmem
  rw [hstate] at hheard
  cases hheard

/-- Unless the table is full of sources that were not heard, both stores have room for a source or
neither has. -/
theorem Alike.sourceRoom_iff (h : Alike s t) {key : Name}
    (hhonest : s.sources.contains key = false → s.limits.maxSources ≤ s.sources.size →
      s.limits.maxSources ≤ s.heard) : s.SourceRoom key ↔ t.SourceRoom key := by
  have hlimits := limits_of_core h.core
  have hbounded := h.bounded
  have hle := heard_le_size s
  unfold SourceRoom
  rw [h.size_eq, ← hlimits]
  cases hs : s.sources.contains key with
  | false =>
      have ht : t.sources.contains key = false := by
        rw [← Bool.not_eq_true, h.contains_iff]
        rintro ⟨state, hstate, -⟩
        rw [OrdMap.contains, hstate] at hs
        cases hs
      have hhonest := hhonest hs
      simp only [ht, Bool.false_eq_true, false_or]
      omega
  | true =>
      refine iff_of_true (Or.inl rfl) ?_
      obtain ⟨state, hstate⟩ := contains_iff_find?.mp hs
      cases hheard : state.hasState with
      | true => exact Or.inl (h.known key state hstate hheard)
      | false =>
          -- The entry of this source is one that the second store does not have.
          have hlt := heard_lt_size hstate hheard
          exact Or.inr (by omega)

theorem Alike.stats (h : Alike s t) (a b : StoreStats) :
    Alike { s with stats := a } { t with stats := b } :=
  ⟨h.core, h.states, h.heard, h.known, h.bounded⟩

end

/-! ### One call -/

section

variable {s t : EvidenceStore} {call : IngestCall}

theorem precheck_core (h : s.core = t.core) (call : IngestCall) :
    s.precheck call = t.precheck call := by
  unfold precheck
  rw [limits_of_core h]

/-- The checks in front of the lock, one after the other. -/
theorem ingestStep_checks (s : EvidenceStore) (call : IngestCall) :
    s.ingestStep call = match validateEvidence call.record s.limits with
      | .error e => (.error e, s.countInvalid)
      | .ok () => match call.subjectCheck with
        | .error e => (.error e, { s with stats := { s.stats with
            rejectedUnknownSubject := s.stats.rejectedUnknownSubject + 1 } })
        | .ok () => if call.policy.requireIncarnation && call.record.fence.incarnation == 0 then
            (.error (makeError .invalidArgument "evidence carries no source incarnation"
              call.record.provenance.source.str), s.countInvalid)
          else s.ingestLocked call.record call.now call.policy := rfl

/-- A call that fails a check changes only the statistics, and one that passes them goes on under
the lock. -/
theorem ingestStep_eq (s : EvidenceStore) (call : IngestCall) :
    (s.precheck call = .ok () →
      s.ingestStep call = s.ingestLocked call.record call.now call.policy) ∧
    ∀ e, s.precheck call = .error e →
      ∃ stats, s.ingestStep call = (.error e, { s with stats := stats }) := by
  unfold precheck
  rw [ingestStep_checks]
  cases validateEvidence call.record s.limits with
  | error e =>
      refine ⟨fun h => (by cases h), fun e' h => ?_⟩
      cases h
      exact ⟨_, rfl⟩
  | ok u =>
      cases call.subjectCheck with
      | error e =>
          refine ⟨fun h => (by cases h), fun e' h => ?_⟩
          cases h
          exact ⟨_, rfl⟩
      | ok u =>
          by_cases hincarnation : call.policy.requireIncarnation = true ∧
              call.record.fence.incarnation = 0
          · refine ⟨fun h => absurd hincarnation (failIf_eq_ok.mp h), fun e h => ?_⟩
            change failIf _ _ = .error e at h
            rw [failIf, if_pos hincarnation] at h
            cases h
            refine ⟨s.countInvalid.stats, ?_⟩
            dsimp only
            rw [if_pos (by simpa using hincarnation)]
            rfl
          · refine ⟨fun _ => ?_, fun e h => ?_⟩
            · dsimp only
              rw [if_neg (by simpa using hincarnation)]
            · change failIf _ _ = .error e at h
              rw [failIf, if_neg hincarnation] at h
              cases h

/-- The outcome as the fence leaves it. -/
def fencedOutcome (record : EvidenceRecord) (fence : FenceOutcome) : IngestOutcome :=
  { id := computeEvidenceId record
    fence := fence.decision
    detail := fence.detail
    livenessReset := fence.livenessReset
    sequenceGap := fence.sequenceGap }

section

variable (record : EvidenceRecord) (now : Timestamp) (policy : IngestPolicy)

theorem ingestLocked_refused (h : ¬ s.SourceRoom record.provenance.source.name) :
    s.ingestLocked record now policy = (.error (makeError .limitExceeded "source limit reached"
      record.provenance.source.name.str), s.countInvalid) := by
  unfold SourceRoom at h
  unfold ingestLocked
  dsimp only
  rw [if_pos]
  simpa [not_or] using h

theorem ingestLocked_room (h : s.SourceRoom record.provenance.source.name) :
    s.ingestLocked record now policy = if !(s.fenceOf record policy).accepted then
        (.ok (fencedOutcome record (s.fenceOf record policy)),
         { s with
           sources := s.sources.insert record.provenance.source.name
             { s.sourceState record.provenance.source.name with
               source := record.provenance.source
               rejected := (s.sourceState record.provenance.source.name).rejected + 1 }
           stats := { s.stats with rejectedFence := s.stats.rejectedFence + 1 } })
      else s.ingestAccepted record now policy (s.fenceOf record policy)
        (fencedOutcome record (s.fenceOf record policy)) := by
  have hopen : ¬ (!s.sources.contains record.provenance.source.name
      && decide (s.sources.size ≥ s.limits.maxSources)) = true := by
    unfold SourceRoom at h
    rcases h with h | h
    · simp [h]
    · simp [h]
  unfold ingestLocked
  dsimp only
  rw [if_neg hopen]
  rfl

end

theorem sourceState_updated (s : EvidenceStore) (m : OrdMap Name SourceFenceState) (key key' : Name)
    (state : SourceFenceState) (stats : StoreStats) :
    ({ s with sources := m.insert key state, stats := stats } : EvidenceStore).sourceState key'
      = if key' = key then state else (m.find? key').getD {} := by
  unfold sourceState
  rw [OrdMap.find?_insert]
  split <;> rfl

/-- A table with room stays within its bound when a source is written. -/
theorem size_insert_of_room {key : Name} {state : SourceFenceState}
    (hbounded : s.sources.size ≤ s.limits.maxSources) (hroom : s.SourceRoom key) :
    (s.sources.insert key state).size ≤ s.limits.maxSources := by
  rcases hroom with hroom | hroom
  · obtain ⟨known, hknown⟩ := contains_iff_find?.mp hroom
    rw [OrdMap.size_insert_of_some hknown]
    exact hbounded
  · exact (OrdMap.size_insert_le _ _ _).trans hroom

/-- The fence sees the same source in both stores. -/
theorem Alike.fenceOf_eq (h : Alike s t) (record : EvidenceRecord) (policy : IngestPolicy) :
    s.fenceOf record policy = t.fenceOf record policy :=
  evaluateFence_heardPart (h.states _) _ _ _

/-- A rejection writes a trace of itself into the first store only. -/
theorem Alike.reject (h : Alike s t) {source : SourceId} (hroom : s.SourceRoom source.name)
    (stats : StoreStats) :
    Alike { s with
      sources := s.sources.insert source.name
        { s.sourceState source.name with
          source := source, rejected := (s.sourceState source.name).rejected + 1 }
      stats := stats } t := by
  refine ⟨h.core, fun key => ?_, h.heard, fun key state hstate hheard => ?_,
    size_insert_of_room h.bounded hroom⟩
  · rw [sourceState_updated]
    split
    · rename_i heq
      rw [heq]
      exact h.states source.name
    · exact h.states key
  · rw [OrdMap.find?_insert] at hstate
    split at hstate
    · -- The entry was heard only if it was there before.
      rename_i heq
      cases hstate
      rw [heq]
      have hold : (s.sourceState source.name).hasState = true := hheard
      unfold sourceState at hold
      cases hfind : s.sources.find? source.name with
      | none =>
          rw [hfind] at hold
          cases hold
      | some old =>
          rw [hfind] at hold
          exact h.known _ old hfind hold
    · exact h.known key state hstate hheard

/-- An acceptance writes the same state into both stores. -/
theorem Alike.accept {s' t' : EvidenceStore} (h : Alike s t) {source : SourceId}
    (hroom : s.SourceRoom source.name) (hcore : s'.core = t'.core) (hs : s'.sources = s.sources)
    (ht : t'.sources = t.sources) (hlimits : s'.limits = s.limits)
    {a b : SourceFenceState} (hab : heardPart a = heardPart b) (ha : a.hasState = true)
    (stats stats' : StoreStats) :
    Alike { s' with sources := s'.sources.insert source.name a, stats := stats }
      { t' with sources := t'.sources.insert source.name b, stats := stats' } := by
  have hb : b.hasState = true := by
    have hstate : a.hasState = b.hasState := congrArg (·.hasState) hab
    rw [← hstate]
    exact ha
  -- The sources that either store knows, those the second one has heard of, and the bound.
  refine ⟨hcore, fun key => ?_, fun key state hstate => ?_, fun key state hstate hheard => ?_, ?_⟩
  · rw [sourceState_updated, sourceState_updated, hs, ht]
    split
    · exact hab
    · exact h.states key
  · change (t'.sources.insert source.name b).find? key = some state at hstate
    rw [ht, OrdMap.find?_insert] at hstate
    split at hstate
    · cases hstate
      exact hb
    · exact h.heard key state hstate
  · change (s'.sources.insert source.name a).find? key = some state at hstate
    show ((t'.sources.insert source.name b).find? key).isSome = true
    rw [hs, OrdMap.find?_insert] at hstate
    rw [ht, OrdMap.find?_insert]
    split at hstate
    · rename_i heq
      rw [if_pos heq]
      rfl
    · rename_i hne
      rw [if_neg hne]
      exact h.known key state hstate hheard
  · show (s'.sources.insert source.name a).size ≤ s'.limits.maxSources
    rw [hs, hlimits]
    exact size_insert_of_room h.bounded hroom

/-- Past the fence, both stores go the same way. -/
theorem Alike.ingestAccepted (h : Alike s t) {record : EvidenceRecord}
    (hroom : s.SourceRoom record.provenance.source.name) (now : Timestamp) (policy : IngestPolicy)
    (fence : FenceOutcome) (outcome : IngestOutcome) :
    (t.ingestAccepted record now policy fence outcome).1
        = (s.ingestAccepted record now policy fence outcome).1 ∧
      Alike (s.ingestAccepted record now policy fence outcome).2
        (t.ingestAccepted record now policy fence outcome).2 := by
  have hretired := retireOnReset_core h.core fence record.provenance.source.name
  unfold EvidenceStore.ingestAccepted
  dsimp only
  -- Admission reads what the stores have in common, so it fails in both or in none.
  rcases admitLocked_core hretired record false with ⟨e, hs, ht⟩ | ⟨n, s', t', hs, ht, hcore⟩
  · rw [hs, ht]
    refine ⟨rfl, hretired, ?_, ?_, ?_, ?_⟩
    · simpa [sourceState] using h.states
    · simpa using h.heard
    · simpa using h.known
    · simpa using h.bounded
  · rw [hs, ht]
    have hsources := admitLocked_sources hs
    have hsources' := admitLocked_sources ht
    have hlimits := admitLocked_limits hs
    rw [retireOnReset_sources] at hsources hsources'
    rw [retireOnReset_limits] at hlimits
    refine ⟨rfl, h.accept hroom hcore hsources hsources' hlimits ?_ rfl _ _⟩
    have hstates := h.states record.provenance.source.name
    have haccepted : (s'.sourceState record.provenance.source.name).accepted
        = (t'.sourceState record.provenance.source.name).accepted := by
      unfold sourceState at hstates ⊢
      rw [hsources, hsources']
      have hcount := congrArg SourceFenceState.accepted hstates
      exact hcount
    simp only [heardPart, haccepted]

/-- Rejected calls leave their traces in the first store, the other calls act on both alike. -/
theorem erases_ingestStep : Erases ingestStep fenceRejected RoomHonest Alike := by
  constructor
  · intro s t call h _ hrejected
    cases hcheck : s.precheck call with
    | error e =>
        obtain ⟨stats, hstep⟩ := (ingestStep_eq s call).2 e hcheck
        rw [hstep] at hrejected
        cases hrejected
    | ok u =>
        rw [(ingestStep_eq s call).1 hcheck] at hrejected ⊢
        -- Only a call that gets to the fence can be rejected there; without room it ends before.
        by_cases hroom : s.SourceRoom call.record.provenance.source.name
        · rw [ingestLocked_room _ _ _ hroom] at hrejected ⊢
          split
          · exact h.reject hroom _
          · rename_i haccepted
            rw [if_neg haccepted] at hrejected
            unfold EvidenceStore.ingestAccepted at hrejected
            dsimp only at hrejected
            split at hrejected <;> cases hrejected
        · rw [ingestLocked_refused _ _ _ hroom] at hrejected
          cases hrejected
  · intro s t call h hhonest hremains
    have hcheck' := precheck_core h.core call
    cases hcheck : s.precheck call with
    | error e =>
        obtain ⟨stats, hstep⟩ := (ingestStep_eq s call).2 e hcheck
        obtain ⟨stats', hstep'⟩ := (ingestStep_eq t call).2 e (hcheck' ▸ hcheck)
        rw [hstep, hstep']
        exact ⟨rfl, h.stats stats stats'⟩
    | ok u =>
        have hboth := h.sourceRoom_iff (hhonest hcheck)
        rw [(ingestStep_eq s call).1 hcheck] at hremains ⊢
        rw [(ingestStep_eq t call).1 (hcheck' ▸ hcheck)]
        by_cases hroom : s.SourceRoom call.record.provenance.source.name
        · rw [ingestLocked_room _ _ _ hroom] at hremains ⊢
          rw [ingestLocked_room _ _ _ (hboth.mp hroom), ← h.fenceOf_eq]
          split
          · rename_i hfenced
            rw [if_pos hfenced] at hremains
            cases hremains
          · exact h.ingestAccepted hroom _ _ _ _
        · rw [ingestLocked_refused _ _ _ hroom,
            ingestLocked_refused _ _ _ fun hroom' => hroom (hboth.mpr hroom')]
          exact ⟨rfl, h.stats _ _⟩

/-- A source that is refused because of traces of rejected calls is not refused without them. -/
theorem reply_ne_of_not_honest (h : Alike s t) (hnot : ¬ RoomHonest s call) :
    fenceRejected (s.ingestStep call).1 = false ∧
      (t.ingestStep call).1 ≠ (s.ingestStep call).1 := by
  simp only [RoomHonest, not_forall, not_le] at hnot
  obtain ⟨hcheck, hunknown, hfull, hheard⟩ := hnot
  have hroom : ¬ s.SourceRoom call.record.provenance.source.name := by
    unfold SourceRoom
    rw [hunknown]
    rintro (hroom | hroom)
    · cases hroom
    · omega
  have hroom' : t.SourceRoom call.record.provenance.source.name := by
    refine Or.inr ?_
    rw [h.size_eq, ← limits_of_core h.core]
    exact hheard
  rw [(ingestStep_eq s call).1 hcheck, ingestLocked_refused _ _ _ hroom,
    (ingestStep_eq t call).1 (precheck_core h.core call ▸ hcheck), ingestLocked_room _ _ _ hroom']
  refine ⟨rfl, ?_⟩
  split
  · intro heq
    cases heq
  · -- Past the fence an admission can fail, but not because of the number of sources.
    unfold EvidenceStore.ingestAccepted admitLocked
    dsimp only
    split
    · rename_i hadmission
      split at hadmission
      · cases hadmission
        intro heq
        cases heq
      · cases hadmission
    · intro heq
      cases heq

/-- In a run of `ingest` calls the rejected ones have no influence exactly when no unknown source
meets a table that is full, but not of sources that were heard. -/
theorem no_influence_iff (limits : Limits) (calls : List IngestCall) :
    NoInfluence limits calls ↔ Guarded ingestStep RoomHonest { limits := limits } calls := by
  have hinit : Alike { limits := limits } { limits := limits } :=
    ⟨rfl, fun _ => rfl, fun _ _ h => (by cases h), fun _ _ h => (by cases h), Nat.zero_le _⟩
  constructor
  · intro h
    exact erases_ingestStep.guarded (fun s t call => reply_ne_of_not_honest) hinit calls h.replies
  · intro hguarded
    obtain ⟨hreplies, hfinal⟩ := erases_ingestStep.run hinit calls hguarded
    refine ⟨hreplies, (records_of_core hfinal.core).symm, ?_⟩
    intro entry _ outcome _ _
    have hstates := (hfinal.states entry.1.record.provenance.source.name).symm
    exact ⟨congrArg (·.last) hstates, congrArg (·.hasState) hstates, congrArg (·.live) hstates⟩

end

/-- A drop observation of one packet on one link, under a policy that asks for measurements. -/
def dropCall (source : String) (authority : AuthorityLevel) : IngestCall where
  record :=
    { kind := .dropCount
      subject := .link (EntityId.unchecked (ascii "leaf1-up"))
      provenance := { source := EntityId.unchecked (ascii source), authority := authority }
      fence := { source := EntityId.unchecked (ascii source), boot := 1, incarnation := 1
                 sequence := 1 }
      observedAt := Timestamp.zero
      receivedAt := Timestamp.zero
      clock := .collectorWallClock
      value := { scalar := ⟨0x3FF0000000000000⟩, unit := .packets, semantics := .deltaCounter } }
  now := Timestamp.zero
  policy := { minimumAuthority := .measured }
  topology := none

/-- With room for one source, a source whose only observation was rejected keeps another one
out. -/
theorem rejected_source_takes_room :
    ({ maxSources := 1 } : Limits).validate = .ok () ∧
      ¬ NoInfluence { maxSources := 1 } [dropCall "a" .unknown, dropCall "b" .measured] := by
  refine ⟨by decide, fun h => ?_⟩
  have hreplies := congrArg (List.map fun entry => entry.2.isOk) h.replies
  revert hreplies
  decide +kernel

end EvidenceStore

end CongestionObservatory
