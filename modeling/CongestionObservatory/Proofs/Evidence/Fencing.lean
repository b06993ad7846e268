import CongestionObservatory.Proofs.Evidence.Representation
import CongestionObservatory.Proofs.Model.Generation

/-!
# `CongestionObservatory.Proofs.Evidence.Fencing`: fencing over whole runs

The history of a run pairs each call with its reply. `acceptedRecords` lists the records that
`ingest` reported as stored, and `acceptedFences` the addresses of those from one source.

`FenceHistory` is the invariant: for every source, the accepted addresses supersede one
another in call order, and the fence table holds the last of them. `step_source_cases` says
what one call does to the table: it changes the fence state of a source only when it stores a
record of that source. `accepted_fences_strictly_ordered` is the result for every run.
-/

set_option autoImplicit false

namespace CongestionObservatory

open Lib

/-- Validation ties the fence to the source it is looked up under. -/
theorem validateEvidence_source {record : EvidenceRecord} {limits : Limits}
    (h : validateEvidence record limits = .ok ()) :
    record.fence.source = record.provenance.source := by
  unfold validateEvidence at h
  simp only [seq_eq_ok, failIf_eq_ok] at h
  obtain ⟨-, -, -, hsource, -⟩ := h
  exact not_not.mp hsource

namespace EvidenceStore

/-- The record a call stored, when `ingest` reported it as stored. -/
def acceptedRecord : Call × Reply → Option EvidenceRecord
  | (.ingest record _ _ _, .admitted (.ok outcome)) => if outcome.stored then some record else none
  | _ => none

/-- The records `ingest` accepted in a history, in call order. -/
def acceptedRecords (history : List (Call × Reply)) : List EvidenceRecord :=
  history.filterMap acceptedRecord

/-- The addresses accepted from one source, in call order. -/
def acceptedFences (source : SourceId) (history : List (Call × Reply)) : List FenceVector :=
  ((acceptedRecords history).filter (fun record => record.provenance.source = source)).map
    EvidenceRecord.fence

/-- The two states agree on what the fence reads. -/
def SameFence (a b : SourceFenceState) : Prop := a.hasState = b.hasState ∧ a.last = b.last

theorem SameFence.refl (a : SourceFenceState) : SameFence a a := ⟨rfl, rfl⟩

/-! ### One call -/

theorem sourceState_insert (s : EvidenceStore) (m : OrdMap Name SourceFenceState)
    (hm : s.sources = m) (key key' : Name) (state : SourceFenceState) :
    ((m.insert key state).find? key').getD {}
      = if key' = key then state else s.sourceState key' := by
  subst hm
  rw [OrdMap.find?_insert]
  split <;> rfl

theorem knowSource_sameFence (s : EvidenceStore) (source : SourceId) (key : Name) :
    SameFence ((s.knowSource source).sourceState key) (s.sourceState key) := by
  unfold knowSource sourceState
  rw [OrdMap.find?_emplace]
  split
  · rename_i heq
    rw [heq]
    cases s.sources.find? source.name with
    | none => exact ⟨rfl, rfl⟩
    | some state => exact SameFence.refl _
  · exact SameFence.refl _

theorem resetLiveness_sameFence (s : EvidenceStore) (key : Name) :
    SameFence (s.resetLiveness.sourceState key) (s.sourceState key) := by
  unfold resetLiveness sourceState
  rw [OrdMap.find?_mapValues]
  cases s.sources.find? key with
  | none => exact SameFence.refl _
  | some state => exact ⟨rfl, rfl⟩

/-- What one call does to the fence table: nothing, or it stores a record that the fence
accepted and the record's address becomes the last of its source. -/
theorem step_source_cases (s : EvidenceStore) (call : Call) :
    (acceptedRecord (call, (s.step call).1) = none ∧
      ∀ key, SameFence ((s.step call).2.sourceState key) (s.sourceState key)) ∨
    ∃ record now policy topology outcome, call = .ingest record now policy topology ∧
      (s.step call).1 = .admitted (.ok outcome) ∧
      acceptedRecord (call, (s.step call).1) = some record ∧
      record.fence.source = record.provenance.source ∧
      (s.fenceOf record policy).accepted = true ∧
      ((s.step call).2.sourceState record.provenance.source.name).hasState = true ∧
      ((s.step call).2.sourceState record.provenance.source.name).last = record.fence ∧
      ∀ key, key ≠ record.provenance.source.name →
        SameFence ((s.step call).2.sourceState key) (s.sourceState key) := by
  cases call with
  | ingest record now policy topology =>
      unfold step
      dsimp only
      have hcases := ingest_cases s record now policy topology
      generalize s.ingest record now policy topology = out at hcases
      cases hcases with
      | refused e stats => exact Or.inl ⟨rfl, fun key => SameFence.refl _⟩
      | fenced outcome stats state hvalid hroom hstored hstate hlast =>
          refine Or.inl ⟨by simp [acceptedRecord, hstored], fun key => ?_⟩
          show SameFence (((s.sources.insert _ state).find? key).getD {}) _
          rw [sourceState_insert s s.sources rfl]
          split
          · rename_i heq
            rw [heq]
            exact ⟨hstate, hlast⟩
          · exact SameFence.refl _
      | unadmitted e =>
          refine Or.inl ⟨rfl, fun key => ?_⟩
          show SameFence (((s.retireOnReset _ _).sources.find? key).getD {}) _
          rw [retireOnReset_sources]
          exact SameFence.refl _
      | stored outcome stats state s₁ hvalid hroom haccepted hadmission hstored hgap hdetail hstate
          hlast =>
          -- The admission and the retirement before it do not touch the table of sources. So the
          -- address of the record is all that is new in it.
          have hsources : s.sources = s₁.sources := by
            rw [admitLocked_sources hadmission, retireOnReset_sources]
          have hafter : ∀ key, ({ s₁ with
                sources := s₁.sources.insert record.provenance.source.name state
                stats := stats } : EvidenceStore).sourceState key
              = if key = record.provenance.source.name then state else s.sourceState key :=
            fun key => sourceState_insert s s₁.sources hsources _ key state
          refine Or.inr ⟨record, now, policy, topology, outcome, rfl, rfl, ?_,
            validateEvidence_source hvalid, haccepted, ?_, ?_, fun key hne => ?_⟩
          · simp [acceptedRecord, hstored]
          · rw [hafter, if_pos rfl]
            exact hstate
          · rw [hafter, if_pos rfl]
            exact hlast
          · rw [hafter, if_neg hne]
            exact SameFence.refl _
  | ingestRecovered record =>
      left
      unfold step
      dsimp only
      have hcases := ingestRecovered_cases s record
      generalize s.ingestRecovered record = out at hcases
      cases hcases with
      | refused e stats => exact ⟨rfl, fun key => SameFence.refl _⟩
      | unadmitted e hroom => exact ⟨rfl, fun key => knowSource_sameFence s _ key⟩
      | stored outcome s₁ hvalid hroom hadmission hstored =>
          refine ⟨rfl, fun key => ?_⟩
          -- Recovering a record makes its source known, without an address.
          have h := knowSource_sameFence s record.provenance.source key
          unfold sourceState at h ⊢
          rwa [admitLocked_sources hadmission]
  | sweep move horizon maxRecords token =>
      left
      refine ⟨rfl, fun key => ?_⟩
      show SameFence ((s.sweep move horizon maxRecords token).2.sourceState key) _
      rcases sweep_cases s move horizon maxRecords token with ⟨-, h⟩ | ⟨-, stats, h⟩
      · rw [h]
        exact SameFence.refl _
      · rw [h]
        exact SameFence.refl _
  | resetLiveness => exact Or.inl ⟨rfl, fun key => resetLiveness_sameFence s key⟩

/-! ### The invariant -/

/-- The fence state of a source after its last accepted address. -/
def Reached (state : SourceFenceState) : Option FenceVector → Prop
  | none => state.hasState = false
  | some f => state.hasState = true ∧ state.last = f

theorem Reached.of_sameFence {a b : SourceFenceState} {last : Option FenceVector}
    (h : SameFence a b) (hb : Reached b last) : Reached a last := by
  cases last with
  | none => exact h.1.trans hb
  | some f => exact ⟨h.1.trans hb.1, h.2.trans hb.2⟩

/-- The invariant of fencing over a history. -/
structure FenceHistory (history : List (Call × Reply)) (s : EvidenceStore) : Prop where
  ordered : ∀ source, (acceptedFences source history).Pairwise FenceVector.Supersedes
  reached : ∀ source : SourceId,
    Reached (s.sourceState source.name) (acceptedFences source history).getLast?
  addressed : ∀ record ∈ acceptedRecords history, record.fence.source = record.provenance.source

theorem acceptedRecords_append_none (history : List (Call × Reply)) {entry : Call × Reply}
    (h : acceptedRecord entry = none) :
    acceptedRecords (history ++ [entry]) = acceptedRecords history := by
  simp [acceptedRecords, List.filterMap_append, h]

theorem acceptedRecords_append_some (history : List (Call × Reply)) {entry : Call × Reply}
    {record : EvidenceRecord} (h : acceptedRecord entry = some record) :
    acceptedRecords (history ++ [entry]) = acceptedRecords history ++ [record] := by
  simp [acceptedRecords, List.filterMap_append, h]

/-- A later address at the end keeps a list of superseding addresses ordered. -/
theorem pairwise_append_of_getLast {l : List FenceVector} {f : FenceVector}
    (h : l.Pairwise FenceVector.Supersedes)
    (hlast : ∀ g, l.getLast? = some g → g.Supersedes f) :
    (l ++ [f]).Pairwise FenceVector.Supersedes := by
  rw [List.pairwise_append]
  refine ⟨h, List.pairwise_singleton _ _, fun a ha b hb => ?_⟩
  rw [List.mem_singleton.mp hb]
  -- Every earlier address is the last one, or is superseded by it.
  obtain ⟨init, g, rfl⟩ : ∃ init g, l = init ++ [g] :=
    ⟨_, _, (List.dropLast_append_getLast (List.ne_nil_of_mem ha)).symm⟩
  have hg : g.Supersedes f := hlast g (by simp)
  rcases List.mem_append.mp ha with ha | ha
  · exact ((List.pairwise_append.mp h).2.2 a ha g (List.mem_singleton_self g)).trans hg
  · rw [List.mem_singleton.mp ha]
    exact hg

theorem fenceHistory_init (limits : Limits) : FenceHistory [] { limits := limits } where
  ordered _ := List.Pairwise.nil
  reached _ := rfl
  addressed _ h := by simp [acceptedRecords] at h

/-- One call keeps the invariant. -/
theorem fenceHistory_step (history : List (Call × Reply)) (s : EvidenceStore) (call : Call)
    (h : FenceHistory history s) :
    FenceHistory (history ++ [(call, (s.step call).1)]) (s.step call).2 := by
  rcases step_source_cases s call with ⟨hnone, hsame⟩ | ⟨record, now, policy, topology, outcome,
    -, -, hsome, hsource, haccepted, hstate, hlast, hsame⟩
  · have hrecords := acceptedRecords_append_none history hnone
    refine ⟨fun source => ?_, fun source => ?_, fun r hr => ?_⟩
    · unfold acceptedFences
      rw [hrecords]
      exact h.ordered source
    · unfold acceptedFences
      rw [hrecords]
      exact (h.reached source).of_sameFence (hsame _)
    · rw [hrecords] at hr
      exact h.addressed r hr
  · have hrecords := acceptedRecords_append_some history hsome
    have hfences : ∀ source, acceptedFences source (history ++ [(call, (s.step call).1)])
        = if record.provenance.source = source then acceptedFences source history ++ [record.fence]
          else acceptedFences source history := by
      intro source
      unfold acceptedFences
      rw [hrecords]
      by_cases heq : record.provenance.source = source <;> simp [List.filter_append, heq]
    refine ⟨fun source => ?_, fun source => ?_, fun r hr => ?_⟩
    · rw [hfences]
      split
      · rename_i heq
        subst heq
        refine pairwise_append_of_getLast (h.ordered _) fun g hg => ?_
        -- The table holds the last accepted address, and the fence compared against it.
        have hreached := h.reached record.provenance.source
        rw [hg] at hreached
        have hsup := evaluateFence_supersedes hreached.1 haccepted
        rwa [hreached.2] at hsup
      · exact h.ordered source
    · rw [hfences]
      split
      · rename_i heq
        subst heq
        rw [List.getLast?_append_of_ne_nil _ (List.cons_ne_nil _ _)]
        exact ⟨hstate, hlast⟩
      · rename_i hne
        refine (h.reached source).of_sameFence (hsame _ fun heq => hne ?_)
        exact EntityId.name_injective heq.symm
    · rw [hrecords] at hr
      rcases List.mem_append.mp hr with hr | hr
      · exact h.addressed r hr
      · rw [List.mem_singleton.mp hr]
        exact hsource

/-- The invariant holds after every run from the empty store. -/
theorem fenceHistory_run (limits : Limits) (calls : List Call) :
    FenceHistory (trace step { limits := limits } calls) (run step { limits := limits } calls) :=
  history_induction step FenceHistory (fenceHistory_init limits)
    (fun h s i hP _ => fenceHistory_step h s i hP) calls (guarded_true _ _ calls)

theorem supersedes_ne {a b : FenceVector} (h : a.Supersedes b) : a ≠ b := by
  rintro rfl
  exact lt_irrefl _ h.1

/-- The addresses of all accepted records are pairwise distinct. -/
theorem FenceHistory.nodup_addresses {history : List (Call × Reply)} {s : EvidenceStore}
    (h : FenceHistory history s) :
    ((acceptedRecords history).map EvidenceRecord.fence).Nodup := by
  have hordered := h.ordered
  have haddressed := h.addressed
  unfold acceptedFences at hordered
  generalize acceptedRecords history = records at hordered haddressed ⊢
  induction records with
  | nil => exact List.Pairwise.nil
  | cons record rest ih =>
      rw [List.map_cons, List.nodup_cons]
      constructor
      · intro hmem
        obtain ⟨other, hother, heq⟩ := List.mem_map.mp hmem
        -- Equal addresses name the same source, where the addresses are ordered.
        have hsource : other.provenance.source = record.provenance.source := by
          rw [← haddressed other (List.mem_cons_of_mem _ hother),
            ← haddressed record List.mem_cons_self, heq]
        have hp := hordered record.provenance.source
        rw [List.filter_cons_of_pos (by simp), List.map_cons, List.pairwise_cons] at hp
        have hsup := hp.1 other.fence
          (List.mem_map.mpr ⟨other, List.mem_filter.mpr ⟨hother, by simpa using hsource⟩, rfl⟩)
        exact supersedes_ne hsup heq.symm
      · refine ih (fun source => ?_) fun r hr => haddressed r (List.mem_cons_of_mem _ hr)
        have hp := hordered source
        by_cases hs : record.provenance.source = source
        · rw [List.filter_cons_of_pos (by simpa using hs), List.map_cons] at hp
          exact (List.pairwise_cons.mp hp).2
        · rwa [List.filter_cons_of_neg (by simpa using hs)] at hp

/-- Fencing over whole runs from the empty store.

- The addresses accepted from a source are strictly increasing in the lexicographic order on
  boot, epoch, generation, revision and sequence, and the incarnation is constant within one
  boot.
- No two accepted observations share their source, boot, incarnation, generation vector and
  sequence.
- When an observation is accepted after the run in the same boot, epoch and generation as the last
  accepted one, the gap size the fence computes is the number of sequence numbers between the two.
  The reply flags a gap exactly when there are some, and its detail names their number.
- In every other case no gap is reported: for the first observation of a source, after a new boot,
  epoch or generation, and for an observation the fence does not accept. -/
theorem accepted_fences_strictly_ordered (limits : Limits) (calls : List Call) :
    (∀ source,
      (acceptedFences source (trace step { limits := limits } calls)).Pairwise fun a b =>
        a.order < b.order ∧ (a.boot = b.boot → a.incarnation = b.incarnation)) ∧
    ((acceptedRecords (trace step { limits := limits } calls)).map EvidenceRecord.fence).Nodup ∧
    ∀ record now policy topology outcome,
      ((run step { limits := limits } calls).ingest record now policy topology).1 = .ok outcome →
      let fence := (run step { limits := limits } calls).fenceOf record policy
      let previous := (acceptedFences record.provenance.source
        (trace step { limits := limits } calls)).getLast?
      (∀ last, outcome.stored = true → previous = some last → last.SameSequence record.fence →
        let skipped := (skippedSequences last record.fence).card
        last.sequence < record.fence.sequence ∧ fence.gapSize.toNat = skipped ∧
          outcome.sequenceGap = decide (0 < skipped) ∧
          (0 < skipped → outcome.detail
            = ascii "missing " ++ decimal skipped ++ ascii " sequence numbers")) ∧
      (outcome.stored = false ∨ (∀ last, previous = some last → ¬ last.SameSequence record.fence) →
        fence.gapSize = 0 ∧ outcome.sequenceGap = false) := by
  -- The last address of the table is the last one that was accepted, so the gap is measured from
  -- it.
  have hinv := fenceHistory_run limits calls
  refine ⟨hinv.ordered, hinv.nodup_addresses, ?_⟩
  intro record now policy topology outcome hresult
  have hreached := hinv.reached record.provenance.source
  generalize run step { limits := limits } calls = s at hresult hreached ⊢
  have hcases := ingest_cases s record now policy topology
  generalize s.ingest record now policy topology = out at hcases hresult
  cases hcases with
  | refused e stats => cases hresult
  | unadmitted e => cases hresult
  | fenced o stats state hvalid hroom hnot hstate hl hgap hrejected =>
      cases hresult
      refine ⟨fun last hstored => ?_, fun _ => ?_⟩
      · rw [hnot] at hstored
        cases hstored
      · rw [hgap]
        exact evaluateFence_noGap_of_rejected hrejected
  | stored o stats state s₁ hvalid hroom haccepted hadmission hstored hgap hdetail hstate hl =>
      cases hresult
      refine ⟨fun last _ hlast hsame => ?_, fun hother => ?_⟩
      · rw [hlast] at hreached
        obtain ⟨hstate', rfl⟩ := hreached
        obtain ⟨heq, hlt⟩ := evaluateFence_sameSequence hstate' haccepted hsame
        have hfence : s.fenceOf record policy = evaluateSequence record.fence
            (s.sourceState record.provenance.source.name).last := heq
        obtain ⟨hsize, hflag, hmissing⟩ := evaluateSequence_gapSize hlt
        dsimp only
        rw [hgap, hdetail, hfence]
        refine ⟨hlt, hsize, hflag, fun hpos => hmissing ?_⟩
        rw [hflag]
        exact decide_eq_true hpos
      · rw [hgap]
        have hrestart := hother.resolve_left (by simp [hstored])
        -- Nothing was accepted from the source, or its last address is of another sequence.
        cases hprevious : (acceptedFences record.provenance.source
            (trace step { limits := limits } calls)).getLast? with
        | none =>
            rw [hprevious] at hreached
            exact evaluateFence_noGap_of_first hreached
        | some last =>
            rw [hprevious] at hreached
            obtain ⟨hstate', rfl⟩ := hreached
            exact evaluateFence_noGap_of_restart hstate' haccepted (hrestart _ hprevious)

/-- The calls that ingest observation number 1 of a source. -/
def firstDrop : List Call := [.ingest (sampleDrop 1 ⟨10⟩) ⟨10⟩ {} none]

/-- The observations with the numbers 2 and 3 are missing: the reply to number 4 says so. -/
theorem accepted_fences_two_missing :
    ∃ outcome,
      ((run step { limits := {} } firstDrop).ingest (sampleDrop 4 ⟨20⟩) ⟨20⟩ {} none).1
        = .ok outcome ∧
      ((run step { limits := {} } firstDrop).fenceOf (sampleDrop 4 ⟨20⟩) {}).gapSize.toNat = 2 ∧
      outcome.sequenceGap = true ∧
      outcome.detail = ascii "missing 2 sequence numbers" := by
  have hstored : ((run step { limits := {} } firstDrop).ingest (sampleDrop 4 ⟨20⟩) ⟨20⟩ {}
      none).1.toOption.map IngestOutcome.stored = some true := by
    decide +kernel
  have hprevious : (acceptedFences (sampleDrop 4 ⟨20⟩).provenance.source
      (trace step { limits := {} } firstDrop)).getLast? = some (sampleDrop 1 ⟨10⟩).fence := by
    decide +kernel
  have hskipped : (skippedSequences (sampleDrop 1 ⟨10⟩).fence (sampleDrop 4 ⟨20⟩).fence).card = 2 :=
    by decide
  obtain ⟨-, -, hgaps⟩ := accepted_fences_strictly_ordered {} firstDrop
  cases hresult : ((run step { limits := {} } firstDrop).ingest (sampleDrop 4 ⟨20⟩) ⟨20⟩ {}
      none).1 with
  | error e =>
      rw [hresult] at hstored
      cases hstored
  | ok outcome =>
      rw [hresult] at hstored
      obtain ⟨-, hsize, hflag, hdetail⟩ := (hgaps _ _ _ _ outcome hresult).1 _
        (Option.some.inj hstored) hprevious ⟨rfl, rfl, rfl⟩
      rw [hskipped] at hsize hflag hdetail
      exact ⟨outcome, rfl, hsize, hflag, hdetail (by decide)⟩

end EvidenceStore

end CongestionObservatory
