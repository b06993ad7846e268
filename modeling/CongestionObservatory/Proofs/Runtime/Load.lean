import CongestionObservatory.Proofs.Persistence.Reload
import CongestionObservatory.Proofs.Runtime.Graph
import CongestionObservatory.Proofs.Runtime.Restore

/-!
# `CongestionObservatory.Proofs.Runtime.Load`: loading a snapshot into a live runtime

Decoding a snapshot is all or nothing, but applying it is not: `load` replaces the topology first,
and a later episode, record or graph that is refused ends it with everything before in place.
`load_atomic_iff` says when a load is atomic all the same: nothing is refused, or what was applied
before the refusal was there already.

A second load finds the episodes of the first one and leaves them as they are. It admits the
evidence once more, though. `load_twice_iff` says that the second load changes nothing exactly when
the snapshot has no evidence.
-/

set_option autoImplicit false

namespace CongestionObservatory

open Lib

namespace Runtime

/-- What a load would apply: nothing without persistence or without a usable file. -/
def found (rt : Runtime) (files : SnapshotFiles) : Option LoadReport :=
  rt.snapshotStore.bind fun snapshots =>
    let loaded := snapshots.load rt.config.classification files
    if loaded.outcome = .loadedNothing then none else some loaded

theorem load_of_none {rt : Runtime} {files : SnapshotFiles} (h : rt.found files = none) :
    (rt.load files).2 = rt := by
  unfold found at h
  unfold load
  cases hstore : rt.snapshotStore with
  | none => rfl
  | some snapshots =>
      rw [hstore] at h
      simp only [Option.bind_some, ite_eq_left_iff, reduceCtorEq, imp_false, not_not] at h
      simp only [h, if_true]

theorem load_of_some {rt : Runtime} {files : SnapshotFiles} {loaded : LoadReport}
    (h : rt.found files = some loaded) : rt.load files = rt.apply loaded := by
  unfold found at h
  unfold load
  cases hstore : rt.snapshotStore with
  | none =>
      rw [hstore] at h
      cases h
  | some snapshots =>
      rw [hstore] at h
      simp only [Option.bind_some, Option.ite_none_left_eq_some, Option.some.injEq] at h
      obtain ⟨hsome, rfl⟩ := h
      simp only [hsome, if_false]

/-! ### All or nothing -/

/-- The topology, the episodes, the retained records, the source table and the causal graph are
what they were. -/
structure Unchanged (before after : Runtime) : Prop where
  topology : after.topology = before.topology
  episodes : after.registry.episodes = before.registry.episodes
  records : after.store.records = before.store.records
  sources : after.store.sources = before.store.sources
  graph : after.graph = before.graph

/-- A load that returns an error has changed nothing. -/
def LoadsAtomically (rt : Runtime) (files : SnapshotFiles) : Prop :=
  ∀ e, (rt.load files).1 = .error e → Unchanged rt (rt.load files).2

/-- The graph holds the relations of the topology that the store reports. -/
def GraphFits (limits : Limits) (topology : Topology) (store : EvidenceStore) : Prop :=
  GraphHolds limits (topology.reportedLinks limits (store.query (structureQuery limits)))

theorem graphFits_iff (limits : Limits) (topology : Topology) (store : EvidenceStore) :
    GraphFits limits topology store ↔ ∃ graph, causalGraphOf limits topology store = .ok graph :=
  (causalGraphOf_ok_iff limits topology store).symm

/-- Nothing of the content is refused: the episodes have identities and room, the records are valid
and have room for their sources, and the graph over the store with these records fits. -/
structure Applicable (rt : Runtime) (content : SnapshotContent) : Prop where
  episodes : rt.registry.Restorable content.episodes
  evidence : rt.store.Recoverable content.evidence
  graph : GraphFits rt.config.limits content.topology (rt.store.recoverAll content.evidence).2

/-- Something of the content is refused before anything new is applied: the topology is the
admitted one, and the registry holds the episodes before the refused one, or it holds all of them
and the first record is refused, or there is no record, no source is live and the graph does not
fit. -/
structure RefusedUntouched (rt : Runtime) (content : SnapshotContent) : Prop where
  topology : content.topology = rt.topology
  refused : (∃ before e after, content.episodes = before ++ e :: after ∧
      rt.registry.AlreadyHolds before ∧ rt.registry.Refuses e) ∨
    (rt.registry.AlreadyHolds content.episodes ∧
      ((∃ record rest, content.evidence = record :: rest ∧ rt.store.RefusesCleanly record) ∨
        (content.evidence = [] ∧ (∀ entry ∈ rt.store.sources.entries, entry.2.live = false) ∧
          ¬ GraphFits rt.config.limits rt.topology rt.store)))

/-- The condition on the runtime and the files under which a load is all or nothing. -/
def LoadFits (rt : Runtime) (files : SnapshotFiles) : Prop :=
  ∀ loaded, rt.found files = some loaded →
    Applicable rt loaded.content ∨ RefusedUntouched rt loaded.content

/-- Whether a registry refuses an episode depends on its episodes and its limits. -/
theorem refuses_congr {r r' : EpisodeRegistry} (hepisodes : r'.episodes = r.episodes)
    (hlimits : r'.limits = r.limits) (e : Episode) : r'.Refuses e ↔ r.Refuses e := by
  unfold EpisodeRegistry.Refuses
  rw [hepisodes, hlimits]

/-- The reset of the liveness changes nothing exactly when no source is live. -/
theorem resetLiveness_sources_eq_iff (s : EvidenceStore) :
    s.resetLiveness.sources = s.sources ↔ ∀ entry ∈ s.sources.entries, entry.2.live = false := by
  have hentries : s.resetLiveness.sources.entries
      = s.sources.entries.map fun entry => (entry.1, { entry.2 with live := false }) := rfl
  constructor
  · intro hsame entry hentry
    rw [← hsame, hentries] at hentry
    obtain ⟨old, -, rfl⟩ := List.mem_map.mp hentry
    rfl
  · intro hquiet
    refine OrdMap.eq_of_entries_eq ?_
    have hsame : s.sources.entries.map (fun entry => (entry.1, { entry.2 with live := false }))
        = s.sources.entries.map id := by
      refine List.map_congr_left fun entry hentry => ?_
      obtain ⟨key, state⟩ := entry
      have hlive : state.live = false := hquiet _ hentry
      show (key, { state with live := false }) = (key, state)
      rw [← hlive]
    rw [hentries, hsame, List.map_id]

section

variable {rt : Runtime} {loaded : LoadReport} {r : EpisodeRegistry} {s : EvidenceStore} {e : Error}
  {stale : Nat}

/-- A refused episode ends the load after the topology and the episodes before it. -/
theorem apply_of_restore_error
    (h : rt.registry.restoreAll 0 loaded.content.episodes = (.error e, r)) :
    rt.apply loaded
      = (.error e, { rt with topology := loaded.content.topology, registry := r }) := by
  simp only [apply, h]

/-- A refused record ends the load after the episodes and the records before it. -/
theorem apply_of_recover_error
    (h : rt.registry.restoreAll 0 loaded.content.episodes = (.ok stale, r))
    (h' : rt.store.recoverAll loaded.content.evidence = (.error e, s)) :
    rt.apply loaded = (.error e,
      { rt with topology := loaded.content.topology, registry := r, store := s }) := by
  simp only [apply, h, h']

/-- A graph that does not fit ends the load with only the old graph in place. -/
theorem apply_of_graph_error
    (h : rt.registry.restoreAll 0 loaded.content.episodes = (.ok stale, r))
    (h' : rt.store.recoverAll loaded.content.evidence = (.ok (), s))
    (h'' : causalGraphOf rt.config.limits loaded.content.topology s = .error e) :
    rt.apply loaded = (.error e, { rt with
      topology := loaded.content.topology, registry := r, store := s.resetLiveness }) := by
  have hreset : causalGraphOf rt.config.limits loaded.content.topology s.resetLiveness
      = .error e := h''
  simp only [apply, h, h', rebuildCausalGraph, hreset]

/-- Otherwise the content is applied. -/
theorem apply_of_graph {graph : CausalGraph}
    (h : rt.registry.restoreAll 0 loaded.content.episodes = (.ok stale, r))
    (h' : rt.store.recoverAll loaded.content.evidence = (.ok (), s))
    (h'' : causalGraphOf rt.config.limits loaded.content.topology s = .ok graph) :
    rt.apply loaded = (.ok { loaded with notes := loaded.notes ++ staleNotes stale }, { rt with
      topology := loaded.content.topology, registry := r, store := s.resetLiveness
      graph := graph }) := by
  have hreset : causalGraphOf rt.config.limits loaded.content.topology s.resetLiveness
      = .ok graph := h''
  simp only [apply, h, h', rebuildCausalGraph, hreset]

end

/-- Every retained record has a number below the next one. -/
def Numbered (s : EvidenceStore) : Prop :=
  ∀ r ∈ s.records, r.insertionIndex < s.nextInsertionIndex

/-- A store that recovered a record is not what it was. -/
theorem recoverAll_records_ne {s : EvidenceStore} (hnumbered : Numbered s) {record : EvidenceRecord}
    (h : ¬ s.Refuses record) (rest : List EvidenceRecord) :
    (s.recoverAll (record :: rest)).2.records ≠ s.records := by
  intro hsame
  obtain ⟨r, hr, hindex⟩ := EvidenceStore.recoverAll_grows h rest
  rw [hsame] at hr
  exact absurd (hnumbered r hr) (not_lt.mpr hindex)

/-- A refusal cleanly is a refusal. -/
theorem refuses_of_cleanly {s : EvidenceStore} {record : EvidenceRecord}
    (h : s.RefusesCleanly record) : s.Refuses record := by
  rcases h with h | h | ⟨h, -⟩
  · exact Or.inl h
  · exact Or.inr (Or.inl h)
  · exact Or.inr (Or.inr h)

/-- An atomic load meets the condition: each refusal is traced back to what it left. -/
theorem fits_of_atomic {rt : Runtime} (hnumbered : Numbered rt.store) {loaded : LoadReport}
    (h : ∀ e, (rt.apply loaded).1 = .error e → Unchanged rt (rt.apply loaded).2) :
    Applicable rt loaded.content ∨ RefusedUntouched rt loaded.content := by
  rcases EpisodeRegistry.restoreAll_cases rt.registry 0 loaded.content.episodes with
    ⟨hrestorable, stale, hok⟩ | ⟨-, ⟨e, herr⟩, before, episode, after, hsplit, hbefore, hsame,
      hrefuses⟩
  swap
  · right
    have hstop : rt.registry.restoreAll 0 loaded.content.episodes
        = (.error e, (rt.registry.restoreAll 0 loaded.content.episodes).2) := Prod.ext herr rfl
    have happly := apply_of_restore_error hstop
    have hun := h e (by rw [happly])
    rw [happly] at hun
    have hepisodes : (rt.registry.restoreAll 0 before).2.episodes = rt.registry.episodes :=
      hsame ▸ hun.episodes
    refine ⟨hun.topology, Or.inl ⟨before, episode, after, hsplit, ?_, ?_⟩⟩
    · exact (EpisodeRegistry.restoreAll_unchanged_iff hbefore 0).mp hepisodes
    · exact (refuses_congr hepisodes (EpisodeRegistry.restoreAll_limits _ _ _) episode).mp hrefuses
  have hrestored : rt.registry.restoreAll 0 loaded.content.episodes
      = (.ok stale, (rt.registry.restoreAll 0 loaded.content.episodes).2) := Prod.ext hok rfl
  have hholds := EpisodeRegistry.restoreAll_unchanged_iff hrestorable 0
  cases hrecover : rt.store.recoverAll loaded.content.evidence with
  | mk status s =>
      cases status with
      | error e =>
          right
          have happly := apply_of_recover_error hrestored hrecover
          have hun := h e (by rw [happly])
          rw [happly] at hun
          refine ⟨hun.topology, Or.inr ⟨hholds.mp hun.episodes, Or.inl ?_⟩⟩
          cases hevidence : loaded.content.evidence with
          | nil =>
              rw [hevidence] at hrecover
              cases hrecover
          | cons record rest =>
              rw [hevidence] at hrecover
              have hrefuses : rt.store.Refuses record := by
                by_contra hnot
                refine recoverAll_records_ne hnumbered hnot rest ?_
                rw [hrecover]
                exact hun.records
              obtain ⟨err, s', hstop, -, hclean⟩ := EvidenceStore.recoverAll_stops hrefuses rest
              rw [hrecover] at hstop
              cases hstop
              exact ⟨record, rest, rfl, hclean.mp hun.sources⟩
      | ok u =>
          have hrecoverable : rt.store.Recoverable loaded.content.evidence :=
            (EvidenceStore.recoverAll_ok_iff _ _).mp (by rw [hrecover])
          cases hgraph : causalGraphOf rt.config.limits loaded.content.topology s with
          | ok graph =>
              refine Or.inl ⟨hrestorable, hrecoverable, (graphFits_iff _ _ _).mpr ⟨graph, ?_⟩⟩
              rw [hrecover]
              exact hgraph
          | error e =>
              right
              have happly := apply_of_graph_error hrestored hrecover hgraph
              have hun := h e (by rw [happly])
              rw [happly] at hun
              refine ⟨hun.topology, Or.inr ⟨hholds.mp hun.episodes, Or.inr ?_⟩⟩
              cases hevidence : loaded.content.evidence with
              | cons record rest =>
                  -- An admitted record would have changed the store.
                  exfalso
                  rw [hevidence] at hrecover hrecoverable
                  have hnot : ¬ rt.store.Refuses record := by
                    intro hrefuses
                    obtain ⟨err, s', hstop, -⟩ := EvidenceStore.recoverAll_stops hrefuses rest
                    rw [hrecover] at hstop
                    cases hstop
                  refine recoverAll_records_ne hnumbered hnot rest ?_
                  rw [hrecover]
                  exact hun.records
              | nil =>
                  rw [hevidence] at hrecover
                  cases hrecover
                  refine ⟨rfl, (resetLiveness_sources_eq_iff _).mp hun.sources, ?_⟩
                  intro hholds
                  obtain ⟨graph, hfits⟩ := (graphFits_iff _ _ _).mp hholds
                  rw [← hun.topology, hgraph] at hfits
                  cases hfits

/-- A load that meets the condition is atomic. -/
theorem atomic_of_fits {rt : Runtime} {loaded : LoadReport}
    (h : Applicable rt loaded.content ∨ RefusedUntouched rt loaded.content) :
    ∀ e, (rt.apply loaded).1 = .error e → Unchanged rt (rt.apply loaded).2 := by
  intro e herr
  rcases h with ⟨hepisodes, hevidence, hfits⟩ | ⟨htopology, hrefused⟩
  · -- Nothing is refused, so there is no error.
    exfalso
    obtain ⟨graph, hgraph⟩ := (graphFits_iff _ _ _).mp hfits
    rcases EpisodeRegistry.restoreAll_cases rt.registry 0 loaded.content.episodes with
      ⟨-, stale, hok⟩ | ⟨hnot, -⟩
    · have hrecover := (EvidenceStore.recoverAll_ok_iff _ _).mpr hevidence
      rw [apply_of_graph (Prod.ext hok rfl) (Prod.ext hrecover rfl) hgraph] at herr
      cases herr
    · exact hnot hepisodes
  rcases hrefused with ⟨before, episode, after, hsplit, hholds, hrefuses⟩ | ⟨hholds, hrefused⟩
  · obtain ⟨stale, happend⟩ := EpisodeRegistry.restoreAll_append hholds.restorable 0
      (episode :: after)
    have hsame := (EpisodeRegistry.restoreAll_unchanged_iff hholds.restorable 0).mpr hholds
    have hrefuses' := (refuses_congr hsame (EpisodeRegistry.restoreAll_limits _ 0 before)
      episode).mpr hrefuses
    rcases EpisodeRegistry.restoreAll_cons (rt.registry.restoreAll 0 before).2 stale episode with
      ⟨-, err, hstop⟩ | ⟨htaken, -⟩
    · rw [← hsplit, hstop] at happend
      rw [apply_of_restore_error happend]
      exact ⟨htopology, hsame, rfl, rfl, rfl⟩
    · exact absurd hrefuses' htaken
  have hsame := (EpisodeRegistry.restoreAll_unchanged_iff hholds.restorable 0).mpr hholds
  rcases EpisodeRegistry.restoreAll_cases rt.registry 0 loaded.content.episodes with
    ⟨-, stale, hok⟩ | ⟨hnot, -⟩
  swap
  · exact absurd hholds.restorable hnot
  rcases hrefused with ⟨record, rest, hevidence, hclean⟩ | ⟨hevidence, hquiet, hgraph⟩
  · obtain ⟨err, s', hstop, hrecords, hsources⟩ :=
      EvidenceStore.recoverAll_stops (refuses_of_cleanly hclean) rest
    rw [← hevidence] at hstop
    rw [apply_of_recover_error (Prod.ext hok rfl) hstop]
    exact ⟨htopology, hsame, hrecords, hsources.mpr hclean, rfl⟩
  · have hrecover : rt.store.recoverAll loaded.content.evidence = (.ok (), rt.store) := by
      rw [hevidence]
      rfl
    cases hbuilt : causalGraphOf rt.config.limits loaded.content.topology rt.store with
    | ok graph =>
        rw [htopology] at hbuilt
        exact absurd ((graphFits_iff _ _ _).mpr ⟨graph, hbuilt⟩) hgraph
    | error err =>
        rw [apply_of_graph_error (Prod.ext hok rfl) hrecover hbuilt]
        exact ⟨htopology, hsame, rfl, (resetLiveness_sources_eq_iff _).mpr hquiet, rfl⟩

/-- The store of every run is coherent. -/
theorem storeInvariant_of_run {config : RuntimeConfig} {created : Runtime}
    (hcreate : create config = .ok created) (move : SelfMove) (calls : List Call) :
    EvidenceStore.StoreInvariant config.limits (run (step move) created calls).store := by
  obtain ⟨own, hstore, -⟩ := exists_store_calls hcreate move calls
  obtain ⟨hcheck, -⟩ := seq_eq_ok.mp hcreate
  obtain ⟨hlimits, -⟩ := seq_eq_ok.mp hcheck
  have hpos := Limits.pos_of_validate hlimits
  have hretained := hpos (config.limits.maxRetainedEvidence, "max_retained_evidence")
    (by simp [Limits.positives])
  have hsubject := hpos (config.limits.maxEvidencePerSubject, "max_evidence_per_subject")
    (by simp [Limits.positives])
  obtain ⟨hinv, -⟩ := EvidenceStore.storeInvariant_run hretained hsubject own _
    (EvidenceStore.storeInvariant_init config.limits)
  rw [hstore]
  exact hinv

/-- In every state of a runtime and for all snapshot files, a load is all or nothing exactly when
nothing of the snapshot is refused, or it is refused before anything new is applied. -/
theorem load_atomic_iff (config : RuntimeConfig) (created : Runtime)
    (hcreate : create config = .ok created) (move : SelfMove) (calls : List Call)
    (files : SnapshotFiles) :
    LoadsAtomically (run (step move) created calls) files ↔
      LoadFits (run (step move) created calls) files := by
  have hnumbered : Numbered (run (step move) created calls).store :=
    (storeInvariant_of_run hcreate move calls).representation.below_next
  generalize run (step move) created calls = rt at hnumbered ⊢
  unfold LoadsAtomically LoadFits
  cases hfound : rt.found files with
  | none =>
      rw [load_of_none hfound]
      exact iff_of_true (fun e _ => ⟨rfl, rfl, rfl, rfl, rfl⟩) fun loaded hloaded => by cases hloaded
  | some loaded =>
      rw [load_of_some hfound]
      constructor
      · intro hatomic loaded' hloaded
        cases hloaded
        exact fits_of_atomic hnumbered hatomic
      · intro hfits
        exact atomic_of_fits (hfits loaded rfl)

/-- A record of another source than the one of `tenantDrop`. -/
def otherDrop : EvidenceRecord :=
  let record : EvidenceRecord := linkObservation .dropCount
    { scalar := ⟨0x3FE0000000000000⟩, unit := .ratio } "agent2" 1
  { record with id := computeEvidenceId record }

/-- A snapshot of a topology of the first epoch and one record. -/
def oneRecordSnapshot (limits : Limits) : SnapshotFiles :=
  { primary := (encodeSnapshot { SnapshotStore.emptyContent with
      topology := { generation := { epoch := 1 } }, evidence := [otherDrop] } limits).toOption }

/-- A runtime with persistence and room for one source. -/
def oneSourceConfig : RuntimeConfig :=
  { limits := { maxSources := 1 }, stateDirectory := ascii "state" }

theorem create_oneSource : create oneSourceConfig = .ok (initial oneSourceConfig) :=
  create_eq_initial (by decide +kernel) rfl rfl

/-- The condition in a runtime that has heard of one source. -/
theorem load_atomic_iff_oneSource :
    create oneSourceConfig = .ok (initial oneSourceConfig) ∧
      (LoadsAtomically (run (step SelfMove.transfer) (initial oneSourceConfig)
          [.ingest tenantDrop ⟨1000000000⟩]) (oneRecordSnapshot { maxSources := 1 }) ↔
        LoadFits (run (step SelfMove.transfer) (initial oneSourceConfig)
          [.ingest tenantDrop ⟨1000000000⟩]) (oneRecordSnapshot { maxSources := 1 })) :=
  ⟨create_oneSource, load_atomic_iff oneSourceConfig _ create_oneSource _ _ _⟩

/-- There the record of the snapshot is refused, and the topology of the snapshot stays. -/
theorem refused_record_keeps_topology :
    create oneSourceConfig = .ok (initial oneSourceConfig) ∧
      ¬ LoadsAtomically (run (step SelfMove.transfer) (initial oneSourceConfig)
        [.ingest tenantDrop ⟨1000000000⟩]) (oneRecordSnapshot { maxSources := 1 }) := by
  refine ⟨create_oneSource, fun hatomic => ?_⟩
  obtain ⟨hfails, hchanged⟩ : ((run (step SelfMove.transfer) (initial oneSourceConfig)
      [.ingest tenantDrop ⟨1000000000⟩]).load (oneRecordSnapshot { maxSources := 1 })).1.isOk
        = false ∧
      ((run (step SelfMove.transfer) (initial oneSourceConfig)
        [.ingest tenantDrop ⟨1000000000⟩]).load (oneRecordSnapshot { maxSources := 1 })).2.topology
          ≠ (run (step SelfMove.transfer) (initial oneSourceConfig)
            [.ingest tenantDrop ⟨1000000000⟩]).topology := by
    decide +kernel
  cases hload : ((run (step SelfMove.transfer) (initial oneSourceConfig)
      [.ingest tenantDrop ⟨1000000000⟩]).load (oneRecordSnapshot { maxSources := 1 })).1 with
  | ok report =>
      rw [hload] at hfails
      cases hfails
  | error e => exact hchanged (hatomic e hload).topology

/-! ### Twice -/

/-- The record without the number its admission gave it. -/
def unnumbered (r : EvidenceRecord) : EvidenceRecord := { r with insertionIndex := 0 }

/-- The second runtime retains the records of the first, up to their numbers, and its episodes, and
it evicted none of the records. -/
structure SameContents (once twice : Runtime) : Prop where
  records : (twice.store.records.map unnumbered).Perm (once.store.records.map unnumbered)
  episodes : twice.registry.episodes = once.registry.episodes
  kept : ∀ r ∈ once.store.records, r ∈ twice.store.records

/-- A load that succeeds has applied everything. -/
theorem apply_ok {rt : Runtime} {loaded report : LoadReport}
    (h : (rt.apply loaded).1 = .ok report) :
    rt.registry.Restorable loaded.content.episodes ∧ rt.store.Recoverable loaded.content.evidence ∧
      (rt.apply loaded).2.registry = (rt.registry.restoreAll 0 loaded.content.episodes).2 ∧
      (rt.apply loaded).2.store = (rt.store.recoverAll loaded.content.evidence).2.resetLiveness ∧
      (rt.apply loaded).2.config = rt.config ∧
      (rt.apply loaded).2.snapshotStore = rt.snapshotStore := by
  rcases EpisodeRegistry.restoreAll_cases rt.registry 0 loaded.content.episodes with
    ⟨hrestorable, stale, hok⟩ | ⟨-, ⟨e, herr⟩, -⟩
  swap
  · rw [apply_of_restore_error (Prod.ext herr rfl)] at h
    cases h
  -- The phases come one after the other, and each of their errors would be the result.
  have hrestored : rt.registry.restoreAll 0 loaded.content.episodes
      = (.ok stale, (rt.registry.restoreAll 0 loaded.content.episodes).2) := Prod.ext hok rfl
  cases hrecover : rt.store.recoverAll loaded.content.evidence with
  | mk status s =>
      cases status with
      | error e =>
          rw [apply_of_recover_error hrestored hrecover] at h
          cases h
      | ok u =>
          have hrecoverable : rt.store.Recoverable loaded.content.evidence :=
            (EvidenceStore.recoverAll_ok_iff _ _).mp (by rw [hrecover])
          cases hgraph : causalGraphOf rt.config.limits loaded.content.topology s with
          | error e =>
              rw [apply_of_graph_error hrestored hrecover hgraph] at h
              cases h
          | ok graph =>
              rw [apply_of_graph hrestored hrecover hgraph]
              exact ⟨hrestorable, hrecoverable, rfl, rfl, rfl, rfl⟩

/-- The retained records of a coherent store have different numbers. -/
theorem nodup_records {s : EvidenceStore} {next : Nat} (h : s.Coherent next) : s.records.Nodup := by
  have hplaces : (EvidenceStore.placements s.bySubject.entries).map Prod.fst
      = s.records.map EvidenceRecord.insertionIndex := by
    simp only [EvidenceStore.placements, EvidenceStore.bucketPlacements, EvidenceStore.records,
      OrdMap.values, List.map_flatten, List.map_map, Function.comp_def,
      List.flatMap_def]
  have hkeys := (h.indexed.map Prod.fst).nodup_iff.mp s.insertionOrder.nodup_keys
  rw [hplaces] at hkeys
  exact List.Nodup.of_map _ hkeys

/-- A record more than the old ones makes the list longer. -/
theorem length_lt_of_new {α : Type} {l l' : List α} {a : α} (hl : l.Nodup) (hsub : l ⊆ l')
    (ha : a ∈ l') (hnew : a ∉ l) : l.length < l'.length := by
  have hsub' : a :: l ⊆ l' := List.cons_subset.mpr ⟨ha, hsub⟩
  have hle := (List.nodup_cons.mpr ⟨hnew, hl⟩).subperm hsub' |>.length_le
  exact hle

/-- Two loads of the same files that succeed leave the same as one exactly when the snapshot has no
evidence. -/
theorem load_twice_iff (config : RuntimeConfig) (created : Runtime)
    (hcreate : create config = .ok created) (move : SelfMove) (calls : List Call)
    (files : SnapshotFiles) (report report' : LoadReport)
    (hfirst : ((run (step move) created calls).load files).1 = .ok report)
    (hsecond : (((run (step move) created calls).load files).2.load files).1 = .ok report') :
    SameContents ((run (step move) created calls).load files).2
        (((run (step move) created calls).load files).2.load files).2 ↔
      ∀ loaded, (run (step move) created calls).found files = some loaded →
        loaded.content.evidence = [] := by
  have hinv := storeInvariant_of_run hcreate move (calls ++ [.load files])
  have honce : (run (step move) created (calls ++ [.load files]))
      = ((run (step move) created calls).load files).2 := by
    rw [run_append]
    rfl
  rw [honce] at hinv
  generalize run (step move) created calls = rt at hfirst hsecond hinv ⊢
  cases hfound : rt.found files with
  | none =>
      rw [load_of_none hfound, load_of_none hfound]
      exact iff_of_true ⟨List.Perm.refl _, rfl, fun r hr => hr⟩ fun loaded hloaded => by
        cases hloaded
  | some loaded =>
      rw [load_of_some hfound] at hfirst hsecond hinv ⊢
      obtain ⟨hrestorable, -, hregistry, hstore, hconfig, hsnapshots⟩ := apply_ok hfirst
      -- The second load finds the same content.
      have hfound' : (rt.apply loaded).2.found files = some loaded := by
        rw [← hfound]
        unfold found
        rw [hconfig, hsnapshots]
      rw [load_of_some hfound'] at hsecond ⊢
      obtain ⟨hrestorable', hrecoverable, hregistry', hstore', -⟩ := apply_ok hsecond
      have hepisodes : ((rt.apply loaded).2.apply loaded).2.registry.episodes
          = (rt.apply loaded).2.registry.episodes := by
        rw [hregistry', hregistry]
        rw [hregistry] at hrestorable'
        exact EpisodeRegistry.restoreAll_again hrestorable 0 0 hrestorable'
      constructor
      · intro hsame loaded' hloaded
        cases hloaded
        by_contra hne
        obtain ⟨record, rest, hevidence⟩ := List.exists_cons_of_ne_nil hne
        -- The records of the first load are kept, and the second one numbers another.
        have hnot : ¬ (rt.apply loaded).2.store.Refuses record := by
          intro hrefuses
          obtain ⟨err, s', hstop, -⟩ := EvidenceStore.recoverAll_stops hrefuses rest
          have hok := (EvidenceStore.recoverAll_ok_iff _ _).mpr hrecoverable
          rw [hevidence, hstop] at hok
          cases hok
        obtain ⟨r, hr, hindex⟩ := EvidenceStore.recoverAll_grows hnot rest
        have hmem : r ∈ ((rt.apply loaded).2.apply loaded).2.store.records := by
          rw [hstore', hevidence]
          exact hr
        have hnew : r ∉ (rt.apply loaded).2.store.records := fun hold =>
          absurd (hinv.representation.below_next r hold) (not_lt.mpr hindex)
        have hlt := length_lt_of_new (nodup_records hinv.coherent) hsame.kept hmem hnew
        have heq := hsame.records.length_eq
        rw [List.length_map, List.length_map] at heq
        omega
      · intro hnone
        have hevidence := hnone loaded rfl
        have hrecords : ((rt.apply loaded).2.apply loaded).2.store.records
            = (rt.apply loaded).2.store.records := by
          rw [hstore', hevidence]
          rfl
        refine ⟨?_, hepisodes, fun r hr => ?_⟩
        · rw [hrecords]
        · rw [hrecords]
          exact hr

/-- A runtime with persistence and the default limits. -/
def persistentConfig : RuntimeConfig := { stateDirectory := ascii "state" }

theorem create_persistent : create persistentConfig = .ok (initial persistentConfig) :=
  create_eq_initial (by decide +kernel) rfl rfl

/-- A record was heard, and its tenant was found congested. -/
def heardAndEvaluated : List Call :=
  [.ingest tenantDrop ⟨1000000000⟩,
    .evaluate tenantDrop.subject ⟨1000000000⟩ ⟨1000000000⟩]

/-- A snapshot of a topology and an episode, without evidence. -/
def quietSnapshot : SnapshotFiles :=
  { primary := (encodeSnapshot { SnapshotStore.furnishedContent with evidence := [] } {}).toOption }

/-- The runtime that heard the record. -/
def liveRuntime : Runtime :=
  run (step SelfMove.transfer) (initial persistentConfig) heardAndEvaluated

/-- The snapshot brings its topology and its episode to the record and the episode that are there,
and a second load changes nothing. -/
theorem load_twice_quiet :
    (liveRuntime.load quietSnapshot).2.store.records.length = 1 ∧
      (liveRuntime.load quietSnapshot).2.registry.episodes.size = 2 ∧
      (liveRuntime.load quietSnapshot).2.topology = SnapshotStore.furnishedTopology ∧
      SameContents (liveRuntime.load quietSnapshot).2
        ((liveRuntime.load quietSnapshot).2.load quietSnapshot).2 := by
  obtain ⟨hfirst, hsecond, hnone, hrecords, hepisodes, htopology⟩ :
      (liveRuntime.load quietSnapshot).1.isOk = true ∧
      ((liveRuntime.load quietSnapshot).2.load quietSnapshot).1.isOk = true ∧
      (liveRuntime.found quietSnapshot).all (fun loaded => loaded.content.evidence = []) = true ∧
      (liveRuntime.load quietSnapshot).2.store.records.length = 1 ∧
      (liveRuntime.load quietSnapshot).2.registry.episodes.size = 2 ∧
      (liveRuntime.load quietSnapshot).2.topology = SnapshotStore.furnishedTopology := by
    decide +kernel
  have hfirst := eq_ok_of_isOk hfirst {}
  have hsecond := eq_ok_of_isOk hsecond {}
  refine ⟨hrecords, hepisodes, htopology, (load_twice_iff persistentConfig _ create_persistent
    SelfMove.transfer heardAndEvaluated _ _ _ hfirst hsecond).mpr fun loaded hloaded => ?_⟩
  have hloaded' : liveRuntime.found quietSnapshot = some loaded := hloaded
  rw [hloaded'] at hnone
  exact of_decide_eq_true hnone

/-- With one record, the second load stores it once more. -/
theorem second_load_duplicates :
    create persistentConfig = .ok (initial persistentConfig) ∧
      ((initial persistentConfig).load (oneRecordSnapshot {})).1.isOk = true ∧
      (((initial persistentConfig).load (oneRecordSnapshot {})).2.load
        (oneRecordSnapshot {})).1.isOk = true ∧
      ¬ SameContents ((initial persistentConfig).load (oneRecordSnapshot {})).2
        (((initial persistentConfig).load (oneRecordSnapshot {})).2.load
          (oneRecordSnapshot {})).2 := by
  obtain ⟨hfirst, hsecond, honce, htwice⟩ :
      ((initial persistentConfig).load (oneRecordSnapshot {})).1.isOk = true ∧
      (((initial persistentConfig).load (oneRecordSnapshot {})).2.load
        (oneRecordSnapshot {})).1.isOk = true ∧
      ((initial persistentConfig).load (oneRecordSnapshot {})).2.store.records.length = 1 ∧
      (((initial persistentConfig).load (oneRecordSnapshot {})).2.load
        (oneRecordSnapshot {})).2.store.records.length = 2 := by
    decide +kernel
  refine ⟨create_persistent, hfirst, hsecond, fun hsame => ?_⟩
  have hlength := hsame.records.length_eq
  rw [List.length_map, List.length_map] at hlength
  omega

end Runtime

end CongestionObservatory
