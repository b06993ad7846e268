import CongestionObservatory.Proofs.Runtime.Soundness
import CongestionObservatory.Runtime.Threads

/-!
# `CongestionObservatory.Proofs.Runtime.Threads`: operations without interruption

Each operation, run through its sections at once, gives the reply of the `Runtime` function and
leaves the runtime that this function leaves. The metrics are what the sections add, so they are
quantified (`Does`). There is one lemma for each operation, and the loops of `load` go by induction
on the records. `operation_alone` is all of them.
-/

set_option autoImplicit false

namespace CongestionObservatory

open Lib

namespace Runtime

section

variable {move : SelfMove} (s : SharedRuntime)

/-! ### Without interruption -/

@[simp] theorem alone_isShuttingDown :
    Operation.isShuttingDown.alone (perform move) s = (s.runtime.shuttingDown, s) := rfl

@[simp] theorem alone_currentTopology :
    Operation.currentTopology.alone (perform move) s = (s.runtime.topology, s) := rfl

@[simp] theorem alone_query (query : EvidenceQuery) :
    (Operation.query query).alone (perform move) s = (s.runtime.store.query query, s) := rfl

@[simp] theorem alone_storeIngest (record : EvidenceRecord) (now : Timestamp) (topology : Topology) :
    (Operation.storeIngest record now topology).alone (perform move) s
      = ((s.runtime.store.ingest record now s.runtime.config.ingest (some topology)).1,
        { s with runtime := { s.runtime with
          store := (s.runtime.store.ingest record now s.runtime.config.ingest (some topology)).2 } }) :=
  rfl

@[simp] theorem alone_storeRecovered (record : EvidenceRecord) :
    (Operation.storeRecovered record).alone (perform move) s
      = ((s.runtime.store.ingestRecovered record).1,
        { s with runtime := { s.runtime with
          store := (s.runtime.store.ingestRecovered record).2 } }) := rfl

@[simp] theorem alone_sweep (horizon : Timestamp) (maxRecords : Nat) (token : CancellationToken) :
    (Operation.sweep horizon maxRecords token).alone (perform move) s
      = ((s.runtime.store.sweep move horizon maxRecords token).1,
        { s with runtime := { s.runtime with
          store := (s.runtime.store.sweep move horizon maxRecords token).2 } }) := rfl

@[simp] theorem alone_observe (assessment : CongestionAssessment) (now : Timestamp) :
    (Operation.observe assessment now).alone (perform move) s
      = ((s.runtime.registry.observe assessment s.runtime.config.episode now).1,
        { s with runtime := { s.runtime with
          registry := (s.runtime.registry.observe assessment s.runtime.config.episode now).2 } }) :=
  rfl

@[simp] theorem alone_restore (episode : Episode) :
    (Operation.restore episode).alone (perform move) s
      = ((s.runtime.registry.restore episode).1,
        { s with runtime := { s.runtime with
          registry := (s.runtime.registry.restore episode).2 } }) := rfl

@[simp] theorem alone_advance (now : Timestamp) (token : CancellationToken) :
    (Operation.advance now token).alone (perform move) s
      = ((s.runtime.registry.advance now s.runtime.config.episode token).1,
        { s with runtime := { s.runtime with
          registry := (s.runtime.registry.advance now s.runtime.config.episode token).2 } }) := rfl

@[simp] theorem alone_act (k : Section) :
    (Operation.act k).alone (perform move) s = ((), (perform move k s).2) := rfl

/-- A program without interruption gives the result, and leaves the runtime so. -/
def Does {α : Type} (move : SelfMove) (p : Operation α) (s : SharedRuntime) (result : α × Runtime) :
    Prop :=
  ∃ metrics, p.alone (perform move) s = (result.1, ⟨result.2, metrics⟩)

theorem does_ingest (record : EvidenceRecord) (now : Timestamp) :
    Does move (Operation.ingest record now) s (s.runtime.ingest record now) := by
  unfold Does Operation.ingest Runtime.ingest
  rw [Program.alone_bind, alone_isShuttingDown]
  by_cases hdown : s.runtime.shuttingDown = true
  · rw [if_pos hdown, if_pos hdown]
    exact ⟨_, rfl⟩
  · rw [if_neg hdown, if_neg hdown]
    exact ⟨_, rfl⟩

theorem does_ingestRecovered (record : EvidenceRecord) :
    Does move (Operation.ingestRecovered record) s (s.runtime.ingestRecovered record) := by
  unfold Does Operation.ingestRecovered Runtime.ingestRecovered
  simp only [Program.alone_bind, alone_storeRecovered]
  cases (s.runtime.store.ingestRecovered record).1 with
  | error e => exact ⟨_, rfl⟩
  | ok outcome => exact ⟨_, rfl⟩

theorem does_rebuildCausalGraph :
    Does move (Operation.rebuildCausalGraph s.runtime.config) s s.runtime.rebuildCausalGraph := by
  unfold Does Operation.rebuildCausalGraph Runtime.rebuildCausalGraph causalGraphOf
  simp only [Program.alone_bind, alone_currentTopology, alone_query]
  cases linkEdges s.runtime.config.limits s.runtime.topology.generation
      (evidenceBySubject s.runtime.config.limits (s.runtime.store.query
        { windowStart := ⟨Int64.minValue⟩, windowEnd := ⟨Int64.maxValue⟩
          maxRecords := s.runtime.config.limits.maxWindowRecords })) {}
      s.runtime.topology.structuralLinks with
  | error e => exact ⟨_, rfl⟩
  | ok graph => exact ⟨_, rfl⟩

theorem does_classify (subject : EvidenceSubject) (window : Duration) (now : Timestamp) :
    Does move (Operation.classify s.runtime.config subject window now) s
      (s.runtime.classify subject window now, s.runtime) := by
  unfold Does Operation.classify Runtime.classify
  split
  · exact ⟨_, rfl⟩
  · unfold Operation.classifyWith Runtime.classifyWith
    rw [Program.alone_bind, alone_currentTopology]
    by_cases hunknown : (!s.runtime.topology.contains subject) = true
    · rw [if_pos hunknown, if_pos hunknown]
      exact ⟨_, rfl⟩
    · rw [if_neg hunknown, if_neg hunknown]
      exact ⟨_, rfl⟩

theorem does_evaluate (subject : EvidenceSubject) (window : Duration) (now : Timestamp) :
    Does move (Operation.evaluate s.runtime.config subject window now) s
      (s.runtime.evaluate subject window now) := by
  obtain ⟨metrics, hclassify⟩ := @does_classify move s subject window now
  unfold Does Operation.evaluate Runtime.evaluate
  simp only [Program.alone_bind, hclassify]
  cases s.runtime.classify subject window now with
  | error e => exact ⟨_, rfl⟩
  | ok assessment =>
      simp only [Program.alone_bind, alone_observe]
      rcases s.runtime.registry.observe assessment s.runtime.config.episode now with ⟨result, registry⟩
      cases result with
      | error e => exact ⟨_, rfl⟩
      | ok update => exact ⟨_, rfl⟩

theorem does_restoreAll (episodes : List Episode) (stale : Nat) :
    Does move (Operation.restoreAll stale episodes) s
      ((s.runtime.registry.restoreAll stale episodes).1,
        { s.runtime with registry := (s.runtime.registry.restoreAll stale episodes).2 }) := by
  induction episodes generalizing s stale with
  | nil => exact ⟨_, rfl⟩
  | cons episode rest ih =>
      unfold Does Operation.restoreAll EpisodeRegistry.restoreAll
      simp only [Program.alone_bind, alone_restore]
      rcases s.runtime.registry.restore episode with ⟨status, registry⟩
      cases status with
      | ok => exact ih { s with runtime := { s.runtime with registry := registry } } stale
      | error e =>
          by_cases hconflict : e.code = .conflict
          · dsimp only
            rw [if_pos hconflict, if_pos hconflict]
            exact ih { s with runtime := { s.runtime with registry := registry } } (stale + 1)
          · dsimp only
            rw [if_neg hconflict, if_neg hconflict]
            exact ⟨_, rfl⟩

theorem does_recoverAll (records : List EvidenceRecord) :
    Does move (Operation.recoverAll records) s
      ((s.runtime.store.recoverAll records).1,
        { s.runtime with store := (s.runtime.store.recoverAll records).2 }) := by
  induction records generalizing s with
  | nil => exact ⟨_, rfl⟩
  | cons record rest ih =>
      unfold Does Operation.recoverAll EvidenceStore.recoverAll
      simp only [Program.alone_bind, alone_storeRecovered]
      rcases s.runtime.store.ingestRecovered record with ⟨result, store⟩
      cases result with
      | error e => exact ⟨_, rfl⟩
      | ok outcome => exact ih { s with runtime := { s.runtime with store := store } }

theorem does_admitTopology (topology : Topology) :
    Does move (Operation.admitTopology s.runtime.config topology) s
      (s.runtime.admitTopology topology) :=
  @does_rebuildCausalGraph move { s with runtime := { s.runtime with topology := topology } }

theorem does_apply (loaded : LoadReport) :
    Does move (Operation.apply s.runtime.config loaded) s (s.runtime.apply loaded) := by
  obtain ⟨metrics, hrestore⟩ := @does_restoreAll move
    { s with runtime := { s.runtime with topology := loaded.content.topology } }
    loaded.content.episodes 0
  unfold Does Operation.apply Runtime.apply
  have hreplace : (perform move (.replaceTopology loaded.content.topology) s).2
      = { s with runtime := { s.runtime with topology := loaded.content.topology } } := rfl
  simp only [Program.alone_bind, alone_act, hreplace, hrestore]
  rcases s.runtime.registry.restoreAll 0 loaded.content.episodes with ⟨result, registry⟩
  cases result with
  | error e => exact ⟨_, rfl⟩
  | ok stale =>
      obtain ⟨metrics', hrecover⟩ := @does_recoverAll move
        ⟨{ s.runtime with topology := loaded.content.topology, registry := registry }, metrics⟩
        loaded.content.evidence
      simp only [Program.alone_bind, hrecover]
      rcases s.runtime.store.recoverAll loaded.content.evidence with ⟨status, store⟩
      cases status with
      | error e => exact ⟨_, rfl⟩
      | ok =>
          obtain ⟨metrics'', hrebuild⟩ := @does_rebuildCausalGraph move
            ⟨{ s.runtime with
                topology := loaded.content.topology, registry := registry
                store := store.resetLiveness }, metrics'⟩
          have hreset : (perform move .resetLiveness
              ⟨{ s.runtime with
                topology := loaded.content.topology, registry := registry, store := store }, metrics'⟩).2
              = ⟨{ s.runtime with
                topology := loaded.content.topology, registry := registry
                store := store.resetLiveness }, metrics'⟩ := rfl
          simp only [Program.alone_bind, alone_act, hreset, hrebuild]
          rcases Runtime.rebuildCausalGraph _ with ⟨rebuilt, rt⟩
          cases rebuilt with
          | error e => exact ⟨_, rfl⟩
          | ok => exact ⟨_, rfl⟩

theorem does_load (files : SnapshotFiles) :
    Does move (Operation.load s.runtime.config s.runtime.snapshotStore files) s
      (s.runtime.load files) := by
  unfold Operation.load Runtime.load
  cases s.runtime.snapshotStore with
  | none => exact ⟨_, rfl⟩
  | some snapshots =>
      dsimp only
      by_cases hnothing :
          (snapshots.load s.runtime.config.classification files).outcome = .loadedNothing
      · rw [if_pos hnothing, if_pos hnothing]
        exact ⟨_, rfl⟩
      · rw [if_neg hnothing, if_neg hnothing]
        exact does_apply s _

theorem does_advanceEpisodes (now : Timestamp) (token : CancellationToken) :
    Does move (Operation.advance now token) s (s.runtime.advanceEpisodes now token) :=
  ⟨_, rfl⟩

theorem does_runMaintenance (now : Timestamp) (advanceToken sweepToken : CancellationToken) :
    Does move (Operation.runMaintenance s.runtime.config now advanceToken sweepToken) s
      (s.runtime.runMaintenance move now advanceToken sweepToken) := by
  unfold Does Operation.runMaintenance Runtime.runMaintenance
  simp only [Program.alone_bind, alone_advance]
  rcases s.runtime.registry.advance now s.runtime.config.episode advanceToken with ⟨result, registry⟩
  cases result with
  | error e => exact ⟨_, rfl⟩
  | ok updates =>
      simp only [Program.alone_bind, alone_act, alone_sweep]
      have hcount : ∀ s : SharedRuntime, (perform move .countMaintenance s).2.runtime = s.runtime :=
        fun _ => rfl
      simp only [hcount]
      rcases s.runtime.store.sweep move _ _ sweepToken with ⟨swept, store⟩
      cases swept with
      | error e => exact ⟨_, rfl⟩
      | ok swept => exact ⟨_, rfl⟩

/-- **An operation that is not interrupted is the call of the runtime.** -/
theorem operation_alone (request : Request) :
    ∃ metrics, (operation s.runtime.config s.runtime.snapshotStore request).alone (perform move) s
      = ((s.runtime.answer move request).1, ⟨(s.runtime.answer move request).2, metrics⟩) := by
  have hreturn : ∀ {α : Type} {p : Operation α} {result : α × Runtime} (f : α → Response),
      Does move p s result →
      ∃ metrics, (p >>= fun a => pure (f a)).alone (perform move) s
        = (f result.1, ⟨result.2, metrics⟩) := by
    rintro α p result f ⟨metrics, h⟩
    refine ⟨metrics, ?_⟩
    rw [Program.alone_bind, h]
    rfl
  cases request with
  | classify subject window now => exact hreturn _ (does_classify s subject window now)
  | change call =>
      cases call with
      | ingest record now => exact hreturn _ (does_ingest s record now)
      | ingestRecovered record => exact hreturn _ (does_ingestRecovered s record)
      | load files => exact hreturn _ (does_load s files)
      | admitTopology topology => exact hreturn _ (does_admitTopology s topology)
      | rebuildCausalGraph => exact hreturn _ (does_rebuildCausalGraph s)
      | advanceEpisodes now token => exact hreturn _ (does_advanceEpisodes s now token)
      | runMaintenance now advanceToken sweepToken =>
          exact hreturn _ (does_runMaintenance s now advanceToken sweepToken)
      | evaluate subject window now => exact hreturn _ (does_evaluate s subject window now)
      | requestShutdown => exact ⟨_, rfl⟩

end

end Runtime

end CongestionObservatory
