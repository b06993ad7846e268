import CongestionObservatory.Assessment.Classify
import CongestionObservatory.Correlation.Group
import CongestionObservatory.Episode.Episode
import CongestionObservatory.Evidence.Store
import CongestionObservatory.Localization.Localize
import CongestionObservatory.Persistence.Store

/-!
# `CongestionObservatory.Runtime.Runtime`: the runtime facade

`Runtime` (`runtime/runtime.hpp`) owns the admitted topology, the evidence store, the episode
registry, the snapshot files and the causal graph. The runtime never holds two component locks at
once. A run is a list of calls, and each call acts on the components one after the other.

`load` applies a snapshot in this order: the topology, the episodes one by one, the evidence one by
one, the liveness of the sources and the causal graph. It returns at the first error and keeps what
it has applied. The metrics and the worker pool are not part of the model.
-/

set_option autoImplicit false

namespace CongestionObservatory

open Lib

/-- `RuntimeConfig`. -/
structure RuntimeConfig where
  limits : Limits := {}
  classification : ClassificationPolicy := {}
  correlation : CorrelationPolicy := {}
  localization : LocalizationPolicy := {}
  episode : EpisodePolicy := {}
  ingest : IngestPolicy := {}
  topology : Topology := {}
  stateDirectory : Text := []
  stateBasename : Text := ascii "congestion-observatory"
  startWorkers : Bool := false

/-- `Runtime`. -/
structure Runtime where
  config : RuntimeConfig
  topology : Topology
  store : EvidenceStore
  registry : EpisodeRegistry
  snapshotStore : Option SnapshotStore
  graph : CausalGraph := {}
  shuttingDown : Bool := false

/-! ### The causal graph -/

/-- A relation of the topology that becomes an edge when its first subject was observed. -/
structure StructuralLink where
  from_ : EvidenceSubject
  to_ : EvidenceSubject
  kind : CausalEdgeKind
  rule : String
  strength : UInt32

/-- The relations of a path: it runs over its hops, and each hop feeds the next one. -/
def Path.structuralLinks (path : Path) : List StructuralLink :=
  path.hops.map (fun hop =>
      { from_ := .path path.id, to_ := .link hop, kind := .pathMembership
        rule := "topology-path-membership", strength := 5 })
    ++ (path.hops.zip path.hops.tail).map (fun hop =>
      { from_ := .link hop.1, to_ := .link hop.2, kind := .pathMembership
        rule := "topology-path-upstream", strength := 4 })

/-- The relations of a topology, in the order `rebuild_causal_graph` visits them. -/
def Topology.structuralLinks (t : Topology) : List StructuralLink :=
  t.paths.values.flatMap Path.structuralLinks
    ++ t.queues.values.map (fun queue =>
      { from_ := .queue queue.id, to_ := .link queue.link, kind := .queueOnLink
        rule := "topology-queue-on-link", strength := 5 })
    ++ t.buffers.values.map (fun buffer =>
      { from_ := .buffer buffer.id, to_ := .port buffer.port, kind := .bufferOnPort
        rule := "topology-buffer-on-port", strength := 5 })
    ++ t.flows.values.map (fun flow =>
      { from_ := .flow flow.id, to_ := .path flow.path, kind := .flowOnPath
        rule := "topology-flow-on-path", strength := 5 })
    ++ t.links.values.flatMap (fun link =>
      [{ from_ := .link link.id, to_ := .port link.endpointA, kind := .topologyAdjacency
         rule := "topology-link-endpoint", strength := 3 },
       { from_ := .link link.id, to_ := .port link.endpointB, kind := .topologyAdjacency
         rule := "topology-link-endpoint", strength := 3 }])

/-- Whether a record reports the structure it is about. -/
def reportsStructure (record : EvidenceRecord) : Bool :=
  (record.kind == .topologyAdvertisement || record.kind == .operState
      || record.kind == .capacityAdvertisement)
    && record.support != .unsupported

/-- The observations that report each subject, at most `max_citations` of them. -/
def evidenceBySubject (limits : Limits) (records : List EvidenceRecord) :
    OrdMap Name (List EvidenceId) :=
  (records.filter reportsStructure).foldl (fun bySubject record =>
    let key := Name.unchecked record.subject.str
    let bucket := (bySubject.find? key).getD []
    bySubject.insert key
      (if bucket.length < limits.maxCitations then bucket ++ [record.id] else bucket))
    OrdMap.empty

/-- `link_edge`: without a citation there is no edge. -/
def linkEdge (limits : Limits) (generation : GenerationVector)
    (evidence : OrdMap Name (List EvidenceId)) (g : CausalGraph) (link : StructuralLink) :
    Status × CausalGraph :=
  let citations := (evidence.find? (Name.unchecked link.from_.str)).getD []
  if citations = [] then (.ok (), g)
  else g.addEdge
    { from_ := link.from_, to_ := link.to_, kind := link.kind, ruleId := ascii link.rule
      citations := citations, strength := link.strength, generation := generation } limits

/-- The loops of `rebuild_causal_graph`, which the first refused edge ends. -/
def linkEdges (limits : Limits) (generation : GenerationVector)
    (evidence : OrdMap Name (List EvidenceId)) :
    CausalGraph → List StructuralLink → Result CausalGraph
  | g, [] => .ok g
  | g, link :: rest =>
    match linkEdge limits generation evidence g link with
    | (.error e, _) => .error e
    | (.ok (), g) => linkEdges limits generation evidence g rest

/-- The causal graph of a topology, as far as the retained observations report it. -/
def causalGraphOf (limits : Limits) (topology : Topology) (store : EvidenceStore) :
    Result CausalGraph :=
  let records := store.query
    { windowStart := ⟨Int64.minValue⟩, windowEnd := ⟨Int64.maxValue⟩
      maxRecords := limits.maxWindowRecords }
  linkEdges limits topology.generation (evidenceBySubject limits records) {}
    topology.structuralLinks

/-! ### The loops of `load` -/

namespace EpisodeRegistry

/-- The loop of `load` over the episodes. A snapshot copy that is older than the live one is
skipped and counted, and any other error ends the loop. -/
def restoreAll (r : EpisodeRegistry) (stale : Nat) :
    List Episode → Result Nat × EpisodeRegistry
  | [] => (.ok stale, r)
  | episode :: rest =>
    match r.restore episode with
    | (.ok (), r) => restoreAll r stale rest
    | (.error e, r) =>
      if e.code = .conflict then restoreAll r (stale + 1) rest else (.error e, r)

end EpisodeRegistry

namespace EvidenceStore

/-- The loop of `load` over the evidence. -/
def recoverAll (s : EvidenceStore) : List EvidenceRecord → Status × EvidenceStore
  | [] => (.ok (), s)
  | record :: rest =>
    match s.ingestRecovered record with
    | (.error e, s) => (.error e, s)
    | (.ok _, s) => recoverAll s rest

end EvidenceStore

/-! ### The operations -/

namespace Runtime

/-- `Runtime::rebuild_causal_graph`. The old graph stays when an edge is refused. -/
def rebuildCausalGraph (rt : Runtime) : Status × Runtime :=
  match causalGraphOf rt.config.limits rt.topology rt.store with
  | .error e => (.error e, rt)
  | .ok graph => (.ok (), { rt with graph := graph })

/-- The checks of `create`. -/
def checkConfig (config : RuntimeConfig) : Status := do
  config.limits.validate
  config.classification.validate
  failIf (config.correlation.maxGroupMembers = 0)
    (makeError .invalidArgument "correlation group size must be positive")
  failIf (config.localization.maxDepth > config.limits.maxLocalizationDepth)
    (makeError .invalidArgument "localization depth exceeds the configured limit")
  failIf (config.limits.workerThreads > 0 ∧ config.limits.maxPendingTasks = 0)
    (makeError .invalidArgument "worker threads require a positive pending task bound")

/-- The state `create` builds before the first graph. Persistence is off without a directory. -/
def initial (config : RuntimeConfig) : Runtime :=
  { config := config
    topology := config.topology
    store := { limits := config.limits }
    registry := { limits := config.limits }
    snapshotStore :=
      if config.stateDirectory = [] then none
      else some { directory := config.stateDirectory, basename := config.stateBasename
                  limits := config.limits } }

/-- `Runtime::create`. -/
def create (config : RuntimeConfig) : Result Runtime := do
  checkConfig config
  let (status, rt) := (initial config).rebuildCausalGraph
  status
  failIf (config.startWorkers ∧ config.limits.workerThreads = 0)
    (makeError .unsupported "worker_threads is zero: this runtime runs synchronously")
  pure rt

/-- `Runtime::ingest`. -/
def ingest (rt : Runtime) (record : EvidenceRecord) (now : Timestamp) :
    Result IngestOutcome × Runtime :=
  if rt.shuttingDown then (.error (makeError .shuttingDown "runtime is shutting down"), rt)
  else
    let (result, store) := rt.store.ingest record now rt.config.ingest (some rt.topology)
    (result, { rt with store := store })

/-- `Runtime::ingest_recovered`. -/
def ingestRecovered (rt : Runtime) (record : EvidenceRecord) : Result IngestOutcome × Runtime :=
  let (result, store) := rt.store.ingestRecovered record
  (result, { rt with store := store })

/-- `Runtime::window_records`. -/
def windowRecords (rt : Runtime) (subject : EvidenceSubject) (start end_ : Timestamp) :
    List EvidenceRecord :=
  rt.store.query
    { subject := some subject, windowStart := start, windowEnd := end_
      maxRecords := rt.config.limits.maxWindowRecords }

/-- The tenant of a subject: that of a flow, or the tenant itself. -/
def tenantOf (t : Topology) : EvidenceSubject → TenantId
  | .flow id => ((t.flow id).map Flow.tenant).getD EntityId.default
  | .tenant id => id
  | _ => EntityId.default

/-- The request of `classify_with`. -/
def requestFor (rt : Runtime) (subject : EvidenceSubject) (windowStart windowEnd now : Timestamp) :
    ClassificationRequest :=
  { subject := subject
    windowStart := windowStart
    windowEnd := windowEnd
    evaluatedAt := now
    generation := rt.topology.generation
    tenant := tenantOf rt.topology subject
    maxCitations := rt.config.limits.maxCitations }

/-- `Runtime::classify_with`. -/
def classifyWith (rt : Runtime) (subject : EvidenceSubject) (windowStart windowEnd now : Timestamp) :
    Result CongestionAssessment :=
  if !rt.topology.contains subject then
    .error (makeError .notFound "subject is not part of the admitted topology" subject.str)
  else
    classifySubject Double (rt.requestFor subject windowStart windowEnd now)
      ((rt.windowRecords subject windowStart windowEnd).map some) rt.config.classification

/-- `Runtime::classify`. -/
def classify (rt : Runtime) (subject : EvidenceSubject) (window : Duration) (now : Timestamp) :
    Result CongestionAssessment :=
  if window ≤ Duration.zero then
    .error (makeError .invalidArgument "classification window must be positive")
  else rt.classifyWith subject (now - window) now now

/-- `Runtime::evaluate`, with the update it writes out. -/
def evaluate (rt : Runtime) (subject : EvidenceSubject) (window : Duration) (now : Timestamp) :
    Result (CongestionAssessment × EpisodeUpdate) × Runtime :=
  match rt.classify subject window now with
  | .error e => (.error e, rt)
  | .ok assessment =>
    match rt.registry.observe assessment rt.config.episode now with
    | (.error e, registry) => (.error e, { rt with registry := registry })
    | (.ok update, registry) => (.ok (assessment, update), { rt with registry := registry })

/-- `Runtime::admit_topology`. The topology stays when its graph cannot be built. -/
def admitTopology (rt : Runtime) (topology : Topology) : Status × Runtime :=
  { rt with topology := topology }.rebuildCausalGraph

/-- The note about the episodes that `load` skipped. -/
def staleNotes (stale : Nat) : List Text :=
  if stale > 0 then
    [decimal stale
      ++ ascii " episode(s) in the snapshot were older than the live state and were not applied"]
  else []

/-- The part of `load` after the content was read. -/
def apply (rt : Runtime) (loaded : LoadReport) : Result LoadReport × Runtime :=
  let rt := { rt with topology := loaded.content.topology }
  match rt.registry.restoreAll 0 loaded.content.episodes with
  | (.error e, registry) => (.error e, { rt with registry := registry })
  | (.ok stale, registry) =>
    let rt := { rt with registry := registry }
    match rt.store.recoverAll loaded.content.evidence with
    | (.error e, store) => (.error e, { rt with store := store })
    | (.ok (), store) =>
      match { rt with store := store.resetLiveness }.rebuildCausalGraph with
      | (.error e, rt) => (.error e, rt)
      | (.ok (), rt) => (.ok { loaded with notes := loaded.notes ++ staleNotes stale }, rt)

/-- `Runtime::load`. -/
def load (rt : Runtime) (files : SnapshotFiles) : Result LoadReport × Runtime :=
  match rt.snapshotStore with
  | none => (.error (makeError .unsupported "persistence is not configured"), rt)
  | some snapshots =>
    let loaded := snapshots.load rt.config.classification files
    if loaded.outcome = .loadedNothing then (.ok loaded, rt) else rt.apply loaded

/-- `Runtime::advance_episodes`. -/
def advanceEpisodes (rt : Runtime) (now : Timestamp) (token : CancellationToken) :
    Result (List EpisodeUpdate) × Runtime :=
  let (result, registry) := rt.registry.advance now rt.config.episode token
  (result, { rt with registry := registry })

/-- `retention_horizon`. -/
def retentionHorizon (policy : ClassificationPolicy) : Duration :=
  ⟨policy.freshness.staleWithin.nanos * 4⟩

/-- `Runtime::run_maintenance`. Both loops poll the token of the runtime. -/
def runMaintenance (rt : Runtime) (move : SelfMove) (now : Timestamp)
    (advanceToken sweepToken : CancellationToken) : Result Nat × Runtime :=
  match rt.registry.advance now rt.config.episode advanceToken with
  | (.error e, registry) => (.error e, { rt with registry := registry })
  | (.ok updates, registry) =>
    let rt := { rt with registry := registry }
    match rt.store.sweep move (now - retentionHorizon rt.config.classification)
      rt.config.limits.maxWindowRecords sweepToken with
    | (.error e, store) => (.error e, { rt with store := store })
    | (.ok swept, store) => (.ok (updates.length + swept), { rt with store := store })

/-! ### Runs -/

/-- A call that changes the runtime. -/
inductive Call where
  | ingest (record : EvidenceRecord) (now : Timestamp)
  | ingestRecovered (record : EvidenceRecord)
  | load (files : SnapshotFiles)
  | admitTopology (topology : Topology)
  | rebuildCausalGraph
  | advanceEpisodes (now : Timestamp) (token : CancellationToken)
  | runMaintenance (now : Timestamp) (advanceToken sweepToken : CancellationToken)
  | evaluate (subject : EvidenceSubject) (window : Duration) (now : Timestamp)
  | requestShutdown

/-- What a call returns. -/
inductive Reply where
  | admitted (result : Result IngestOutcome)
  | loaded (result : Result LoadReport)
  | rebuilt (status : Status)
  | advanced (result : Result (List EpisodeUpdate))
  | maintained (result : Result Nat)
  | evaluated (result : Result (CongestionAssessment × EpisodeUpdate))
  | done

/-- One call. -/
def step (move : SelfMove) (rt : Runtime) : Call → Reply × Runtime
  | .ingest record now =>
    let (result, rt) := rt.ingest record now
    (.admitted result, rt)
  | .ingestRecovered record =>
    let (result, rt) := rt.ingestRecovered record
    (.admitted result, rt)
  | .load files =>
    let (result, rt) := rt.load files
    (.loaded result, rt)
  | .admitTopology topology =>
    let (status, rt) := rt.admitTopology topology
    (.rebuilt status, rt)
  | .rebuildCausalGraph =>
    let (status, rt) := rt.rebuildCausalGraph
    (.rebuilt status, rt)
  | .advanceEpisodes now token =>
    let (result, rt) := rt.advanceEpisodes now token
    (.advanced result, rt)
  | .runMaintenance now advanceToken sweepToken =>
    let (result, rt) := rt.runMaintenance move now advanceToken sweepToken
    (.maintained result, rt)
  | .evaluate subject window now =>
    let (result, rt) := rt.evaluate subject window now
    (.evaluated result, rt)
  | .requestShutdown => (.done, { rt with shuttingDown := true })

end Runtime

end CongestionObservatory
