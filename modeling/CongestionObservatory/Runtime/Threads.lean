import CongestionObservatory.Lib.Sections
import CongestionObservatory.Runtime.Runtime

/-!
# `CongestionObservatory.Runtime.Threads`: the runtime under several threads

The threads of a process share one `Runtime` (`runtime/runtime.cpp`). Each component has a mutex of
its own, and the runtime never holds two of them at once. A `Section` is what a thread does under
one of the locks, or one access to the atomic shutdown flag. Each operation of the runtime is a
program of sections here, in the order of the source. What the source computes between two sections
it computes on copies.

The sections of the metrics are part of this model. `localize` and `causal_graph` read the graph
without a lock and are not, and neither is the worker pool. The snapshot files a `load` reads and
the polls of the cancellation token are given with the call.
-/

set_option autoImplicit false

namespace CongestionObservatory

open Lib

/-! ### The metrics -/

/-- The counters of `RuntimeMetrics` that the operations of this module bump. -/
structure RuntimeMetrics where
  ingested : Nat := 0
  ingestRejectedFence : Nat := 0
  ingestRejectedStale : Nat := 0
  ingestRejectedReplay : Nat := 0
  ingestRejectedAuthority : Nat := 0
  ingestRejectedInvalid : Nat := 0
  ingestRejectedUnknownSubject : Nat := 0
  evidenceEvicted : Nat := 0
  classifications : Nat := 0
  classifiableUnknownSubject : Nat := 0
  episodesOpened : Nat := 0
  episodesEscalated : Nat := 0
  episodesResolved : Nat := 0
  episodesExpired : Nat := 0
  maintenanceRuns : Nat := 0
  snapshotsLoaded : Nat := 0
  snapshotFailures : Nat := 0
  livenessResets : Nat := 0
  deriving DecidableEq

namespace RuntimeMetrics

/-- The counters of a record that the fence did not accept. -/
def countFence (m : RuntimeMetrics) : FenceDecision → RuntimeMetrics
  | .rejectedReplayedSequence => { m with ingestRejectedReplay := m.ingestRejectedReplay + 1 }
  | .rejectedStaleEpoch | .rejectedStaleGeneration | .rejectedStaleRevision
  | .rejectedStaleIncarnation | .rejectedIncomparableGeneration | .rejectedInconsistentBoot =>
    { m with ingestRejectedStale := m.ingestRejectedStale + 1 }
  | .rejectedAuthorityTooLow => { m with ingestRejectedAuthority := m.ingestRejectedAuthority + 1 }
  | _ => { m with ingestRejectedInvalid := m.ingestRejectedInvalid + 1 }

/-- The counters of `Runtime::ingest`. -/
def countIngest (m : RuntimeMetrics) : Result IngestOutcome → RuntimeMetrics
  | .error e =>
    if e.code = .notFound then
      { m with ingestRejectedUnknownSubject := m.ingestRejectedUnknownSubject + 1 }
    else { m with ingestRejectedInvalid := m.ingestRejectedInvalid + 1 }
  | .ok outcome =>
    if outcome.stored then
      { m with
        ingested := m.ingested + 1
        evidenceEvicted := m.evidenceEvicted + outcome.evicted
        livenessResets := m.livenessResets + if outcome.livenessReset then 1 else 0 }
    else { m with ingestRejectedFence := m.ingestRejectedFence + 1 }.countFence outcome.fence

/-- The counters of `evaluate`. -/
def countUpdate (m : RuntimeMetrics) : EpisodeUpdateKind → RuntimeMetrics
  | .opened => { m with episodesOpened := m.episodesOpened + 1 }
  | .escalated => { m with episodesEscalated := m.episodesEscalated + 1 }
  | .resolved => { m with episodesResolved := m.episodesResolved + 1 }
  | .expired => { m with episodesExpired := m.episodesExpired + 1 }
  | _ => m

end RuntimeMetrics

/-- What the threads share. -/
structure SharedRuntime where
  runtime : Runtime
  metrics : RuntimeMetrics := {}

namespace Runtime

/-! ### The sections -/

/-- A critical section. -/
inductive Section where
  | isShuttingDown
  | shutDown
  | currentTopology
  | replaceTopology (topology : Topology)
  | replaceGraph (graph : CausalGraph)
  | ingest (record : EvidenceRecord) (now : Timestamp) (topology : Topology)
  | ingestRecovered (record : EvidenceRecord)
  | query (query : EvidenceQuery)
  | sweep (horizon : Timestamp) (maxRecords : Nat) (token : CancellationToken)
  | resetLiveness
  | observe (assessment : CongestionAssessment) (now : Timestamp)
  | restore (episode : Episode)
  | advance (now : Timestamp) (token : CancellationToken)
  | countIngest (result : Result IngestOutcome)
  | countInvalid
  | countUnknownSubject
  | countClassification
  | countUpdate (kind : EpisodeUpdateKind)
  | countMaintenance
  | countFailure
  | countLoad

/-- What a section hands to its thread. -/
def Section.Answer : Section → Type
  | isShuttingDown => Bool
  | currentTopology => Topology
  | ingest _ _ _ | ingestRecovered _ => Result IngestOutcome
  | query _ => List EvidenceRecord
  | sweep _ _ _ => Result Nat
  | observe _ _ => Result EpisodeUpdate
  | restore _ => Status
  | advance _ _ => Result (List EpisodeUpdate)
  | _ => Unit

/-- The sections of the metrics. -/
def Section.count : Section → RuntimeMetrics → RuntimeMetrics
  | countIngest result, m => m.countIngest result
  | countInvalid, m => { m with ingestRejectedInvalid := m.ingestRejectedInvalid + 1 }
  | countUnknownSubject, m =>
    { m with classifiableUnknownSubject := m.classifiableUnknownSubject + 1 }
  | countClassification, m => { m with classifications := m.classifications + 1 }
  | countUpdate kind, m => m.countUpdate kind
  | countMaintenance, m => { m with maintenanceRuns := m.maintenanceRuns + 1 }
  | countFailure, m => { m with snapshotFailures := m.snapshotFailures + 1 }
  | countLoad, m =>
    { m with snapshotsLoaded := m.snapshotsLoaded + 1, livenessResets := m.livenessResets + 1 }
  | _, m => m

/-- What a section does to the components. -/
def performOn (move : SelfMove) : (k : Section) → Runtime → k.Answer × Runtime
  | .isShuttingDown, rt => (rt.shuttingDown, rt)
  | .shutDown, rt => ((), { rt with shuttingDown := true })
  | .currentTopology, rt => (rt.topology, rt)
  | .replaceTopology topology, rt => ((), { rt with topology := topology })
  | .replaceGraph graph, rt => ((), { rt with graph := graph })
  | .ingest record now topology, rt =>
    let (result, store) := rt.store.ingest record now rt.config.ingest (some topology)
    (result, { rt with store := store })
  | .ingestRecovered record, rt =>
    let (result, store) := rt.store.ingestRecovered record
    (result, { rt with store := store })
  | .query query, rt => (rt.store.query query, rt)
  | .sweep horizon maxRecords token, rt =>
    let (result, store) := rt.store.sweep move horizon maxRecords token
    (result, { rt with store := store })
  | .resetLiveness, rt => ((), { rt with store := rt.store.resetLiveness })
  | .observe assessment now, rt =>
    let (result, registry) := rt.registry.observe assessment rt.config.episode now
    (result, { rt with registry := registry })
  | .restore episode, rt =>
    let (status, registry) := rt.registry.restore episode
    (status, { rt with registry := registry })
  | .advance now token, rt =>
    let (result, registry) := rt.registry.advance now rt.config.episode token
    (result, { rt with registry := registry })
  | .countIngest _, rt | .countInvalid, rt | .countUnknownSubject, rt | .countClassification, rt
  | .countUpdate _, rt | .countMaintenance, rt | .countFailure, rt | .countLoad, rt => ((), rt)

/-- A section on what the threads share. -/
def perform (move : SelfMove) (k : Section) (s : SharedRuntime) : k.Answer × SharedRuntime :=
  ((performOn move k s.runtime).1,
    { runtime := (performOn move k s.runtime).2, metrics := k.count s.metrics })

/-! ### The operations -/

/-- An operation, as its thread goes through it. -/
abbrev Operation (α : Type) : Type := Program Section.Answer α

namespace Operation

/-- One section. -/
def enter (k : Section) : Operation k.Answer := Program.ask k

def isShuttingDown : Operation Bool := enter .isShuttingDown
def currentTopology : Operation Topology := enter .currentTopology
def query (query : EvidenceQuery) : Operation (List EvidenceRecord) := enter (.query query)
def storeIngest (record : EvidenceRecord) (now : Timestamp) (topology : Topology) :
    Operation (Result IngestOutcome) := enter (.ingest record now topology)
def storeRecovered (record : EvidenceRecord) : Operation (Result IngestOutcome) :=
  enter (.ingestRecovered record)
def sweep (horizon : Timestamp) (maxRecords : Nat) (token : CancellationToken) :
    Operation (Result Nat) := enter (.sweep horizon maxRecords token)
def observe (assessment : CongestionAssessment) (now : Timestamp) : Operation (Result EpisodeUpdate) :=
  enter (.observe assessment now)
def restore (episode : Episode) : Operation Status := enter (.restore episode)
def advance (now : Timestamp) (token : CancellationToken) : Operation (Result (List EpisodeUpdate)) :=
  enter (.advance now token)
/-- One section whose answer is not used. -/
def act (k : Section) : Operation Unit := do
  let _ ← enter k
  return ()

variable (config : RuntimeConfig)

/-- `Runtime::ingest`. -/
def ingest (record : EvidenceRecord) (now : Timestamp) : Operation (Result IngestOutcome) := do
  if ← isShuttingDown then
    return .error (makeError .shuttingDown "runtime is shutting down")
  let topology ← currentTopology
  let result ← storeIngest record now topology
  act (.countIngest result)
  return result

/-- `Runtime::ingest_recovered`. -/
def ingestRecovered (record : EvidenceRecord) : Operation (Result IngestOutcome) := do
  match ← storeRecovered record with
  | .error e =>
    act .countInvalid
    return .error e
  | .ok outcome => return .ok outcome

/-- `Runtime::rebuild_causal_graph`. -/
def rebuildCausalGraph : Operation Status := do
  let topology ← currentTopology
  let records ← query
    { windowStart := ⟨Int64.minValue⟩, windowEnd := ⟨Int64.maxValue⟩
      maxRecords := config.limits.maxWindowRecords }
  match linkEdges config.limits topology.generation (evidenceBySubject config.limits records) {}
      topology.structuralLinks with
  | .error e => return .error e
  | .ok graph =>
    act (.replaceGraph graph)
    return .ok ()

/-- The request of `classify_with`, under the topology it has read. -/
def requestUnder (topology : Topology) (subject : EvidenceSubject)
    (windowStart windowEnd now : Timestamp) : ClassificationRequest :=
  { subject := subject
    windowStart := windowStart
    windowEnd := windowEnd
    evaluatedAt := now
    generation := topology.generation
    tenant := tenantOf topology subject
    maxCitations := config.limits.maxCitations }

/-- `Runtime::classify_with`. -/
def classifyWith (subject : EvidenceSubject) (windowStart windowEnd now : Timestamp) :
    Operation (Result CongestionAssessment) := do
  let topology ← currentTopology
  if !topology.contains subject then
    act .countUnknownSubject
    return .error (makeError .notFound "subject is not part of the admitted topology" subject.str)
  let records ← query
    { subject := some subject, windowStart := windowStart, windowEnd := windowEnd
      maxRecords := config.limits.maxWindowRecords }
  let assessment := classifySubject Double (requestUnder config topology subject windowStart windowEnd now)
    (records.map some) config.classification
  act .countClassification
  return assessment

/-- `Runtime::classify`. -/
def classify (subject : EvidenceSubject) (window : Duration) (now : Timestamp) :
    Operation (Result CongestionAssessment) :=
  if window ≤ Duration.zero then
    pure (.error (makeError .invalidArgument "classification window must be positive"))
  else classifyWith config subject (now - window) now now

/-- `Runtime::evaluate`, with the update it writes out. -/
def evaluate (subject : EvidenceSubject) (window : Duration) (now : Timestamp) :
    Operation (Result (CongestionAssessment × EpisodeUpdate)) := do
  match ← classify config subject window now with
  | .error e => return .error e
  | .ok assessment =>
    match ← observe assessment now with
    | .error e => return .error e
    | .ok update =>
      act (.countUpdate update.kind)
      return .ok (assessment, update)

/-- `Runtime::admit_topology`. -/
def admitTopology (topology : Topology) : Operation Status := do
  act (.replaceTopology topology)
  rebuildCausalGraph config

/-- The loop of `load` over the episodes. -/
def restoreAll (stale : Nat) : List Episode → Operation (Result Nat)
  | [] => pure (.ok stale)
  | episode :: rest => do
    match ← restore episode with
    | .ok () => restoreAll stale rest
    | .error e => if e.code = .conflict then restoreAll (stale + 1) rest else return .error e

/-- The loop of `load` over the evidence. -/
def recoverAll : List EvidenceRecord → Operation Status
  | [] => pure (.ok ())
  | record :: rest => do
    match ← storeRecovered record with
    | .error e => return .error e
    | .ok _ => recoverAll rest

/-- The part of `load` after the content was read. -/
def apply (loaded : LoadReport) : Operation (Result LoadReport) := do
  act (.replaceTopology loaded.content.topology)
  match ← restoreAll 0 loaded.content.episodes with
  | .error e => return .error e
  | .ok stale =>
    match ← recoverAll loaded.content.evidence with
    | .error e => return .error e
    | .ok () =>
      act .resetLiveness
      match ← rebuildCausalGraph config with
      | .error e => return .error e
      | .ok () =>
        act .countLoad
        return .ok { loaded with notes := loaded.notes ++ staleNotes stale }

/-- `Runtime::load`. -/
def load (snapshotStore : Option SnapshotStore) (files : SnapshotFiles) :
    Operation (Result LoadReport) :=
  match snapshotStore with
  | none => pure (.error (makeError .unsupported "persistence is not configured"))
  | some snapshots => do
    let loaded := snapshots.load config.classification files
    if loaded.outcome = .loadedNothing then
      act .countFailure
      return .ok loaded
    apply config loaded

/-- `Runtime::run_maintenance`. -/
def runMaintenance (now : Timestamp) (advanceToken sweepToken : CancellationToken) :
    Operation (Result Nat) := do
  match ← advance now advanceToken with
  | .error e => return .error e
  | .ok updates =>
    act .countMaintenance
    match ← sweep (now - retentionHorizon config.classification) config.limits.maxWindowRecords
        sweepToken with
    | .error e => return .error e
    | .ok swept => return .ok (updates.length + swept)

end Operation

/-! ### The threads -/

/-- What a thread asks of the runtime: a call that changes it, or a classification. -/
inductive Request where
  | change (call : Call)
  | classify (subject : EvidenceSubject) (window : Duration) (now : Timestamp)

/-- What a thread gets. -/
inductive Response where
  | changed (reply : Reply)
  | classified (result : Result CongestionAssessment)

/-- A request at once. -/
def answer (move : SelfMove) (rt : Runtime) : Request → Response × Runtime
  | .change call => (.changed (rt.step move call).1, (rt.step move call).2)
  | .classify subject window now => (.classified (rt.classify subject window now), rt)

/-- The operation a request runs. -/
def operation (config : RuntimeConfig) (snapshotStore : Option SnapshotStore) :
    Request → Operation Response
  | .change (.ingest record now) => do return .changed (.admitted (← Operation.ingest record now))
  | .change (.ingestRecovered record) => do
    return .changed (.admitted (← Operation.ingestRecovered record))
  | .change (.load files) => do
    return .changed (.loaded (← Operation.load config snapshotStore files))
  | .change (.admitTopology topology) => do
    return .changed (.rebuilt (← Operation.admitTopology config topology))
  | .change .rebuildCausalGraph => do
    return .changed (.rebuilt (← Operation.rebuildCausalGraph config))
  | .change (.advanceEpisodes now token) => do
    return .changed (.advanced (← Operation.advance now token))
  | .change (.runMaintenance now advanceToken sweepToken) => do
    return .changed (.maintained (← Operation.runMaintenance config now advanceToken sweepToken))
  | .change (.evaluate subject window now) => do
    return .changed (.evaluated (← Operation.evaluate config subject window now))
  | .change .requestShutdown => do
    Operation.act .shutDown
    return .changed .done
  | .classify subject window now => do
    return .classified (← Operation.classify config subject window now)

/-- What the threads of a process do with a runtime: in each turn one of them starts an operation,
enters its next section or returns. -/
abbrev Threads (ι : Type) : Type :=
  Parties ι (Thread Section.Answer Request Response) SharedRuntime
    (ThreadEvent Section.Answer Request Response)

/-- A run of threads that share a runtime. -/
def runThreads {ι : Type} [DecidableEq ι] (move : SelfMove) (rt : Runtime)
    (turns : List (Turn ι (ThreadMove Request) Empty)) : Threads ι :=
  Thread.runAll (operation rt.config rt.snapshotStore) (perform move) { runtime := rt } turns

end Runtime

end CongestionObservatory
