import CongestionObservatory.Lib.Run
import CongestionObservatory.Proofs.Model.Topology

/-!
# `CongestionObservatory.Proofs.Model.Bounds`: which bounds a built topology keeps

A builder checks its own limits whenever an object is added, and `build` checks the limits it is
given. The two may differ. `build` looks at the seven counts of objects only. The labels of a node,
the hops of a path and the ports of a node were compared with the builder's limits at the time.

`build_bounded_iff` traces all ten bounds through a sequence of calls: the topology is within the
limits given to `build` exactly when the objects that were added are.
-/

set_option autoImplicit false

namespace CongestionObservatory

open Lib

/-- A call of a builder's public operation. -/
inductive BuilderCall where
  | setGeneration (generation : GenerationVector)
  | setRevisionLabel (label : Name)
  | setLimits (limits : Limits)
  | addNode (node : Node)
  | addPort (port : Port)
  | addLink (link : Link)
  | addQueue (queue : Queue)
  | addBuffer (buffer : Buffer)
  | addPath (path : Path)
  | addFlow (flow : Flow)
  deriving DecidableEq

namespace TopologyBuilder

/-- The builder after a call that succeeds. -/
def apply (b : TopologyBuilder) : BuilderCall → Result TopologyBuilder
  | .setGeneration generation => .ok { b with generation := generation }
  | .setRevisionLabel label => .ok { b with revisionLabel := label }
  | .setLimits limits => .ok { b with limits := limits }
  | .addNode node => b.addNode node
  | .addPort port => b.addPort port
  | .addLink link => b.addLink link
  | .addQueue queue => b.addQueue queue
  | .addBuffer buffer => b.addBuffer buffer
  | .addPath path => b.addPath path
  | .addFlow flow => b.addFlow flow

/-- One call on a builder. A call that fails leaves it as it was. -/
def step (b : TopologyBuilder) (call : BuilderCall) : Status × TopologyBuilder :=
  match b.apply call with
  | .ok b' => (.ok (), b')
  | .error e => (.error e, b)

/-- The builder after the calls. -/
def built (calls : List BuilderCall) : TopologyBuilder := run step {} calls

/-- The calls that succeeded. -/
def succeeded (history : List (BuilderCall × Status)) : List BuilderCall :=
  (history.filter fun entry => entry.2.isOk).map Prod.fst

/-- The calls of a new builder that succeeded. -/
def accepted (calls : List BuilderCall) : List BuilderCall := succeeded (trace step {} calls)

theorem succeeded_append (history : List (BuilderCall × Status)) (call : BuilderCall)
    (status : Status) : succeeded (history ++ [(call, status)])
      = succeeded history ++ if status.isOk then [call] else [] := by
  unfold succeeded
  rw [List.filter_append, List.map_append]
  cases status <;> rfl

/-- Every call leads from a reachable builder to a reachable one. -/
theorem Reachable.apply {b b' : TopologyBuilder} (h : Reachable b) {call : BuilderCall}
    (hcall : b.apply call = .ok b') : Reachable b' := by
  cases call with
  | setGeneration generation => cases hcall; exact .setGeneration generation h
  | setRevisionLabel label => cases hcall; exact .setRevisionLabel label h
  | setLimits limits => cases hcall; exact .setLimits limits h
  | addNode node => exact .addNode h hcall
  | addPort port => exact .addPort h hcall
  | addLink link => exact .addLink h hcall
  | addQueue queue => exact .addQueue h hcall
  | addBuffer buffer => exact .addBuffer h hcall
  | addPath path => exact .addPath h hcall
  | addFlow flow => exact .addFlow h hcall

theorem step_cases (b : TopologyBuilder) (call : BuilderCall) :
    (∃ b', b.apply call = .ok b' ∧ b.step call = (.ok (), b')) ∨
      ∃ e, b.step call = (.error e, b) := by
  unfold step
  cases b.apply call with
  | ok b' => exact .inl ⟨b', rfl, rfl⟩
  | error e => exact .inr ⟨e, rfl⟩

theorem reachable_built (calls : List BuilderCall) : Reachable (built calls) := by
  refine run_induction step Reachable .new (fun b call h => ?_) calls
  obtain ⟨b', happly, hstep⟩ | ⟨e, hstep⟩ := b.step_cases call
  · rw [hstep]
    exact h.apply happly
  · rw [hstep]
    exact h

/-! ### The objects of a builder are those that were added -/

/-- The call adds a port of the node. -/
def addsPortOf (id : NodeId) : BuilderCall → Bool
  | .addPort port => port.node = id
  | _ => false

/-- The nodes and the paths are those of the calls, and each node has as many ports as were added
for it. -/
structure Holds (calls : List BuilderCall) (b : TopologyBuilder) : Prop where
  nodes : ∀ node, node ∈ b.nodes.values ↔ .addNode node ∈ calls
  paths : ∀ path, path ∈ b.paths.values ↔ .addPath path ∈ calls
  ports : ∀ id : NodeId,
    b.ports.values.countP (fun port => port.node = id) = calls.countP (addsPortOf id)

/-- A call about something else. -/
theorem Holds.same {calls : List BuilderCall} {b b' : TopologyBuilder} (h : Holds calls b)
    {call : BuilderCall} (hnodes : b'.nodes = b.nodes) (hpaths : b'.paths = b.paths)
    (hports : b'.ports = b.ports) (hnode : ∀ node, BuilderCall.addNode node ≠ call)
    (hpath : ∀ path, BuilderCall.addPath path ≠ call) (hport : ∀ id, addsPortOf id call = false) :
    Holds (calls ++ [call]) b' := by
  refine ⟨fun node => ?_, fun path => ?_, fun id => ?_⟩
  · rw [hnodes, h.nodes, List.mem_append, List.mem_singleton, or_iff_left (hnode node)]
  · rw [hpaths, h.paths, List.mem_append, List.mem_singleton, or_iff_left (hpath path)]
  · rw [hports, h.ports, List.countP_append, List.countP_singleton, hport]
    rfl

theorem mem_values_emplace_of_new {ν : Type} {m : OrdMap Name ν} {k : Name} {v w : ν}
    (hnew : m.find? k = none) : w ∈ (m.emplace k v).values ↔ w ∈ m.values ∨ w = v := by
  rw [OrdMap.emplace_of_new hnew, (OrdMap.values_insert_perm hnew).mem_iff, List.mem_cons, or_comm]

/-- A call that succeeds adds its object. -/
theorem Holds.apply {calls : List BuilderCall} {b b' : TopologyBuilder} (h : Holds calls b)
    {call : BuilderCall} (hcall : b.apply call = .ok b') : Holds (calls ++ [call]) b' := by
  cases call with
  | setGeneration generation =>
      cases hcall
      exact h.same rfl rfl rfl (fun _ => nofun) (fun _ => nofun) fun _ => rfl
  | setRevisionLabel label =>
      cases hcall
      exact h.same rfl rfl rfl (fun _ => nofun) (fun _ => nofun) fun _ => rfl
  | setLimits limits =>
      cases hcall
      exact h.same rfl rfl rfl (fun _ => nofun) (fun _ => nofun) fun _ => rfl
  | addNode node =>
      obtain ⟨⟨-, hnew⟩, -, -, rfl⟩ := addNode_eq_ok.mp hcall
      refine ⟨fun other => ?_, fun path => ?_, fun id => ?_⟩
      · rw [mem_values_emplace_of_new hnew, h.nodes, List.mem_append, List.mem_singleton,
          BuilderCall.addNode.injEq]
      · rw [h.paths, List.mem_append, List.mem_singleton, or_iff_left nofun]
      · rw [h.ports, List.countP_append]
        rfl
  | addPort port =>
      obtain ⟨⟨-, hnew⟩, -, -, -, rfl⟩ := addPort_eq_ok.mp hcall
      refine ⟨fun other => ?_, fun path => ?_, fun id => ?_⟩
      · rw [h.nodes, List.mem_append, List.mem_singleton, or_iff_left nofun]
      · rw [h.paths, List.mem_append, List.mem_singleton, or_iff_left nofun]
      · rw [OrdMap.emplace_of_new hnew, (OrdMap.values_insert_perm hnew).countP_eq,
          List.countP_cons, h.ports, List.countP_append, List.countP_singleton]
        rfl
  | addLink link =>
      obtain ⟨-, -, -, -, rfl⟩ := addLink_eq_ok.mp hcall
      exact h.same rfl rfl rfl (fun _ => nofun) (fun _ => nofun) fun _ => rfl
  | addQueue queue =>
      obtain ⟨-, -, -, -, rfl⟩ := addQueue_eq_ok.mp hcall
      exact h.same rfl rfl rfl (fun _ => nofun) (fun _ => nofun) fun _ => rfl
  | addBuffer buffer =>
      obtain ⟨-, -, -, rfl⟩ := addBuffer_eq_ok.mp hcall
      exact h.same rfl rfl rfl (fun _ => nofun) (fun _ => nofun) fun _ => rfl
  | addPath path =>
      obtain ⟨⟨-, hnew⟩, -, -, -, -, rfl⟩ := addPath_eq_ok.mp hcall
      refine ⟨fun node => ?_, fun other => ?_, fun id => ?_⟩
      · rw [h.nodes, List.mem_append, List.mem_singleton, or_iff_left nofun]
      · rw [mem_values_emplace_of_new hnew, h.paths, List.mem_append, List.mem_singleton,
          BuilderCall.addPath.injEq]
      · rw [h.ports, List.countP_append]
        rfl
  | addFlow flow =>
      obtain ⟨-, -, -, rfl⟩ := addFlow_eq_ok.mp hcall
      exact h.same rfl rfl rfl (fun _ => nofun) (fun _ => nofun) fun _ => rfl

theorem holds_built (calls : List BuilderCall) : Holds (accepted calls) (built calls) := by
  refine history_induction step (fun history b => Holds (succeeded history) b) ?_
    (fun history b call h _ => ?_) calls (guarded_true step {} calls)
  · constructor <;> simp [succeeded, OrdMap.values, OrdMap.empty]
  · rw [succeeded_append]
    obtain ⟨b', happly, hstep⟩ | ⟨e, hstep⟩ := b.step_cases call
    · rw [hstep]
      exact h.apply happly
    · rw [hstep]
      show Holds (succeeded history ++ []) b
      rwa [List.append_nil]

end TopologyBuilder

/-! ### The bounds -/

/-- The ten bounds on a topology. -/
structure Topology.BoundedBy (t : Topology) (limits : Limits) : Prop where
  nodes : t.nodes.size ≤ limits.maxNodes
  ports : t.ports.size ≤ limits.maxPorts
  links : t.links.size ≤ limits.maxLinks
  queues : t.queues.size ≤ limits.maxQueues
  buffers : t.buffers.size ≤ limits.maxBuffers
  paths : t.paths.size ≤ limits.maxPaths
  flows : t.flows.size ≤ limits.maxFlows
  portsPerNode : ∀ id : NodeId,
    t.ports.values.countP (fun port => port.node = id) ≤ limits.maxPortsPerNode
  hops : ∀ path ∈ t.paths.values, path.hops.length ≤ limits.maxPathHops
  labels : ∀ node ∈ t.nodes.values, node.labels.length ≤ limits.maxLabels

/-- The nodes, paths and ports that were added are within the bounds that `build` does not check. -/
structure ObjectsFit (calls : List BuilderCall) (limits : Limits) : Prop where
  labels : ∀ node, .addNode node ∈ calls → node.labels.length ≤ limits.maxLabels
  hops : ∀ path, .addPath path ∈ calls → path.hops.length ≤ limits.maxPathHops
  portsPerNode : ∀ id : NodeId,
    calls.countP (TopologyBuilder.addsPortOf id) ≤ limits.maxPortsPerNode

namespace TopologyBuilder

/-- A built topology is within the bounds given to `build` exactly when the objects that were added
are. -/
theorem build_bounded_iff (calls : List BuilderCall) {limits : Limits} {t : Topology}
    (h : (built calls).build limits = .ok t) :
    t.BoundedBy limits ↔ ObjectsFit (accepted calls) limits := by
  obtain ⟨hcheck, hassemble⟩ := seq_eq_ok.mp h
  cases hassemble
  have hholds := holds_built calls
  constructor
  · intro hbounded
    refine ⟨fun node hnode => ?_, fun path hpath => ?_, fun id => ?_⟩
    · exact hbounded.labels node ((hholds.nodes node).mpr hnode)
    · exact hbounded.hops path ((hholds.paths path).mpr hpath)
    · rw [← hholds.ports]
      exact hbounded.portsPerNode id
  · intro hfit
    have hcounts := failIf_eq_ok.mp (seq_eq_ok.mp hcheck).1
    simp only [not_or, Nat.not_lt] at hcounts
    obtain ⟨hnodes, hports, hlinks, hqueues, hbuffers, hpaths, hflows⟩ := hcounts
    refine ⟨hnodes, hports, hlinks, hqueues, hbuffers, hpaths, hflows, fun id => ?_,
      fun path hpath => ?_, fun node hnode => ?_⟩
    · show (built calls).ports.values.countP _ ≤ _
      rw [hholds.ports]
      exact hfit.portsPerNode id
    · exact hfit.hops path ((hholds.paths path).mp hpath)
    · exact hfit.labels node ((hholds.nodes node).mp hnode)

/-- A node with two labels, two ports of it, a link between them and a path that uses the link
twice. -/
def loopCalls : List BuilderCall :=
  [.addNode { id := EntityId.unchecked (ascii "n")
              labels := [Name.unchecked (ascii "x"), Name.unchecked (ascii "y")] },
    .addPort { id := EntityId.unchecked (ascii "a"), node := EntityId.unchecked (ascii "n") },
    .addPort { id := EntityId.unchecked (ascii "b"), node := EntityId.unchecked (ascii "n") },
    .addLink { id := EntityId.unchecked (ascii "l"), endpointA := EntityId.unchecked (ascii "a")
               endpointB := EntityId.unchecked (ascii "b") },
    .addPath { id := EntityId.unchecked (ascii "p")
               hops := [EntityId.unchecked (ascii "l"), EntityId.unchecked (ascii "l")] }]

theorem build_loop (limits : Limits) (h : ((built loopCalls).buildCheck limits).isOk = true) :
    (built loopCalls).build limits = .ok (built loopCalls).assemble :=
  seq_eq_ok.mpr ⟨eq_ok_of_isOk h (), rfl⟩

theorem loop_bounded : (built loopCalls).assemble.BoundedBy {} := by
  refine (build_bounded_iff loopCalls (build_loop {} (by decide +kernel))).mpr ?_
  have haccepted : accepted loopCalls = loopCalls := by decide +kernel
  rw [haccepted]
  refine ⟨fun node hnode => ?_, fun path hpath => ?_, fun id => ?_⟩
  · simp only [loopCalls, List.mem_cons, BuilderCall.addNode.injEq, reduceCtorEq, or_false,
      List.not_mem_nil] at hnode
    rw [hnode]
    decide
  · simp only [loopCalls, List.mem_cons, BuilderCall.addPath.injEq, reduceCtorEq, false_or,
      List.not_mem_nil, or_false] at hpath
    rw [hpath]
    decide
  · exact List.countP_le_length.trans (by decide)

/-- `build` accepts the two labels under a bound of one. -/
theorem loop_exceeds_labels :
    (built loopCalls).build { maxLabels := 1 } = .ok (built loopCalls).assemble ∧
      ¬ (built loopCalls).assemble.BoundedBy { maxLabels := 1 } := by
  refine ⟨build_loop _ (by decide +kernel), fun h => ?_⟩
  have hnode : ({ id := EntityId.unchecked (ascii "n")
                  labels := [Name.unchecked (ascii "x"), Name.unchecked (ascii "y")] } : Node)
      ∈ (built loopCalls).assemble.nodes.values := by decide +kernel
  exact absurd (h.labels _ hnode) (by decide)

end TopologyBuilder

end CongestionObservatory
