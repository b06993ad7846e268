import CongestionObservatory.Lib.OrdMap
import CongestionObservatory.Core.Limits
import CongestionObservatory.Model.Generation
import Mathlib.Data.List.Destutter

/-!
# `CongestionObservatory.Model.Topology`: the fabric topology

`Topology` (`model/topology.hpp`) is an immutable view of the fabric with its adjacency
indexes. `TopologyBuilder` checks each object when it is added, and `build` checks the
references once more and computes the indexes.
-/

set_option autoImplicit false

namespace CongestionObservatory

open Lib

/-- `NodeKind`. -/
inductive NodeKind where
  | unknown
  | switch
  | host
  | nic
  | router
  | appliance
  | undeclared (raw : UInt8) (h : raw ≥ 6)
  deriving DecidableEq, Repr

instance : ScopedEnum NodeKind UInt8 where
  toUnderlying
    | .unknown => 0
    | .switch => 1
    | .host => 2
    | .nic => 3
    | .router => 4
    | .appliance => 5
    | .undeclared raw _ => raw
  ofUnderlying raw :=
    if h : raw ≥ 6 then .undeclared raw h
    else [.unknown, .switch, .host, .nic, .router, .appliance].getD raw.toNat .unknown
  ofUnderlying_toUnderlying e := by
    cases e with
    | undeclared raw h => exact dif_pos h
    | _ => rfl

structure Node where
  id : NodeId
  kind : NodeKind := .unknown
  labels : List Name := []
  deriving DecidableEq

structure Port where
  id : PortId
  node : NodeId
  speedBps : UInt64 := 0
  deriving DecidableEq

structure Link where
  id : LinkId
  endpointA : PortId
  endpointB : PortId
  capacityBps : UInt64 := 0
  deriving DecidableEq

structure Queue where
  id : QueueId
  link : LinkId
  index : UInt32 := 0
  minShareBp : UInt32 := 0
  maxShareBp : UInt32 := 10000
  deriving DecidableEq

structure Buffer where
  id : BufferId
  port : PortId
  pool : UInt32 := 0
  cells : UInt64 := 0
  deriving DecidableEq

structure Path where
  id : PathId
  hops : List LinkId
  deriving DecidableEq

structure Flow where
  id : FlowId
  path : PathId
  tenant : TenantId := EntityId.default
  trafficClass : ClassId := EntityId.default
  deriving DecidableEq

/-- `Topology`: the collections, then the indexes `build` derives from them. -/
structure Topology where
  generation : GenerationVector := {}
  revisionLabel : Name := Name.default
  nodes : OrdMap Name Node := OrdMap.empty
  ports : OrdMap Name Port := OrdMap.empty
  links : OrdMap Name Link := OrdMap.empty
  queues : OrdMap Name Queue := OrdMap.empty
  buffers : OrdMap Name Buffer := OrdMap.empty
  paths : OrdMap Name Path := OrdMap.empty
  flows : OrdMap Name Flow := OrdMap.empty
  portToNode : OrdMap Name Name := OrdMap.empty
  queueToLink : OrdMap Name Name := OrdMap.empty
  bufferToPort : OrdMap Name Name := OrdMap.empty
  nodeToLinks : OrdMap Name (List Name) := OrdMap.empty
  linkToPaths : OrdMap Name (List Name) := OrdMap.empty
  pathToFlows : OrdMap Name (List Name) := OrdMap.empty
  linkToQueues : OrdMap Name (List Name) := OrdMap.empty
  portToBuffers : OrdMap Name (List Name) := OrdMap.empty
  deriving DecidableEq

namespace Topology

/-- `Topology::node`. -/
def node (t : Topology) (id : NodeId) : Option Node := t.nodes.find? id.name

/-- `Topology::port`. -/
def port (t : Topology) (id : PortId) : Option Port := t.ports.find? id.name

/-- `Topology::link`. -/
def link (t : Topology) (id : LinkId) : Option Link := t.links.find? id.name

/-- `Topology::queue`. -/
def queue (t : Topology) (id : QueueId) : Option Queue := t.queues.find? id.name

/-- `Topology::buffer`. -/
def buffer (t : Topology) (id : BufferId) : Option Buffer := t.buffers.find? id.name

/-- `Topology::path`. -/
def path (t : Topology) (id : PathId) : Option Path := t.paths.find? id.name

/-- `Topology::flow`. -/
def flow (t : Topology) (id : FlowId) : Option Flow := t.flows.find? id.name

/-- `Topology::node_of_port`. -/
def nodeOfPort (t : Topology) (id : PortId) : Option Node := do
  let name ← t.portToNode.find? id.name
  t.node ⟨name⟩

/-- `Topology::link_of_queue`. -/
def linkOfQueue (t : Topology) (id : QueueId) : Option Link := do
  let name ← t.queueToLink.find? id.name
  t.link ⟨name⟩

/-- `Topology::port_of_buffer`. -/
def portOfBuffer (t : Topology) (id : BufferId) : Option Port := do
  let name ← t.bufferToPort.find? id.name
  t.port ⟨name⟩

/-- An adjacency query: the listed names as identities, or nothing. -/
def adjacent {From To : Type} (index : OrdMap Name (List Name)) (id : EntityId From) :
    List (EntityId To) :=
  ((index.find? id.name).getD []).map EntityId.mk

/-- `Topology::links_of_node`. -/
def linksOfNode (t : Topology) (id : NodeId) : List LinkId := adjacent t.nodeToLinks id

/-- `Topology::paths_through_link`. -/
def pathsThroughLink (t : Topology) (id : LinkId) : List PathId := adjacent t.linkToPaths id

/-- `Topology::flows_on_path`. -/
def flowsOnPath (t : Topology) (id : PathId) : List FlowId := adjacent t.pathToFlows id

/-- `Topology::queues_of_link`. -/
def queuesOfLink (t : Topology) (id : LinkId) : List QueueId := adjacent t.linkToQueues id

/-- `Topology::buffers_of_port`. -/
def buffersOfPort (t : Topology) (id : PortId) : List BufferId := adjacent t.portToBuffers id

/-- `Topology::contains`. Tenants, classes and sources are not topology objects. -/
def contains (t : Topology) : EvidenceSubject → Bool
  | .none => false
  | .node id => (t.node id).isSome
  | .port id => (t.port id).isSome
  | .link id => (t.link id).isSome
  | .queue id => (t.queue id).isSome
  | .buffer id => (t.buffer id).isSome
  | .path id => (t.path id).isSome
  | .flow id => (t.flow id).isSome
  | .tenant _ | .class _ | .source _ | .topology _ => true

/-- `Topology::require`. -/
def require (t : Topology) (subject : EvidenceSubject) : Status :=
  if subject.kind = .none then .error (makeError .invalidArgument "evidence subject is empty")
  else if t.contains subject then .ok ()
  else .error (makeError .notFound "subject is not present in this topology revision" subject.str)

/-- `Topology::digest`: the bytes of all collections in key order, hashed. -/
def digest (t : Topology) : UInt64 :=
  let hasher : StableHasher := {}
  let hasher := hasher.updateU64 t.generation.epoch
  let hasher := hasher.updateU64 t.generation.generation
  let hasher := hasher.updateU64 t.generation.revision
  let hasher := (hasher.update t.revisionLabel.str).separator
  let hasher := t.nodes.values.foldl (fun h node =>
    let h := (h.update node.id.str).updateU64 (toUnderlying node.kind).toUInt64
    (node.labels.foldl (fun h label => h.update label.str) h).separator) hasher
  let hasher := t.ports.values.foldl (fun h port =>
    ((h.update port.id.str).update port.node.str).updateU64 port.speedBps) hasher
  let hasher := t.links.values.foldl (fun h link =>
    (((h.update link.id.str).update link.endpointA.str).update link.endpointB.str).updateU64
      link.capacityBps) hasher
  let hasher := t.queues.values.foldl (fun h queue =>
    ((((h.update queue.id.str).update queue.link.str).updateU64 queue.index.toUInt64).updateU64
      queue.minShareBp.toUInt64).updateU64 queue.maxShareBp.toUInt64) hasher
  let hasher := t.buffers.values.foldl (fun h buffer =>
    (((h.update buffer.id.str).update buffer.port.str).updateU64 buffer.pool.toUInt64).updateU64
      buffer.cells) hasher
  let hasher := t.paths.values.foldl (fun h path =>
    (path.hops.foldl (fun h hop => h.update hop.str) (h.update path.id.str)).separator) hasher
  let hasher := t.flows.values.foldl (fun h flow =>
    (((h.update flow.id.str).update flow.path.str).update flow.tenant.str).update
      flow.trafficClass.str) hasher
  hasher.digest64

end Topology

/-- `TopologyBuilder`: the objects added so far. -/
structure TopologyBuilder where
  generation : GenerationVector := {}
  revisionLabel : Name := Name.default
  limits : Limits := {}
  nodes : OrdMap Name Node := OrdMap.empty
  ports : OrdMap Name Port := OrdMap.empty
  links : OrdMap Name Link := OrdMap.empty
  queues : OrdMap Name Queue := OrdMap.empty
  buffers : OrdMap Name Buffer := OrdMap.empty
  paths : OrdMap Name Path := OrdMap.empty
  flows : OrdMap Name Flow := OrdMap.empty
  deriving DecidableEq

namespace TopologyBuilder

/-- `capacity_check`. -/
def capacityCheck (size maximum : Nat) (what : String) : Status :=
  failIf (size ≥ maximum) (makeError .limitExceeded ("topology " ++ what ++ " limit reached")
    (ascii "limit=" ++ decimal maximum))

/-- `duplicate_check`. -/
def duplicateCheck {ν : Type} (map : OrdMap Name ν) (id : Name) (what : String) : Status := do
  failIf (id.valid ∧ map.contains id)
    (makeError .alreadyExists ("duplicate " ++ what ++ " identity") id.str)
  failIf (¬ id.valid) (makeError .invalidArgument ("invalid " ++ what ++ " identity"))

/-- `TopologyBuilder::add_node`. -/
def addNode (b : TopologyBuilder) (node : Node) : Result TopologyBuilder := do
  duplicateCheck b.nodes node.id.name "node"
  capacityCheck b.nodes.size b.limits.maxNodes "node"
  failIf (node.labels.length > b.limits.maxLabels)
    (makeError .limitExceeded "node label count exceeds the limit")
  pure { b with nodes := b.nodes.emplace node.id.name node }

/-- `TopologyBuilder::add_port`. -/
def addPort (b : TopologyBuilder) (port : Port) : Result TopologyBuilder := do
  duplicateCheck b.ports port.id.name "port"
  capacityCheck b.ports.size b.limits.maxPorts "port"
  failIf (¬ b.nodes.contains port.node.name)
    (makeError .notFound "port references an unknown node" port.node.str)
  failIf (b.ports.values.countP (fun other => other.node = port.node) ≥ b.limits.maxPortsPerNode)
    (makeError .limitExceeded "node port limit reached" port.node.str)
  pure { b with ports := b.ports.emplace port.id.name port }

/-- `TopologyBuilder::add_link`. -/
def addLink (b : TopologyBuilder) (link : Link) : Result TopologyBuilder := do
  duplicateCheck b.links link.id.name "link"
  capacityCheck b.links.size b.limits.maxLinks "link"
  failIf (link.endpointA = link.endpointB)
    (makeError .invalidArgument "link endpoints must differ" link.id.str)
  failIf (¬ b.ports.contains link.endpointA.name ∨ ¬ b.ports.contains link.endpointB.name)
    (makeError .notFound "link references an unknown port" link.id.str)
  pure { b with links := b.links.emplace link.id.name link }

/-- `TopologyBuilder::add_queue`. -/
def addQueue (b : TopologyBuilder) (queue : Queue) : Result TopologyBuilder := do
  duplicateCheck b.queues queue.id.name "queue"
  capacityCheck b.queues.size b.limits.maxQueues "queue"
  failIf (¬ b.links.contains queue.link.name)
    (makeError .notFound "queue references an unknown link" queue.link.str)
  failIf (queue.minShareBp > queue.maxShareBp ∨ queue.maxShareBp > 10000)
    (makeError .outOfRange "queue share bounds are inconsistent" queue.id.str)
  pure { b with queues := b.queues.emplace queue.id.name queue }

/-- `TopologyBuilder::add_buffer`. -/
def addBuffer (b : TopologyBuilder) (buffer : Buffer) : Result TopologyBuilder := do
  duplicateCheck b.buffers buffer.id.name "buffer"
  capacityCheck b.buffers.size b.limits.maxBuffers "buffer"
  failIf (¬ b.ports.contains buffer.port.name)
    (makeError .notFound "buffer references an unknown port" buffer.port.str)
  pure { b with buffers := b.buffers.emplace buffer.id.name buffer }

/-- The check of one hop. -/
def hopCheck (links : OrdMap Name Link) (hop : LinkId) : Status :=
  failIf (¬ links.contains hop.name) (makeError .notFound "path references an unknown link" hop.str)

/-- `TopologyBuilder::add_path`. -/
def addPath (b : TopologyBuilder) (path : Path) : Result TopologyBuilder := do
  duplicateCheck b.paths path.id.name "path"
  capacityCheck b.paths.size b.limits.maxPaths "path"
  failIf (path.hops = [])
    (makeError .invalidArgument "path must contain at least one hop" path.id.str)
  failIf (path.hops.length > b.limits.maxPathHops)
    (makeError .limitExceeded "path hop count exceeds the limit" path.id.str)
  checkAll (hopCheck b.links) path.hops
  pure { b with paths := b.paths.emplace path.id.name path }

/-- `TopologyBuilder::add_flow`. -/
def addFlow (b : TopologyBuilder) (flow : Flow) : Result TopologyBuilder := do
  duplicateCheck b.flows flow.id.name "flow"
  capacityCheck b.flows.size b.limits.maxFlows "flow"
  failIf (¬ b.paths.contains flow.path.name)
    (makeError .notFound "flow references an unknown path" flow.path.str)
  pure { b with flows := b.flows.emplace flow.id.name flow }

/-- The bounds and references `build` checks before it assembles anything. -/
def buildCheck (b : TopologyBuilder) (limits : Limits) : Status := do
  failIf (b.nodes.size > limits.maxNodes ∨ b.ports.size > limits.maxPorts
      ∨ b.links.size > limits.maxLinks ∨ b.queues.size > limits.maxQueues
      ∨ b.buffers.size > limits.maxBuffers ∨ b.paths.size > limits.maxPaths
      ∨ b.flows.size > limits.maxFlows)
    (makeError .limitExceeded "topology exceeds the configured bounds")
  checkAll (fun port => failIf (¬ b.nodes.contains port.node.name)
    (makeError .notFound "port references an unknown node" port.id.str)) b.ports.values
  checkAll (fun link =>
    failIf (¬ b.ports.contains link.endpointA.name ∨ ¬ b.ports.contains link.endpointB.name)
      (makeError .notFound "link references an unknown port" link.id.str)) b.links.values
  checkAll (fun queue => failIf (¬ b.links.contains queue.link.name)
    (makeError .notFound "queue references an unknown link" queue.id.str)) b.queues.values
  checkAll (fun buffer => failIf (¬ b.ports.contains buffer.port.name)
    (makeError .notFound "buffer references an unknown port" buffer.id.str)) b.buffers.values
  checkAll (fun path => checkAll (hopCheck b.links) path.hops) b.paths.values
  checkAll (fun flow => failIf (¬ b.paths.contains flow.path.name)
    (makeError .notFound "flow references an unknown path" flow.id.str)) b.flows.values

/-- `index[key].push_back(name)`. -/
def pushBack (index : OrdMap Name (List Name)) (key name : Name) : OrdMap Name (List Name) :=
  index.insert key ((index.find? key).getD [] ++ [name])

/-- Adjacent duplicates are dropped, then the list is sorted. -/
def uniqueSorted (index : OrdMap Name (List Name)) : OrdMap Name (List Name) :=
  index.mapValues (fun _ names => (names.destutter (· ≠ ·)).insertionSort (· ≤ ·))

/-- The lists of an index are sorted. -/
def sortedLists (index : OrdMap Name (List Name)) : OrdMap Name (List Name) :=
  index.mapValues (fun _ names => names.insertionSort (· ≤ ·))

/-- The links of `node_to_links_` before duplicates are dropped. -/
def endpointIndex (portToNode : OrdMap Name Name) (links : OrdMap Name Link) :
    OrdMap Name (List Name) :=
  links.entries.foldl (fun index entry =>
    let index := match portToNode.find? entry.2.endpointA.name with
      | some node => pushBack index node entry.1
      | none => index
    match portToNode.find? entry.2.endpointB.name with
      | some node => pushBack index node entry.1
      | none => index) OrdMap.empty

/-- The topology `build` assembles: the collections and the indexes. -/
def assemble (b : TopologyBuilder) : Topology :=
  let portToNode := b.ports.mapValues (fun _ port => port.node.name)
  { generation := b.generation
    revisionLabel := b.revisionLabel
    nodes := b.nodes
    ports := b.ports
    links := b.links
    queues := b.queues
    buffers := b.buffers
    paths := b.paths
    flows := b.flows
    portToNode := portToNode
    queueToLink := b.queues.mapValues (fun _ queue => queue.link.name)
    bufferToPort := b.buffers.mapValues (fun _ buffer => buffer.port.name)
    nodeToLinks := uniqueSorted (endpointIndex portToNode b.links)
    linkToPaths := uniqueSorted (b.paths.entries.foldl (fun index entry =>
      entry.2.hops.foldl (fun index hop => pushBack index hop.name entry.1) index) OrdMap.empty)
    pathToFlows := uniqueSorted (b.flows.entries.foldl (fun index entry =>
      pushBack index entry.2.path.name entry.1) OrdMap.empty)
    linkToQueues := sortedLists (b.queues.entries.foldl (fun index entry =>
      pushBack index entry.2.link.name entry.1) OrdMap.empty)
    portToBuffers := sortedLists (b.buffers.entries.foldl (fun index entry =>
      pushBack index entry.2.port.name entry.1) OrdMap.empty) }

/-- `TopologyBuilder::build`. -/
def build (b : TopologyBuilder) (limits : Limits) : Result Topology := do
  b.buildCheck limits
  pure b.assemble

/-- The builders the public operations lead to. -/
inductive Reachable : TopologyBuilder → Prop
  | new : Reachable {}
  | setGeneration {b : TopologyBuilder} (generation : GenerationVector) (h : Reachable b) :
      Reachable { b with generation := generation }
  | setRevisionLabel {b : TopologyBuilder} (label : Name) (h : Reachable b) :
      Reachable { b with revisionLabel := label }
  | setLimits {b : TopologyBuilder} (limits : Limits) (h : Reachable b) :
      Reachable { b with limits := limits }
  | addNode {b b' : TopologyBuilder} {node : Node} (h : Reachable b)
      (hadd : b.addNode node = .ok b') : Reachable b'
  | addPort {b b' : TopologyBuilder} {port : Port} (h : Reachable b)
      (hadd : b.addPort port = .ok b') : Reachable b'
  | addLink {b b' : TopologyBuilder} {link : Link} (h : Reachable b)
      (hadd : b.addLink link = .ok b') : Reachable b'
  | addQueue {b b' : TopologyBuilder} {queue : Queue} (h : Reachable b)
      (hadd : b.addQueue queue = .ok b') : Reachable b'
  | addBuffer {b b' : TopologyBuilder} {buffer : Buffer} (h : Reachable b)
      (hadd : b.addBuffer buffer = .ok b') : Reachable b'
  | addPath {b b' : TopologyBuilder} {path : Path} (h : Reachable b)
      (hadd : b.addPath path = .ok b') : Reachable b'
  | addFlow {b b' : TopologyBuilder} {flow : Flow} (h : Reachable b)
      (hadd : b.addFlow flow = .ok b') : Reachable b'

/-- The builders that additions under the given limits lead to. -/
inductive ReachableUnder (limits : Limits) : TopologyBuilder → Prop
  | new : ReachableUnder limits { limits := limits }
  | setGeneration {b : TopologyBuilder} (generation : GenerationVector)
      (h : ReachableUnder limits b) : ReachableUnder limits { b with generation := generation }
  | setRevisionLabel {b : TopologyBuilder} (label : Name) (h : ReachableUnder limits b) :
      ReachableUnder limits { b with revisionLabel := label }
  | addNode {b b' : TopologyBuilder} {node : Node} (h : ReachableUnder limits b)
      (hadd : b.addNode node = .ok b') : ReachableUnder limits b'
  | addPort {b b' : TopologyBuilder} {port : Port} (h : ReachableUnder limits b)
      (hadd : b.addPort port = .ok b') : ReachableUnder limits b'
  | addLink {b b' : TopologyBuilder} {link : Link} (h : ReachableUnder limits b)
      (hadd : b.addLink link = .ok b') : ReachableUnder limits b'
  | addQueue {b b' : TopologyBuilder} {queue : Queue} (h : ReachableUnder limits b)
      (hadd : b.addQueue queue = .ok b') : ReachableUnder limits b'
  | addBuffer {b b' : TopologyBuilder} {buffer : Buffer} (h : ReachableUnder limits b)
      (hadd : b.addBuffer buffer = .ok b') : ReachableUnder limits b'
  | addPath {b b' : TopologyBuilder} {path : Path} (h : ReachableUnder limits b)
      (hadd : b.addPath path = .ok b') : ReachableUnder limits b'
  | addFlow {b b' : TopologyBuilder} {flow : Flow} (h : ReachableUnder limits b)
      (hadd : b.addFlow flow = .ok b') : ReachableUnder limits b'

end TopologyBuilder

/-- A topology comes out of a builder. The default one is that of the empty builder. -/
def Topology.Built (t : Topology) : Prop :=
  ∃ b limits, TopologyBuilder.Reachable b ∧ b.build limits = .ok t

/-- A topology comes out of a builder with the given limits and is built under them. -/
def Topology.BuiltUnder (limits : Limits) (t : Topology) : Prop :=
  ∃ b, TopologyBuilder.ReachableUnder limits b ∧ b.build limits = .ok t

end CongestionObservatory
