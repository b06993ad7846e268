import CongestionObservatory.Lib.Multimap
import CongestionObservatory.Proofs.Model.Bounds

/-!
# `CongestionObservatory.Proofs.Model.Indexes`: the indexes of a topology

`build` files each object under what it refers to: a link under the nodes of its ports, a path
under its hops, and so on. All of these indexes are filled the same way, from a table and the names
that its objects refer to (`references`). The table is walked in key order, so every list comes out
ascending, and a link with both ends on one node, or a path that visits a link twice, leaves its
duplicates side by side. `indexed_of_built` says that every list holds exactly the objects that
refer to its key.
-/

set_option autoImplicit false

namespace CongestionObservatory

open Lib

/-! ### What a table refers to -/

section References

variable {ν : Type}

/-- The names that the objects of a table refer to, each with the name of the object. -/
def references (m : OrdMap Name ν) (names : ν → List Name) : List (Name × Name) :=
  m.entries.flatMap fun e => (names e.2).map fun n => (n, e.1)

variable {m : OrdMap Name ν} {names : ν → List Name}

theorem mem_references {n object : Name} :
    (n, object) ∈ references m names ↔ ∃ v, m.find? object = some v ∧ n ∈ names v := by
  simp only [references, List.mem_flatMap, List.mem_map, Prod.mk.injEq]
  constructor
  · rintro ⟨⟨k, v⟩, he, n, hn, rfl, rfl⟩
    exact ⟨v, OrdMap.find?_eq_some_iff.mpr he, hn⟩
  · rintro ⟨v, hv, hn⟩
    exact ⟨(object, v), OrdMap.find?_eq_some_iff.mp hv, n, hn, rfl, rfl⟩

/-- The objects come in the order of their names. -/
theorem references_ascending :
    (references m names).Pairwise fun p q => p.2 ≤ q.2 := by
  refine List.pairwise_flatMap.mpr ⟨fun e _ => ?_, m.sorted.imp fun hlt p hp q hq => ?_⟩
  · rw [List.pairwise_map]
    exact List.pairwise_of_forall fun _ _ => le_refl e.1
  · obtain ⟨n, -, rfl⟩ := List.mem_map.mp hp
    obtain ⟨n', -, rfl⟩ := List.mem_map.mp hq
    exact hlt.le

/-- Where an object refers to one name only, no object comes twice. -/
theorem references_strict (f : ν → Name) :
    (references m fun v => [f v]).Pairwise fun p q => p.2 < q.2 := by
  refine List.pairwise_flatMap.mpr ⟨fun e _ => List.pairwise_singleton _ _, ?_⟩
  refine m.sorted.imp fun hlt p hp q hq => ?_
  rw [List.map_cons, List.map_nil, List.mem_singleton] at hp hq
  rw [hp, hq]
  exact hlt

end References

/-- The identities with the property, in ascending order and each once. -/
structure ListsIds {Tag : Type} (ids : List (EntityId Tag)) (P : EntityId Tag → Prop) : Prop where
  ascending : ids.Pairwise (· < ·)
  mem_iff : ∀ id, id ∈ ids ↔ P id

namespace Topology

/-- An adjacency query lists what its index files under the key. -/
theorem listsIds_adjacent {From To : Type} {index : OrdMap Name (List Name)} {id : EntityId From}
    {P : EntityId To → Prop} (hascending : (index.listAt id.name).Pairwise (· < ·))
    (hmem : ∀ name, name ∈ index.listAt id.name ↔ P ⟨name⟩) : ListsIds (adjacent index id) P := by
  refine ⟨?_, fun id' => ?_⟩
  · show ((index.listAt id.name).map EntityId.mk).Pairwise _
    rw [List.pairwise_map]
    exact hascending
  · show id' ∈ (index.listAt id.name).map EntityId.mk ↔ _
    rw [List.mem_map]
    constructor
    · rintro ⟨name, hname, rfl⟩
      exact (hmem name).mp hname
    · intro h
      exact ⟨id'.name, (hmem _).mpr h, rfl⟩

end Topology

namespace TopologyBuilder

/-! ### The indexes of `build` -/

/-- An index whose lists lose their duplicates. -/
theorem listAt_uniqueSorted {ν : Type} (m : OrdMap Name ν) (names : ν → List Name) (n : Name) :
    ((uniqueSorted (OrdMap.filed (references m names))).listAt n).Pairwise (· < ·) ∧
      ∀ object, object ∈ (uniqueSorted (OrdMap.filed (references m names))).listAt n ↔
        ∃ v, m.find? object = some v ∧ n ∈ names v := by
  have hlist : (uniqueSorted (OrdMap.filed (references m names))).listAt n
      = sortUnique ((OrdMap.filed (references m names)).listAt n) := by
    rw [← unique_eq_sortUnique (OrdMap.pairwise_listAt_filed references_ascending n)]
    exact OrdMap.listAt_mapValues (fun l : List Name => (l.destutter (· ≠ ·)).insertionSort (· ≤ ·))
      rfl _ n
  rw [hlist]
  refine ⟨sortUnique_ascending _, fun object => ?_⟩
  rw [mem_sortUnique, OrdMap.mem_listAt_filed, mem_references]

/-- An index of objects that refer to one name each. -/
theorem listAt_sortedLists {ν : Type} (m : OrdMap Name ν) (f : ν → Name) (n : Name) :
    ((sortedLists (OrdMap.filed (references m fun v => [f v]))).listAt n).Pairwise (· < ·) ∧
      ∀ object, object ∈ (sortedLists (OrdMap.filed (references m fun v => [f v]))).listAt n ↔
        ∃ v, m.find? object = some v ∧ n = f v := by
  have hstrict := OrdMap.pairwise_listAt_filed (references_strict (m := m) f) n
  have hlist : (sortedLists (OrdMap.filed (references m fun v => [f v]))).listAt n
      = (OrdMap.filed (references m fun v => [f v])).listAt n := by
    rw [← (hstrict.imp le_of_lt).insertionSort_eq]
    exact OrdMap.listAt_mapValues (fun l : List Name => l.insertionSort (· ≤ ·)) rfl _ n
  rw [hlist]
  refine ⟨hstrict, fun object => ?_⟩
  rw [OrdMap.mem_listAt_filed, mem_references]
  simp only [List.mem_singleton]

/-- The nodes that the ports of a link are on. -/
def endNodes (portToNode : OrdMap Name Name) (link : Link) : List Name :=
  [link.endpointA, link.endpointB].filterMap fun id => portToNode.find? id.name

theorem endpointIndex_eq (portToNode : OrdMap Name Name) (links : OrdMap Name Link) :
    endpointIndex portToNode links = OrdMap.filed (references links (endNodes portToNode)) := by
  unfold endpointIndex OrdMap.filed references
  rw [List.foldl_flatMap]
  congr 1
  funext index entry
  rw [List.foldl_map]
  unfold endNodes
  simp only [List.filterMap_cons, List.filterMap_nil]
  cases portToNode.find? entry.2.endpointA.name <;>
    cases portToNode.find? entry.2.endpointB.name <;> rfl

theorem linkToPaths_eq (paths : OrdMap Name Path) :
    paths.entries.foldl (fun index entry =>
      entry.2.hops.foldl (fun index hop => pushBack index hop.name entry.1) index) OrdMap.empty
      = OrdMap.filed (references paths fun path => path.hops.map (·.name)) := by
  unfold OrdMap.filed references
  rw [List.foldl_flatMap]
  congr 1
  funext index entry
  rw [List.map_map, List.foldl_map]
  rfl

theorem pushEach_eq {ν : Type} (m : OrdMap Name ν) (f : ν → Name) :
    m.entries.foldl (fun index entry => pushBack index (f entry.2) entry.1) OrdMap.empty
      = OrdMap.filed (references m fun v => [f v]) := by
  unfold OrdMap.filed references
  rw [List.foldl_flatMap]
  rfl

end TopologyBuilder

namespace Topology

/-! ### What the queries answer -/

/-- The link has a port on the node. -/
def EndsAt (t : Topology) (link : Link) (id : NodeId) : Prop :=
  ∃ port, (t.port link.endpointA = some port ∨ t.port link.endpointB = some port) ∧ port.node = id

/-- The references of a topology resolve, and its queries list exactly the objects that refer to an
object. -/
structure Indexed (t : Topology) : Prop where
  portNodes : ∀ port ∈ t.ports.values, (t.node port.node).isSome
  linkPorts : ∀ link ∈ t.links.values,
    (t.port link.endpointA).isSome ∧ (t.port link.endpointB).isSome
  queueLinks : ∀ queue ∈ t.queues.values, (t.link queue.link).isSome
  bufferPorts : ∀ buffer ∈ t.buffers.values, (t.port buffer.port).isSome
  pathHops : ∀ path ∈ t.paths.values, ∀ hop ∈ path.hops, (t.link hop).isSome
  flowPaths : ∀ flow ∈ t.flows.values, (t.path flow.path).isSome
  linksOfNode : ∀ id, ListsIds (t.linksOfNode id) fun link =>
    ∃ object, t.link link = some object ∧ t.EndsAt object id
  pathsThroughLink : ∀ id, ListsIds (t.pathsThroughLink id) fun path =>
    ∃ object, t.path path = some object ∧ id ∈ object.hops
  flowsOnPath : ∀ id, ListsIds (t.flowsOnPath id) fun flow =>
    ∃ object, t.flow flow = some object ∧ object.path = id
  queuesOfLink : ∀ id, ListsIds (t.queuesOfLink id) fun queue =>
    ∃ object, t.queue queue = some object ∧ object.link = id
  buffersOfPort : ∀ id, ListsIds (t.buffersOfPort id) fun buffer =>
    ∃ object, t.buffer buffer = some object ∧ object.port = id
  nodeOfPort : ∀ id port, t.port id = some port →
    ∃ node, t.nodeOfPort id = some node ∧ t.node port.node = some node ∧ node.id = port.node
  linkOfQueue : ∀ id queue, t.queue id = some queue →
    ∃ link, t.linkOfQueue id = some link ∧ t.link queue.link = some link ∧ link.id = queue.link
  portOfBuffer : ∀ id buffer, t.buffer id = some buffer →
    ∃ port, t.portOfBuffer id = some port ∧ t.port buffer.port = some port ∧ port.id = buffer.port

/-- The object a reference names carries the name. -/
theorem exists_referenced {Tag ν : Type} {m : OrdMap Name ν} {key : ν → EntityId Tag} {P : ν → Prop}
    (h : Keyed m (fun v => (key v).name) P) {id : EntityId Tag} (hcontains : m.contains id.name = true) :
    ∃ v, m.find? id.name = some v ∧ key v = id := by
  obtain ⟨v, hv⟩ := Option.isSome_iff_exists.mp hcontains
  refine ⟨v, hv, EntityId.name_injective ?_⟩
  exact (h _ (OrdMap.find?_eq_some_iff.mp hv)).1

/-- The names of a link's nodes are those of the ports it ends at. -/
theorem mem_endNodes_iff {t : Topology} {link : Link} {id : NodeId} :
    id.name ∈ TopologyBuilder.endNodes (t.ports.mapValues fun _ port => port.node.name) link ↔
      t.EndsAt link id := by
  have hport : ∀ end_ : PortId,
      (t.ports.mapValues fun _ port => port.node.name).find? end_.name = some id.name ↔
        ∃ port, t.port end_ = some port ∧ port.node = id := by
    intro end_
    rw [OrdMap.find?_mapValues, Option.map_eq_some_iff]
    exact exists_congr fun port => and_congr_right fun _ => EntityId.name_injective.eq_iff
  unfold TopologyBuilder.endNodes EndsAt
  simp only [List.mem_filterMap, List.mem_cons, List.not_mem_nil, or_false, hport]
  constructor
  · rintro ⟨end_, rfl | rfl, port, hp, hnode⟩
    · exact ⟨port, .inl hp, hnode⟩
    · exact ⟨port, .inr hp, hnode⟩
  · rintro ⟨port, hp | hp, hnode⟩
    · exact ⟨link.endpointA, .inl rfl, port, hp, hnode⟩
    · exact ⟨link.endpointB, .inr rfl, port, hp, hnode⟩

/-- Every topology that is built answers its queries exactly. -/
theorem indexed_of_built {t : Topology} (h : t.Built) : t.Indexed := by
  obtain ⟨b, limits, hreachable, hbuild⟩ := h
  obtain ⟨-, hassemble⟩ := seq_eq_ok.mp hbuild
  cases hassemble
  have hwell := TopologyBuilder.wellFormed_of_reachable hreachable
  refine ⟨?_, ?_, ?_, ?_, ?_, ?_, ?_, ?_, ?_, ?_, ?_, ?_, ?_, ?_⟩
  · exact fun port hport => (hwell.ports.of_mem_values hport).2
  · exact fun link hlink => (hwell.links.of_mem_values hlink).2.2
  · exact fun queue hqueue => (hwell.queues.of_mem_values hqueue).2.1
  · exact fun buffer hbuffer => (hwell.buffers.of_mem_values hbuffer).2
  · exact fun path hpath => (hwell.paths.of_mem_values hpath).2.2
  · exact fun flow hflow => (hwell.flows.of_mem_values hflow).2
  · intro id
    have hindex := TopologyBuilder.listAt_uniqueSorted b.links
      (TopologyBuilder.endNodes (b.ports.mapValues fun _ port => port.node.name)) id.name
    rw [← TopologyBuilder.endpointIndex_eq] at hindex
    refine listsIds_adjacent hindex.1 fun name => (hindex.2 name).trans ?_
    exact exists_congr fun link => and_congr_right fun _ => mem_endNodes_iff (t := b.assemble)
  · intro id
    have hindex := TopologyBuilder.listAt_uniqueSorted b.paths
      (fun path => path.hops.map (·.name)) id.name
    rw [← TopologyBuilder.linkToPaths_eq] at hindex
    refine listsIds_adjacent hindex.1 fun name => (hindex.2 name).trans ?_
    refine exists_congr fun path => and_congr_right fun _ => ?_
    exact List.mem_map_of_injective EntityId.name_injective
  · intro id
    have hindex := TopologyBuilder.listAt_uniqueSorted b.flows (fun flow => [flow.path.name]) id.name
    rw [← TopologyBuilder.pushEach_eq] at hindex
    refine listsIds_adjacent hindex.1 fun name => (hindex.2 name).trans ?_
    refine exists_congr fun flow => and_congr_right fun _ => ?_
    rw [List.mem_singleton, eq_comm]
    exact EntityId.name_injective.eq_iff
  · intro id
    have hindex := TopologyBuilder.listAt_sortedLists b.queues (fun queue => queue.link.name) id.name
    rw [← TopologyBuilder.pushEach_eq] at hindex
    refine listsIds_adjacent hindex.1 fun name => (hindex.2 name).trans ?_
    refine exists_congr fun queue => and_congr_right fun _ => ?_
    rw [eq_comm]
    exact EntityId.name_injective.eq_iff
  · intro id
    have hindex := TopologyBuilder.listAt_sortedLists b.buffers (fun buffer => buffer.port.name)
      id.name
    rw [← TopologyBuilder.pushEach_eq] at hindex
    refine listsIds_adjacent hindex.1 fun name => (hindex.2 name).trans ?_
    refine exists_congr fun buffer => and_congr_right fun _ => ?_
    rw [eq_comm]
    exact EntityId.name_injective.eq_iff
  · intro id port hport
    have hmem := OrdMap.find?_eq_some_iff.mp hport
    obtain ⟨node, hnode, hid⟩ := exists_referenced hwell.nodes (hwell.ports _ hmem).2.2
    refine ⟨node, ?_, hnode, hid⟩
    show ((b.ports.mapValues fun _ port => port.node.name).find? id.name).bind _ = some node
    rw [OrdMap.find?_mapValues, show b.ports.find? id.name = some port from hport]
    exact hnode
  · intro id queue hqueue
    have hmem := OrdMap.find?_eq_some_iff.mp hqueue
    obtain ⟨link, hlink, hid⟩ := exists_referenced hwell.links (hwell.queues _ hmem).2.2.1
    refine ⟨link, ?_, hlink, hid⟩
    show ((b.queues.mapValues fun _ queue => queue.link.name).find? id.name).bind _ = some link
    rw [OrdMap.find?_mapValues, show b.queues.find? id.name = some queue from hqueue]
    exact hlink
  · intro id buffer hbuffer
    have hmem := OrdMap.find?_eq_some_iff.mp hbuffer
    obtain ⟨port, hport, hid⟩ := exists_referenced hwell.ports (hwell.buffers _ hmem).2.2
    refine ⟨port, ?_, hport, hid⟩
    show ((b.buffers.mapValues fun _ buffer => buffer.port.name).find? id.name).bind _ = some port
    rw [OrdMap.find?_mapValues, show b.buffers.find? id.name = some buffer from hbuffer]
    exact hport

/-- Both ends of the link are on one node, and the path uses the link twice. -/
theorem loop_indexed :
    (TopologyBuilder.built TopologyBuilder.loopCalls).assemble.Indexed ∧
      (TopologyBuilder.built TopologyBuilder.loopCalls).assemble.linksOfNode
        (EntityId.unchecked (ascii "n")) = [EntityId.unchecked (ascii "l")] ∧
      (TopologyBuilder.built TopologyBuilder.loopCalls).assemble.pathsThroughLink
        (EntityId.unchecked (ascii "l")) = [EntityId.unchecked (ascii "p")] := by
  have hbuilt : (TopologyBuilder.built TopologyBuilder.loopCalls).assemble.Built :=
    ⟨TopologyBuilder.built TopologyBuilder.loopCalls, {},
      TopologyBuilder.reachable_built TopologyBuilder.loopCalls,
      TopologyBuilder.build_loop {} (by decide +kernel)⟩
  exact ⟨indexed_of_built hbuilt, by decide +kernel, by decide +kernel⟩

end Topology

end CongestionObservatory
