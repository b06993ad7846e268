import CongestionObservatory.Model.Topology

/-!
# `CongestionObservatory.Proofs.Model.Topology`: topologies that can be built again

Every builder that the public operations lead to is `WellFormed`: each object stands under its own
valid name, its references resolve and its bounds are consistent. The proof goes over the
operations, with one lemma for each that says when it succeeds and what it adds.

A well-formed collection can be added again, value by value in key order, to a builder with other
limits, as long as its counts are `Within` them: no step fails (`Keyed.next` and the `_again`
lemmas), nor does `build` (`buildCheck_eq_ok`). A reader that adds the objects of a file in the
order they were written therefore gets the written topology.
-/

set_option autoImplicit false

namespace CongestionObservatory

open Lib

/-- Each value stands under its own, valid name and satisfies `P`. -/
def Keyed {ν : Type} (m : OrdMap Name ν) (key : ν → Name) (P : ν → Prop) : Prop :=
  ∀ e ∈ m.entries, key e.2 = e.1 ∧ e.1.valid = true ∧ P e.2

namespace Keyed

variable {ν : Type} {m : OrdMap Name ν} {key : ν → Name} {P Q : ν → Prop}

theorem empty : Keyed OrdMap.empty key P := by
  intro e he
  cases he

theorem mono (h : Keyed m key P) (himp : ∀ v, P v → Q v) : Keyed m key Q := by
  intro e he
  obtain ⟨hkey, hvalid, hP⟩ := h e he
  exact ⟨hkey, hvalid, himp _ hP⟩

theorem emplace (h : Keyed m key P) {v : ν} (hvalid : (key v).valid = true) (hP : P v) :
    Keyed (m.emplace (key v) v) key P := by
  intro e he
  unfold OrdMap.emplace at he
  split at he
  · exact h e he
  · rcases OrdMap.mem_insert he with rfl | he
    · exact ⟨rfl, hvalid, hP⟩
    · exact h e he

theorem of_mem_values (h : Keyed m key P) {v : ν} (hv : v ∈ m.values) :
    (key v).valid = true ∧ P v := by
  obtain ⟨e, he, rfl⟩ := List.mem_map.mp hv
  obtain ⟨hkey, hvalid, hP⟩ := h e he
  exact ⟨by rw [hkey]; exact hvalid, hP⟩

theorem ofValues_values (h : Keyed m key P) : OrdMap.ofValues key m.values = m :=
  OrdMap.ofValues_values key fun e he => (h e he).1

theorem nodup_map_key (h : Keyed m key P) : (m.values.map key).Nodup := by
  have hkeys : m.values.map key = m.keys := by
    rw [OrdMap.values, OrdMap.keys, List.map_map]
    exact List.map_congr_left fun e he => (h e he).1
  rw [hkeys]
  exact m.nodup_keys

/-- The names of a well-formed collection are valid, so a reference into it is. -/
theorem valid_of_contains (h : Keyed m key P) {n : Name} (hn : m.contains n = true) :
    n.valid = true := by
  obtain ⟨v, hv⟩ := Option.isSome_iff_exists.mp hn
  exact (h _ (OrdMap.find?_eq_some_iff.mp hv)).2.1

/-- When the values before it have been added, the next one is new and there is room for it. -/
theorem next (h : Keyed m key P) {before after : List ν} {v : ν}
    (hsplit : m.values = before ++ v :: after) :
    (OrdMap.ofValues key before).find? (key v) = none ∧
      (OrdMap.ofValues key before).size < m.size ∧
      (OrdMap.ofValues key before).values.Perm before := by
  have hnodup := h.nodup_map_key
  rw [hsplit, List.map_append, List.map_cons, List.nodup_append] at hnodup
  have hperm := OrdMap.ofValues_entries_perm key hnodup.1
  have hvalues : (OrdMap.ofValues key before).values.Perm before := by
    have hmap := hperm.map Prod.snd
    rw [List.map_map] at hmap
    exact hmap.trans (List.Perm.of_eq (List.map_id _))
  refine ⟨?_, ?_, hvalues⟩
  · rw [OrdMap.find?_eq_none_iff]
    intro e he
    obtain ⟨w, hw, rfl⟩ := List.mem_map.mp (hperm.mem_iff.mp he)
    exact hnodup.2.2 _ (List.mem_map_of_mem hw) _ List.mem_cons_self
  · have hsize : m.size = before.length + (after.length + 1) := by
      have hlength := congrArg List.length hsplit
      simpa [OrdMap.values, OrdMap.size] using hlength
    have hbefore : (OrdMap.ofValues key before).size = before.length := by
      simpa [OrdMap.size] using hperm.length_eq
    omega

end Keyed

/-- A name that is added does not remove another. -/
theorem contains_emplace {ν : Type} {m : OrdMap Name ν} {k n : Name} {v : ν}
    (h : m.contains n = true) : (m.emplace k v).contains n = true := by
  unfold OrdMap.contains at h ⊢
  rw [OrdMap.find?_emplace]
  split
  · rfl
  · exact h

namespace TopologyBuilder

variable {b b' : TopologyBuilder}

/-! ### When an operation succeeds -/

theorem duplicateCheck_eq_ok {ν : Type} {map : OrdMap Name ν} {id : Name} {what : String} :
    duplicateCheck map id what = .ok () ↔ id.valid = true ∧ map.find? id = none := by
  unfold duplicateCheck
  rw [seq_eq_ok, failIf_eq_ok, failIf_eq_ok]
  cases hfind : map.find? id with
  | none => simp [OrdMap.contains, hfind]
  | some v => simp [OrdMap.contains, hfind]

theorem capacityCheck_eq_ok {size maximum : Nat} {what : String} :
    capacityCheck size maximum what = .ok () ↔ size < maximum := by
  rw [capacityCheck, failIf_eq_ok]
  omega

theorem addNode_eq_ok {node : Node} : b.addNode node = .ok b' ↔
    (node.id.name.valid = true ∧ b.nodes.find? node.id.name = none) ∧
      b.nodes.size < b.limits.maxNodes ∧ node.labels.length ≤ b.limits.maxLabels ∧
      b' = { b with nodes := b.nodes.emplace node.id.name node } := by
  unfold addNode
  rw [seq_eq_ok, seq_eq_ok, seq_eq_ok, duplicateCheck_eq_ok, capacityCheck_eq_ok, failIf_eq_ok]
  simp [pure_eq_ok]

theorem addPort_eq_ok {port : Port} : b.addPort port = .ok b' ↔
    (port.id.name.valid = true ∧ b.ports.find? port.id.name = none) ∧
      b.ports.size < b.limits.maxPorts ∧ b.nodes.contains port.node.name = true ∧
      b.ports.values.countP (fun other => other.node = port.node) < b.limits.maxPortsPerNode ∧
      b' = { b with ports := b.ports.emplace port.id.name port } := by
  unfold addPort
  rw [seq_eq_ok, seq_eq_ok, seq_eq_ok, seq_eq_ok, duplicateCheck_eq_ok, capacityCheck_eq_ok,
    failIf_eq_ok, failIf_eq_ok]
  simp [pure_eq_ok]

theorem addLink_eq_ok {link : Link} : b.addLink link = .ok b' ↔
    (link.id.name.valid = true ∧ b.links.find? link.id.name = none) ∧
      b.links.size < b.limits.maxLinks ∧ link.endpointA ≠ link.endpointB ∧
      (b.ports.contains link.endpointA.name = true ∧
        b.ports.contains link.endpointB.name = true) ∧
      b' = { b with links := b.links.emplace link.id.name link } := by
  unfold addLink
  rw [seq_eq_ok, seq_eq_ok, seq_eq_ok, seq_eq_ok, duplicateCheck_eq_ok, capacityCheck_eq_ok,
    failIf_eq_ok, failIf_eq_ok]
  simp [pure_eq_ok]

theorem addQueue_eq_ok {queue : Queue} : b.addQueue queue = .ok b' ↔
    (queue.id.name.valid = true ∧ b.queues.find? queue.id.name = none) ∧
      b.queues.size < b.limits.maxQueues ∧ b.links.contains queue.link.name = true ∧
      ¬ (queue.minShareBp > queue.maxShareBp ∨ queue.maxShareBp > 10000) ∧
      b' = { b with queues := b.queues.emplace queue.id.name queue } := by
  unfold addQueue
  rw [seq_eq_ok, seq_eq_ok, seq_eq_ok, seq_eq_ok, duplicateCheck_eq_ok, capacityCheck_eq_ok,
    failIf_eq_ok, failIf_eq_ok]
  simp [pure_eq_ok]

theorem addBuffer_eq_ok {buffer : Buffer} : b.addBuffer buffer = .ok b' ↔
    (buffer.id.name.valid = true ∧ b.buffers.find? buffer.id.name = none) ∧
      b.buffers.size < b.limits.maxBuffers ∧ b.ports.contains buffer.port.name = true ∧
      b' = { b with buffers := b.buffers.emplace buffer.id.name buffer } := by
  unfold addBuffer
  rw [seq_eq_ok, seq_eq_ok, seq_eq_ok, duplicateCheck_eq_ok, capacityCheck_eq_ok, failIf_eq_ok]
  simp [pure_eq_ok]

theorem checkAll_hopCheck {links : OrdMap Name Link} {hops : List LinkId} :
    checkAll (hopCheck links) hops = .ok () ↔ ∀ hop ∈ hops, links.contains hop.name = true := by
  rw [checkAll_eq_ok]
  simp only [hopCheck, failIf_eq_ok, not_not]

theorem addPath_eq_ok {path : Path} : b.addPath path = .ok b' ↔
    (path.id.name.valid = true ∧ b.paths.find? path.id.name = none) ∧
      b.paths.size < b.limits.maxPaths ∧ path.hops ≠ [] ∧
      path.hops.length ≤ b.limits.maxPathHops ∧
      (∀ hop ∈ path.hops, b.links.contains hop.name = true) ∧
      b' = { b with paths := b.paths.emplace path.id.name path } := by
  unfold addPath
  rw [seq_eq_ok, seq_eq_ok, seq_eq_ok, seq_eq_ok, seq_eq_ok, duplicateCheck_eq_ok,
    capacityCheck_eq_ok, failIf_eq_ok, failIf_eq_ok, checkAll_hopCheck]
  simp [pure_eq_ok]

theorem addFlow_eq_ok {flow : Flow} : b.addFlow flow = .ok b' ↔
    (flow.id.name.valid = true ∧ b.flows.find? flow.id.name = none) ∧
      b.flows.size < b.limits.maxFlows ∧ b.paths.contains flow.path.name = true ∧
      b' = { b with flows := b.flows.emplace flow.id.name flow } := by
  unfold addFlow
  rw [seq_eq_ok, seq_eq_ok, seq_eq_ok, duplicateCheck_eq_ok, capacityCheck_eq_ok, failIf_eq_ok]
  simp [pure_eq_ok]

/-! ### Well-formed builders -/

/-- Each object has a valid name of its own, its references resolve and its bounds are
consistent. -/
structure WellFormed (b : TopologyBuilder) : Prop where
  nodes : Keyed b.nodes (·.id.name) fun _ => True
  ports : Keyed b.ports (·.id.name) fun port => b.nodes.contains port.node.name = true
  links : Keyed b.links (·.id.name) fun link => link.endpointA ≠ link.endpointB ∧
    b.ports.contains link.endpointA.name = true ∧ b.ports.contains link.endpointB.name = true
  queues : Keyed b.queues (·.id.name) fun queue => b.links.contains queue.link.name = true ∧
    ¬ (queue.minShareBp > queue.maxShareBp ∨ queue.maxShareBp > 10000)
  buffers : Keyed b.buffers (·.id.name) fun buffer => b.ports.contains buffer.port.name = true
  paths : Keyed b.paths (·.id.name) fun path => path.hops ≠ [] ∧
    ∀ hop ∈ path.hops, b.links.contains hop.name = true
  flows : Keyed b.flows (·.id.name) fun flow => b.paths.contains flow.path.name = true

/-- An operation adds an object that passed its checks, and the references of the others still
resolve. -/
theorem wellFormed_of_reachable (h : Reachable b) : b.WellFormed := by
  -- A new object only has to be checked itself: a table that grows keeps what others refer to.
  induction h with
  | new => exact ⟨.empty, .empty, .empty, .empty, .empty, .empty, .empty⟩
  | setGeneration generation h ih => exact ⟨ih.1, ih.2, ih.3, ih.4, ih.5, ih.6, ih.7⟩
  | setRevisionLabel label h ih => exact ⟨ih.1, ih.2, ih.3, ih.4, ih.5, ih.6, ih.7⟩
  | setLimits limits h ih => exact ⟨ih.1, ih.2, ih.3, ih.4, ih.5, ih.6, ih.7⟩
  | addNode h hadd ih =>
      obtain ⟨⟨hvalid, -⟩, -, -, rfl⟩ := addNode_eq_ok.mp hadd
      exact ⟨ih.nodes.emplace hvalid trivial, ih.ports.mono fun port hport => contains_emplace hport,
        ih.3, ih.4, ih.5, ih.6, ih.7⟩
  | addPort h hadd ih =>
      obtain ⟨⟨hvalid, -⟩, -, hnode, -, rfl⟩ := addPort_eq_ok.mp hadd
      exact ⟨ih.1, ih.ports.emplace hvalid hnode,
        ih.links.mono fun link hlink =>
          ⟨hlink.1, contains_emplace hlink.2.1, contains_emplace hlink.2.2⟩,
        ih.4, ih.buffers.mono fun buffer hbuffer => contains_emplace hbuffer, ih.6, ih.7⟩
  | addLink h hadd ih =>
      obtain ⟨⟨hvalid, -⟩, -, hne, hends, rfl⟩ := addLink_eq_ok.mp hadd
      exact ⟨ih.1, ih.2, ih.links.emplace hvalid ⟨hne, hends⟩,
        ih.queues.mono fun queue hqueue => ⟨contains_emplace hqueue.1, hqueue.2⟩, ih.5,
        ih.paths.mono fun path hpath =>
          ⟨hpath.1, fun hop hhop => contains_emplace (hpath.2 hop hhop)⟩, ih.7⟩
  | addQueue h hadd ih =>
      obtain ⟨⟨hvalid, -⟩, -, hlink, hshares, rfl⟩ := addQueue_eq_ok.mp hadd
      exact ⟨ih.1, ih.2, ih.3, ih.queues.emplace hvalid ⟨hlink, hshares⟩, ih.5, ih.6, ih.7⟩
  | addBuffer h hadd ih =>
      obtain ⟨⟨hvalid, -⟩, -, hport, rfl⟩ := addBuffer_eq_ok.mp hadd
      exact ⟨ih.1, ih.2, ih.3, ih.4, ih.buffers.emplace hvalid hport, ih.6, ih.7⟩
  | addPath h hadd ih =>
      obtain ⟨⟨hvalid, -⟩, -, hhops, -, hlinks, rfl⟩ := addPath_eq_ok.mp hadd
      exact ⟨ih.1, ih.2, ih.3, ih.4, ih.5, ih.paths.emplace hvalid ⟨hhops, hlinks⟩,
        ih.flows.mono fun flow hflow => contains_emplace hflow⟩
  | addFlow h hadd ih =>
      obtain ⟨⟨hvalid, -⟩, -, hpath, rfl⟩ := addFlow_eq_ok.mp hadd
      exact ⟨ih.1, ih.2, ih.3, ih.4, ih.5, ih.6, ih.flows.emplace hvalid hpath⟩

/-! ### Adding everything again -/

/-- The counts of the collections and of each object are within the limits. -/
structure Within (b : TopologyBuilder) (limits : Limits) : Prop where
  nodes : b.nodes.size ≤ limits.maxNodes
  ports : b.ports.size ≤ limits.maxPorts
  links : b.links.size ≤ limits.maxLinks
  queues : b.queues.size ≤ limits.maxQueues
  buffers : b.buffers.size ≤ limits.maxBuffers
  paths : b.paths.size ≤ limits.maxPaths
  flows : b.flows.size ≤ limits.maxFlows
  labels : ∀ node ∈ b.nodes.values, node.labels.length ≤ limits.maxLabels
  portsPerNode : ∀ node, b.ports.values.countP (fun port => port.node = node)
    ≤ limits.maxPortsPerNode
  hops : ∀ path ∈ b.paths.values, path.hops.length ≤ limits.maxPathHops

theorem ReachableUnder.reachable {limits : Limits} (h : ReachableUnder limits b) :
    Reachable b := by
  induction h with
  | new => exact .setLimits limits .new
  | setGeneration generation h ih => exact .setGeneration generation ih
  | setRevisionLabel label h ih => exact .setRevisionLabel label ih
  | addNode h hadd ih => exact .addNode ih hadd
  | addPort h hadd ih => exact .addPort ih hadd
  | addLink h hadd ih => exact .addLink ih hadd
  | addQueue h hadd ih => exact .addQueue ih hadd
  | addBuffer h hadd ih => exact .addBuffer ih hadd
  | addPath h hadd ih => exact .addPath ih hadd
  | addFlow h hadd ih => exact .addFlow ih hadd

/-- Every addition checks its bounds, so the counts stay within the limits of the builder. -/
theorem within_of_reachableUnder {limits : Limits} (h : ReachableUnder limits b) :
    b.limits = limits ∧ b.Within limits := by
  induction h with
  | new =>
      refine ⟨rfl, ?_⟩
      constructor <;> simp [OrdMap.size, OrdMap.values, OrdMap.empty]
  | setGeneration generation h ih => exact ⟨ih.1, ⟨ih.2.1, ih.2.2, ih.2.3, ih.2.4, ih.2.5, ih.2.6,
      ih.2.7, ih.2.8, ih.2.9, ih.2.10⟩⟩
  | setRevisionLabel label h ih => exact ⟨ih.1, ⟨ih.2.1, ih.2.2, ih.2.3, ih.2.4, ih.2.5, ih.2.6,
      ih.2.7, ih.2.8, ih.2.9, ih.2.10⟩⟩
  | addNode h hadd ih =>
      obtain ⟨hlimits, hwithin⟩ := ih
      obtain ⟨-, hsize, hlabels, rfl⟩ := addNode_eq_ok.mp hadd
      rw [hlimits] at hsize hlabels
      refine ⟨hlimits, { hwithin with nodes := OrdMap.size_emplace_le hsize, labels := ?_ }⟩
      intro node hnode
      rcases OrdMap.mem_values_emplace hnode with rfl | hnode
      · exact hlabels
      · exact hwithin.labels node hnode
  | addPort h hadd ih =>
      obtain ⟨hlimits, hwithin⟩ := ih
      obtain ⟨⟨-, hnew⟩, hsize, -, hcount, rfl⟩ := addPort_eq_ok.mp hadd
      rw [hlimits] at hsize hcount
      refine ⟨hlimits, { hwithin with ports := OrdMap.size_emplace_le hsize, portsPerNode := ?_ }⟩
      intro node
      show ((OrdMap.emplace _ _ _).values.countP fun other : Port => other.node = node) ≤ _
      rw [OrdMap.emplace_of_new hnew, (OrdMap.values_insert_perm hnew).countP_eq, List.countP_cons]
      have hother := hwithin.portsPerNode node
      split
      · -- One more port of this node, which the check on the ports of a node has allowed.
        rename_i heq
        have hnode := of_decide_eq_true heq
        subst hnode
        exact hcount
      · exact hother
  | addLink h hadd ih =>
      obtain ⟨hlimits, hwithin⟩ := ih
      obtain ⟨-, hsize, -, -, rfl⟩ := addLink_eq_ok.mp hadd
      rw [hlimits] at hsize
      exact ⟨hlimits, { hwithin with links := OrdMap.size_emplace_le hsize }⟩
  | addQueue h hadd ih =>
      obtain ⟨hlimits, hwithin⟩ := ih
      obtain ⟨-, hsize, -, -, rfl⟩ := addQueue_eq_ok.mp hadd
      rw [hlimits] at hsize
      exact ⟨hlimits, { hwithin with queues := OrdMap.size_emplace_le hsize }⟩
  | addBuffer h hadd ih =>
      obtain ⟨hlimits, hwithin⟩ := ih
      obtain ⟨-, hsize, -, rfl⟩ := addBuffer_eq_ok.mp hadd
      rw [hlimits] at hsize
      exact ⟨hlimits, { hwithin with buffers := OrdMap.size_emplace_le hsize }⟩
  | addPath h hadd ih =>
      obtain ⟨hlimits, hwithin⟩ := ih
      obtain ⟨-, hsize, -, hhops, -, rfl⟩ := addPath_eq_ok.mp hadd
      rw [hlimits] at hsize hhops
      refine ⟨hlimits, { hwithin with paths := OrdMap.size_emplace_le hsize, hops := ?_ }⟩
      intro path hpath
      rcases OrdMap.mem_values_emplace hpath with rfl | hpath
      · exact hhops
      · exact hwithin.hops path hpath
  | addFlow h hadd ih =>
      obtain ⟨hlimits, hwithin⟩ := ih
      obtain ⟨-, hsize, -, rfl⟩ := addFlow_eq_ok.mp hadd
      rw [hlimits] at hsize
      exact ⟨hlimits, { hwithin with flows := OrdMap.size_emplace_le hsize }⟩

theorem mem_of_split {α : Type} {l before after : List α} {a : α} (h : l = before ++ a :: after) :
    a ∈ l := by
  rw [h]
  simp

section

variable (start : TopologyBuilder)

theorem addNode_again (h : b.WellFormed) (hwithin : b.Within start.limits)
    {before after : List Node} {node : Node} (hsplit : b.nodes.values = before ++ node :: after) :
    { start with nodes := OrdMap.ofValues (·.id.name) before }.addNode node
      = .ok { start with nodes := OrdMap.ofValues (·.id.name) (before ++ [node]) } := by
  have hmem := mem_of_split hsplit
  obtain ⟨hnew, hsize, -⟩ := h.nodes.next hsplit
  rw [addNode_eq_ok, OrdMap.ofValues_append]
  exact ⟨⟨(h.nodes.of_mem_values hmem).1, hnew⟩, lt_of_lt_of_le hsize hwithin.nodes,
    hwithin.labels node hmem, rfl⟩

theorem addPort_again (h : b.WellFormed) (hwithin : b.Within start.limits)
    (hnodes : start.nodes = b.nodes) {before after : List Port} {port : Port}
    (hsplit : b.ports.values = before ++ port :: after) :
    { start with ports := OrdMap.ofValues (·.id.name) before }.addPort port
      = .ok { start with ports := OrdMap.ofValues (·.id.name) (before ++ [port]) } := by
  have hmem := mem_of_split hsplit
  obtain ⟨hnew, hsize, hperm⟩ := h.ports.next hsplit
  obtain ⟨hvalid, hnode⟩ := h.ports.of_mem_values hmem
  -- The ports of the node that were added before it are fewer than all of its ports.
  have hcount := hwithin.portsPerNode port.node
  rw [hsplit, List.countP_append, List.countP_cons_of_pos (by simp)] at hcount
  rw [addPort_eq_ok, OrdMap.ofValues_append]
  refine ⟨⟨hvalid, hnew⟩, lt_of_lt_of_le hsize hwithin.ports, ?_, ?_, rfl⟩
  · show start.nodes.contains port.node.name = true
    rw [hnodes]
    exact hnode
  · show (OrdMap.ofValues _ before).values.countP _ < start.limits.maxPortsPerNode
    rw [hperm.countP_eq]
    omega

theorem addLink_again (h : b.WellFormed) (hwithin : b.Within start.limits)
    (hports : start.ports = b.ports) {before after : List Link} {link : Link}
    (hsplit : b.links.values = before ++ link :: after) :
    { start with links := OrdMap.ofValues (·.id.name) before }.addLink link
      = .ok { start with links := OrdMap.ofValues (·.id.name) (before ++ [link]) } := by
  obtain ⟨hnew, hsize, -⟩ := h.links.next hsplit
  obtain ⟨hvalid, hne, hends⟩ := h.links.of_mem_values (mem_of_split hsplit)
  rw [addLink_eq_ok, OrdMap.ofValues_append]
  refine ⟨⟨hvalid, hnew⟩, lt_of_lt_of_le hsize hwithin.links, hne, ?_, rfl⟩
  show start.ports.contains link.endpointA.name = true ∧
    start.ports.contains link.endpointB.name = true
  rw [hports]
  exact hends

theorem addQueue_again (h : b.WellFormed) (hwithin : b.Within start.limits)
    (hlinks : start.links = b.links) {before after : List Queue} {queue : Queue}
    (hsplit : b.queues.values = before ++ queue :: after) :
    { start with queues := OrdMap.ofValues (·.id.name) before }.addQueue queue
      = .ok { start with queues := OrdMap.ofValues (·.id.name) (before ++ [queue]) } := by
  obtain ⟨hnew, hsize, -⟩ := h.queues.next hsplit
  obtain ⟨hvalid, hlink, hshares⟩ := h.queues.of_mem_values (mem_of_split hsplit)
  rw [addQueue_eq_ok, OrdMap.ofValues_append]
  refine ⟨⟨hvalid, hnew⟩, lt_of_lt_of_le hsize hwithin.queues, ?_, hshares, rfl⟩
  show start.links.contains queue.link.name = true
  rw [hlinks]
  exact hlink

theorem addBuffer_again (h : b.WellFormed) (hwithin : b.Within start.limits)
    (hports : start.ports = b.ports) {before after : List Buffer} {buffer : Buffer}
    (hsplit : b.buffers.values = before ++ buffer :: after) :
    { start with buffers := OrdMap.ofValues (·.id.name) before }.addBuffer buffer
      = .ok { start with buffers := OrdMap.ofValues (·.id.name) (before ++ [buffer]) } := by
  obtain ⟨hnew, hsize, -⟩ := h.buffers.next hsplit
  obtain ⟨hvalid, hport⟩ := h.buffers.of_mem_values (mem_of_split hsplit)
  rw [addBuffer_eq_ok, OrdMap.ofValues_append]
  refine ⟨⟨hvalid, hnew⟩, lt_of_lt_of_le hsize hwithin.buffers, ?_, rfl⟩
  show start.ports.contains buffer.port.name = true
  rw [hports]
  exact hport

theorem addPath_again (h : b.WellFormed) (hwithin : b.Within start.limits)
    (hlinks : start.links = b.links) {before after : List Path} {path : Path}
    (hsplit : b.paths.values = before ++ path :: after) :
    { start with paths := OrdMap.ofValues (·.id.name) before }.addPath path
      = .ok { start with paths := OrdMap.ofValues (·.id.name) (before ++ [path]) } := by
  have hmem := mem_of_split hsplit
  obtain ⟨hnew, hsize, -⟩ := h.paths.next hsplit
  obtain ⟨hvalid, hne, hhops⟩ := h.paths.of_mem_values hmem
  rw [addPath_eq_ok, OrdMap.ofValues_append]
  refine ⟨⟨hvalid, hnew⟩, lt_of_lt_of_le hsize hwithin.paths, hne, hwithin.hops path hmem, ?_, rfl⟩
  show ∀ hop ∈ path.hops, start.links.contains hop.name = true
  rw [hlinks]
  exact hhops

theorem addFlow_again (h : b.WellFormed) (hwithin : b.Within start.limits)
    (hpaths : start.paths = b.paths) {before after : List Flow} {flow : Flow}
    (hsplit : b.flows.values = before ++ flow :: after) :
    { start with flows := OrdMap.ofValues (·.id.name) before }.addFlow flow
      = .ok { start with flows := OrdMap.ofValues (·.id.name) (before ++ [flow]) } := by
  obtain ⟨hnew, hsize, -⟩ := h.flows.next hsplit
  obtain ⟨hvalid, hpath⟩ := h.flows.of_mem_values (mem_of_split hsplit)
  rw [addFlow_eq_ok, OrdMap.ofValues_append]
  refine ⟨⟨hvalid, hnew⟩, lt_of_lt_of_le hsize hwithin.flows, ?_, rfl⟩
  show start.paths.contains flow.path.name = true
  rw [hpaths]
  exact hpath

end

/-- A well-formed builder within the limits is built. -/
theorem buildCheck_eq_ok {limits : Limits} (h : b.WellFormed) (hwithin : b.Within limits) :
    b.buildCheck limits = .ok () := by
  unfold buildCheck
  rw [seq_eq_ok, seq_eq_ok, seq_eq_ok, seq_eq_ok, seq_eq_ok, seq_eq_ok]
  simp only [checkAll_eq_ok, hopCheck, failIf_eq_ok, not_not, not_or]
  obtain ⟨hnodes, hports, hlinks, hqueues, hbuffers, hpaths, hflows, -, -, -⟩ := hwithin
  refine ⟨by omega, ?_, ?_, ?_, ?_, ?_, ?_⟩
  · exact fun port hport => (h.ports.of_mem_values hport).2
  · exact fun link hlink => (h.links.of_mem_values hlink).2.2
  · exact fun queue hqueue => (h.queues.of_mem_values hqueue).2.1
  · exact fun buffer hbuffer => (h.buffers.of_mem_values hbuffer).2
  · exact fun path hpath => (h.paths.of_mem_values hpath).2.2
  · exact fun flow hflow => (h.flows.of_mem_values hflow).2

end TopologyBuilder

namespace Topology

/-- The builder with the collections of a topology. -/
def toBuilder (t : Topology) (limits : Limits) : TopologyBuilder :=
  { generation := t.generation, revisionLabel := t.revisionLabel, limits := limits
    nodes := t.nodes, ports := t.ports, links := t.links, queues := t.queues
    buffers := t.buffers, paths := t.paths, flows := t.flows }

/-- A topology that was built has well-formed collections, and its indexes are those of its
collections. -/
theorem Built.toBuilder {t : Topology} (h : t.Built) (limits : Limits) :
    (t.toBuilder limits).WellFormed ∧ (t.toBuilder limits).assemble = t := by
  obtain ⟨b, limits₀, hreachable, hbuild⟩ := h
  obtain ⟨-, hassemble⟩ := seq_eq_ok.mp hbuild
  cases hassemble
  have hwell := TopologyBuilder.wellFormed_of_reachable hreachable
  exact ⟨⟨hwell.1, hwell.2, hwell.3, hwell.4, hwell.5, hwell.6, hwell.7⟩, rfl⟩

/-- A topology that was built under some limits is a built one, and within these limits. -/
theorem BuiltUnder.built {t : Topology} {limits : Limits} (h : t.BuiltUnder limits) :
    t.Built ∧ (t.toBuilder limits).Within limits := by
  obtain ⟨b, hreachable, hbuild⟩ := h
  refine ⟨⟨b, limits, hreachable.reachable, hbuild⟩, ?_⟩
  obtain ⟨-, hwithin⟩ := TopologyBuilder.within_of_reachableUnder hreachable
  obtain ⟨-, hassemble⟩ := seq_eq_ok.mp hbuild
  cases hassemble
  exact ⟨hwithin.1, hwithin.2, hwithin.3, hwithin.4, hwithin.5, hwithin.6, hwithin.7, hwithin.8,
    hwithin.9, hwithin.10⟩

end Topology

end CongestionObservatory
