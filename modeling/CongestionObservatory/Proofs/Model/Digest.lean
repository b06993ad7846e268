import CongestionObservatory.Proofs.Model.Bounds
import CongestionObservatory.Proofs.Model.Encoding

/-!
# `CongestionObservatory.Proofs.Model.Digest`: what the digest of a topology identifies

`Topology::digest` hashes one text: the pieces of a header and of the objects of seven collections,
put together. Few of the pieces are separated, and no piece says how long it is. `layout` is what
the text leaves out: how many objects there are and how long their pieces are.

Topologies of one layout have different texts (`eq_of_layout`), and so have topologies of different
generations or labels (`header_of_digestBytes`). Otherwise the text identifies a topology only when
it has no node. To any other one an empty label can be added
to every node: `withEmptyLabels` is a topology that was built as well, and its text is the same.
-/

set_option autoImplicit false

namespace CongestionObservatory

open Lib StableHasher

/-! ### The hashed text -/

/-- What is fed for a node. -/
def Node.pieces (node : Node) : List Text :=
  [node.id.str, leBytes64 (toUnderlying node.kind).toUInt64] ++ node.labels.map Name.str
    ++ [[separatorByte]]

/-- What is fed for a port. -/
def Port.pieces (port : Port) : List Text := [port.id.str, port.node.str, leBytes64 port.speedBps]

/-- What is fed for a link. -/
def Link.pieces (link : Link) : List Text :=
  [link.id.str, link.endpointA.str, link.endpointB.str, leBytes64 link.capacityBps]

/-- What is fed for a queue. -/
def Queue.pieces (queue : Queue) : List Text :=
  [queue.id.str, queue.link.str, leBytes64 queue.index.toUInt64,
    leBytes64 queue.minShareBp.toUInt64, leBytes64 queue.maxShareBp.toUInt64]

/-- What is fed for a buffer. -/
def Buffer.pieces (buffer : Buffer) : List Text :=
  [buffer.id.str, buffer.port.str, leBytes64 buffer.pool.toUInt64, leBytes64 buffer.cells]

/-- What is fed for a path. -/
def Path.pieces (path : Path) : List Text :=
  [path.id.str] ++ path.hops.map EntityId.str ++ [[separatorByte]]

/-- What is fed for a flow. -/
def Flow.pieces (flow : Flow) : List Text :=
  [flow.id.str, flow.path.str, flow.tenant.str, flow.trafficClass.str]

namespace Topology

/-- What is fed before the objects. -/
def header (t : Topology) : List Text :=
  [t.generation.bytes, t.revisionLabel.str, [separatorByte]]

/-- The header, then the objects of the seven collections. -/
def sections (t : Topology) : List (List (List Text)) :=
  [[t.header], t.nodes.values.map Node.pieces, t.ports.values.map Port.pieces,
    t.links.values.map Link.pieces, t.queues.values.map Queue.pieces,
    t.buffers.values.map Buffer.pieces, t.paths.values.map Path.pieces,
    t.flows.values.map Flow.pieces]

/-- What `Topology::digest` feeds. -/
def digestBytes (t : Topology) : Text := t.sections.flatten.flatten.flatten

/-- How many objects each collection has and how long their pieces are. -/
def layout (t : Topology) : List (List (List Nat)) :=
  t.sections.map fun objects => objects.map fun pieces => pieces.map List.length

end Topology

/-- What is fed for a list of objects, one after the other. -/
theorem flatten_pieces {α : Type} (pieces : α → List Text) (objects : List α) :
    (objects.map pieces).flatten.flatten = objects.flatMap fun object => (pieces object).flatten := by
  induction objects with
  | nil => rfl
  | cons object objects ih =>
      rw [List.map_cons, List.flatten_cons, List.flatten_append, ih, List.flatMap_cons]

/-- A piece after the other. -/
theorem update_flatten_cons (h : StableHasher) (piece : Text) (pieces : List Text) :
    h.update (piece :: pieces).flatten = (h.update piece).update pieces.flatten := by
  rw [List.flatten_cons, update_append]

theorem update_flatten_nil (h : StableHasher) : h.update [].flatten = h := rfl

theorem update_nodePieces (h : StableHasher) (node : Node) :
    (node.labels.foldl (fun h label => h.update label.str)
        ((h.update node.id.str).updateU64 (toUnderlying node.kind).toUInt64)).separator
      = h.update node.pieces.flatten := by
  rw [foldl_update _ Name.str fun _ _ => rfl, Node.pieces, List.flatten_append, update_append,
    List.flatten_append, update_append]
  simp only [update_flatten_cons, update_flatten_nil, List.flatMap_def, updateU64, separator,
    updateU8, separatorByte]

theorem update_pathPieces (h : StableHasher) (path : Path) :
    (path.hops.foldl (fun h hop => h.update hop.str) (h.update path.id.str)).separator
      = h.update path.pieces.flatten := by
  rw [foldl_update _ EntityId.str fun _ _ => rfl, Path.pieces, List.flatten_append, update_append,
    List.flatten_append, update_append]
  simp only [update_flatten_cons, update_flatten_nil, List.flatMap_def, separator, updateU8,
    separatorByte]

/-- The digest is the hash of the text. -/
theorem Topology.digest_eq (t : Topology) :
    t.digest = (({} : StableHasher).update t.digestBytes).digest64 := by
  have hports : ∀ (h : StableHasher) (port : Port), ((h.update port.id.str).update
      port.node.str).updateU64 port.speedBps = h.update port.pieces.flatten := by
    intro h port
    simp only [Port.pieces, update_flatten_cons, update_flatten_nil, updateU64]
  have hlinks : ∀ (h : StableHasher) (link : Link), (((h.update link.id.str).update
      link.endpointA.str).update link.endpointB.str).updateU64 link.capacityBps
        = h.update link.pieces.flatten := by
    intro h link
    simp only [Link.pieces, update_flatten_cons, update_flatten_nil, updateU64]
  have hqueues : ∀ (h : StableHasher) (queue : Queue), ((((h.update queue.id.str).update
      queue.link.str).updateU64 queue.index.toUInt64).updateU64 queue.minShareBp.toUInt64).updateU64
        queue.maxShareBp.toUInt64 = h.update queue.pieces.flatten := by
    intro h queue
    simp only [Queue.pieces, update_flatten_cons, update_flatten_nil, updateU64]
  have hbuffers : ∀ (h : StableHasher) (buffer : Buffer), (((h.update buffer.id.str).update
      buffer.port.str).updateU64 buffer.pool.toUInt64).updateU64 buffer.cells
        = h.update buffer.pieces.flatten := by
    intro h buffer
    simp only [Buffer.pieces, update_flatten_cons, update_flatten_nil, updateU64]
  have hflows : ∀ (h : StableHasher) (flow : Flow), (((h.update flow.id.str).update
      flow.path.str).update flow.tenant.str).update flow.trafficClass.str
        = h.update flow.pieces.flatten := by
    intro h flow
    simp only [Flow.pieces, update_flatten_cons, update_flatten_nil]
  simp only [digest, digestBytes, sections, List.flatten_cons, List.flatten_append,
    List.flatten_nil, List.append_nil, flatten_pieces, update_append,
    foldl_update _ _ update_nodePieces, foldl_update _ _ hports, foldl_update _ _ hlinks,
    foldl_update _ _ hqueues, foldl_update _ _ hbuffers, foldl_update _ _ update_pathPieces,
    foldl_update _ _ hflows]
  simp only [header, GenerationVector.bytes, update_flatten_cons, update_flatten_nil, update_append,
    updateU64, separator, updateU8, separatorByte]

/-! ### Topologies of one layout -/

/-- Texts of the same lengths are found in what they make together. -/
theorem nested_eq {σ : Type} {l m : List (List (List (List σ)))}
    (hlayout : (l.map fun objects => objects.map fun pieces => pieces.map List.length)
      = m.map fun objects => objects.map fun pieces => pieces.map List.length)
    (hflat : l.flatten.flatten.flatten = m.flatten.flatten.flatten) : l = m := by
  have hlengths : l.flatten.flatten.map List.length = m.flatten.flatten.map List.length := by
    have h := congrArg (fun n => n.flatten.flatten) hlayout
    simp only [← List.map_flatten] at h
    exact h
  have hpieces : l.flatten.map List.length = m.flatten.map List.length := by
    have h := congrArg (fun n => n.flatten.map List.length) hlayout
    simp only [← List.map_flatten, List.map_map, Function.comp_def, List.length_map] at h
    exact h
  have hobjects : l.map List.length = m.map List.length := by
    have h := congrArg (List.map List.length) hlayout
    simp only [List.map_map, Function.comp_def, List.length_map] at h
    exact h
  exact List.eq_iff_flatten_eq.mpr ⟨List.eq_iff_flatten_eq.mpr
    ⟨List.eq_iff_flatten_eq.mpr ⟨hflat, hlengths⟩, hpieces⟩, hobjects⟩

theorem Node.pieces_injective : Function.Injective Node.pieces := by
  rintro ⟨id, kind, labels⟩ ⟨id', kind', labels'⟩ h
  simp only [pieces, List.cons_append, List.nil_append, List.cons.injEq, EntityId.str_inj,
    leBytes64_injective.eq_iff, enum8_toUInt64_inj] at h
  obtain ⟨rfl, rfl, hlabels⟩ := h
  rw [Name.str_injective.list_map (List.append_cancel_right hlabels)]

theorem Port.pieces_injective : Function.Injective Port.pieces := by
  rintro ⟨id, node, speed⟩ ⟨id', node', speed'⟩ h
  simp only [pieces, List.cons.injEq, EntityId.str_inj, leBytes64_injective.eq_iff] at h
  obtain ⟨rfl, rfl, rfl, -⟩ := h
  rfl

theorem Link.pieces_injective : Function.Injective Link.pieces := by
  rintro ⟨id, a, b, capacity⟩ ⟨id', a', b', capacity'⟩ h
  simp only [pieces, List.cons.injEq, EntityId.str_inj, leBytes64_injective.eq_iff] at h
  obtain ⟨rfl, rfl, rfl, rfl, -⟩ := h
  rfl

theorem Queue.pieces_injective : Function.Injective Queue.pieces := by
  rintro ⟨id, link, index, low, high⟩ ⟨id', link', index', low', high'⟩ h
  simp only [pieces, List.cons.injEq, EntityId.str_inj, leBytes64_injective.eq_iff,
    UInt32.toUInt64_inj] at h
  obtain ⟨rfl, rfl, rfl, rfl, rfl, -⟩ := h
  rfl

theorem Buffer.pieces_injective : Function.Injective Buffer.pieces := by
  rintro ⟨id, port, pool, cells⟩ ⟨id', port', pool', cells'⟩ h
  simp only [pieces, List.cons.injEq, EntityId.str_inj, leBytes64_injective.eq_iff,
    UInt32.toUInt64_inj] at h
  obtain ⟨rfl, rfl, rfl, rfl, -⟩ := h
  rfl

theorem Path.pieces_injective : Function.Injective Path.pieces := by
  rintro ⟨id, hops⟩ ⟨id', hops'⟩ h
  simp only [pieces, List.cons_append, List.nil_append, List.cons.injEq, EntityId.str_inj] at h
  obtain ⟨rfl, hhops⟩ := h
  have hstr : Function.Injective (EntityId.str : LinkId → Text) := fun _ _ => EntityId.str_inj.mp
  rw [hstr.list_map (List.append_cancel_right hhops)]

theorem Flow.pieces_injective : Function.Injective Flow.pieces := by
  rintro ⟨id, path, tenant, trafficClass⟩ ⟨id', path', tenant', trafficClass'⟩ h
  simp only [pieces, List.cons.injEq, EntityId.str_inj] at h
  obtain ⟨rfl, rfl, rfl, rfl, -⟩ := h
  rfl

namespace Topology

/-- Each name stands under itself, so the objects of a collection determine the collection. -/
theorem eq_of_values {ν : Type} {m n : OrdMap Name ν} {key : ν → Name} {P Q : ν → Prop}
    (hm : Keyed m key P) (hn : Keyed n key Q) (h : m.values = n.values) : m = n := by
  rw [← hm.ofValues_values, h, hn.ofValues_values]

/-- A built topology is determined by its pieces. -/
theorem eq_of_sections {t u : Topology} (ht : t.Built) (hu : u.Built)
    (h : t.sections = u.sections) : t = u := by
  obtain ⟨hwellt, hassemblet⟩ := ht.toBuilder {}
  obtain ⟨hwellu, hassembleu⟩ := hu.toBuilder {}
  simp only [sections, header, List.cons.injEq, and_true] at h
  obtain ⟨⟨hgeneration, hlabel⟩, hnodes, hports, hlinks, hqueues, hbuffers, hpaths, hflows⟩ := h
  have hbuilder : t.toBuilder {} = u.toBuilder {} := by
    simp only [toBuilder, TopologyBuilder.mk.injEq, true_and]
    exact ⟨GenerationVector.bytes_inj.mp hgeneration, Name.str_injective hlabel,
      eq_of_values hwellt.nodes hwellu.nodes (Node.pieces_injective.list_map hnodes),
      eq_of_values hwellt.ports hwellu.ports (Port.pieces_injective.list_map hports),
      eq_of_values hwellt.links hwellu.links (Link.pieces_injective.list_map hlinks),
      eq_of_values hwellt.queues hwellu.queues (Queue.pieces_injective.list_map hqueues),
      eq_of_values hwellt.buffers hwellu.buffers (Buffer.pieces_injective.list_map hbuffers),
      eq_of_values hwellt.paths hwellu.paths (Path.pieces_injective.list_map hpaths),
      eq_of_values hwellt.flows hwellu.flows (Flow.pieces_injective.list_map hflows)⟩
  rw [← hassemblet, ← hassembleu, hbuilder]

/-- Topologies of one layout have different texts. -/
theorem eq_of_layout {t u : Topology} (ht : t.Built) (hu : u.Built) (hlayout : t.layout = u.layout)
    (hbytes : t.digestBytes = u.digestBytes) : t = u :=
  eq_of_sections ht hu (nested_eq hlayout hbytes)

/-! ### Topologies without nodes -/

theorem values_eq_nil {ν : Type} {m : OrdMap Name ν} {key : ν → Name} {P : ν → Prop}
    (h : Keyed m key P) (hP : ∀ v, ¬ P v) : m.values = [] :=
  List.eq_nil_iff_forall_not_mem.mpr fun v hv => hP v (h.of_mem_values hv).2

theorem contains_of_values_nil {ν : Type} {m : OrdMap Name ν} (h : m.values = []) (n : Name) :
    ¬ m.contains n = true := by
  have hempty : m = OrdMap.empty := OrdMap.eq_of_entries_eq (List.map_eq_nil_iff.mp h)
  rw [hempty]
  exact Bool.false_ne_true

/-- Every object refers to a node, or to an object that does: without nodes there is none. -/
theorem sections_of_no_node {t : Topology} (h : t.Built) (hnodes : t.nodes.values = []) :
    t.sections = [[t.header], [], [], [], [], [], [], []] := by
  obtain ⟨hwell, -⟩ := h.toBuilder {}
  have hports : t.ports.values = [] := values_eq_nil hwell.ports fun port =>
    contains_of_values_nil hnodes port.node.name
  have hlinks : t.links.values = [] := values_eq_nil hwell.links fun link hlink =>
    contains_of_values_nil hports link.endpointA.name hlink.2.1
  have hqueues : t.queues.values = [] := values_eq_nil hwell.queues fun queue hqueue =>
    contains_of_values_nil hlinks queue.link.name hqueue.1
  have hbuffers : t.buffers.values = [] := values_eq_nil hwell.buffers fun buffer =>
    contains_of_values_nil hports buffer.port.name
  have hpaths : t.paths.values = [] := by
    refine values_eq_nil hwell.paths fun path hpath => ?_
    obtain ⟨hop, hhop⟩ := List.exists_mem_of_ne_nil _ hpath.1
    exact contains_of_values_nil hlinks hop.name (hpath.2 hop hhop)
  have hflows : t.flows.values = [] := values_eq_nil hwell.flows fun flow =>
    contains_of_values_nil hpaths flow.path.name
  rw [sections, hnodes, hports, hlinks, hqueues, hbuffers, hpaths, hflows]
  rfl

/-- The text starts with the header and the nodes. -/
theorem digestBytes_eq (t : Topology) : ∃ rest, t.digestBytes = t.generation.bytes
    ++ (t.revisionLabel.str
      ++ separatorByte :: (t.nodes.values.flatMap (fun node => node.pieces.flatten) ++ rest)) := by
  simp only [digestBytes, sections, header, List.flatten_cons, List.flatten_append, flatten_pieces,
    List.flatten_nil, List.append_nil, List.cons_append, List.nil_append]
  exact ⟨_, rfl⟩

/-- No other text is the text of a topology without nodes. -/
theorem eq_of_no_node {t u : Topology} (ht : t.Built) (hu : u.Built) (hnodes : t.nodes.values = [])
    (hbytes : u.digestBytes = t.digestBytes) : u = t := by
  have hsections := sections_of_no_node ht hnodes
  have htext : t.digestBytes = t.generation.bytes ++ (t.revisionLabel.str ++ separatorByte :: []) := by
    simp only [digestBytes, hsections, header, List.flatten_cons, List.flatten_nil,
      List.append_nil]
  obtain ⟨rest, hrest⟩ := u.digestBytes_eq
  rw [hrest, htext, GenerationVector.bytes_append_inj,
    append_cons_inj (Name.separator_not_mem _) (Name.separator_not_mem _)] at hbytes
  obtain ⟨hgeneration, hlabel, hnil⟩ := hbytes
  have hnodesu : u.nodes.values = [] := by
    cases hvalues : u.nodes.values with
    | nil => rfl
    | cons node nodes =>
        -- The number of the kind of a node takes eight bytes.
        rw [hvalues] at hnil
        have hlength := congrArg List.length hnil
        simp only [List.flatMap_cons, Node.pieces, List.flatten_cons, List.cons_append,
          List.length_append, length_leBytes64, List.length_nil] at hlength
        omega
  refine eq_of_sections hu ht ?_
  rw [sections_of_no_node hu hnodesu, hsections, header, header, hgeneration, hlabel]

end Topology

/-! ### A label without a character -/

/-- The node with an empty label behind its labels. -/
def Node.withEmptyLabel (node : Node) : Node := { node with labels := node.labels ++ [Name.default] }

theorem Node.flatten_pieces_withEmptyLabel (node : Node) :
    node.withEmptyLabel.pieces.flatten = node.pieces.flatten := by
  have hdefault : Name.default.str = [] := rfl
  simp only [pieces, withEmptyLabel, List.map_append, List.map_cons, List.map_nil, hdefault,
    List.flatten_append, List.flatten_cons, List.flatten_nil, List.append_nil]

namespace TopologyBuilder

/-- Every node with one more label, an empty one, and room for it. -/
def withEmptyLabels (b : TopologyBuilder) : TopologyBuilder :=
  { b with
    nodes := b.nodes.mapValues fun _ node => node.withEmptyLabel
    limits := { b.limits with maxLabels := b.limits.maxLabels + 1 } }

theorem find?_withEmptyLabels (b : TopologyBuilder) (n : Name) :
    b.withEmptyLabels.nodes.find? n = (b.nodes.find? n).map Node.withEmptyLabel :=
  OrdMap.find?_mapValues _ _ _

theorem contains_withEmptyLabels (b : TopologyBuilder) (n : Name) :
    b.withEmptyLabels.nodes.contains n = b.nodes.contains n := by
  rw [OrdMap.contains, find?_withEmptyLabels, Option.isSome_map, OrdMap.contains]

/-- The same calls with one more label for each node. -/
theorem Reachable.withEmptyLabels {b : TopologyBuilder} (h : Reachable b) :
    Reachable b.withEmptyLabels := by
  induction h with
  | new => exact .setLimits _ .new
  | setGeneration generation _ ih => exact .setGeneration generation ih
  | setRevisionLabel label _ ih => exact .setRevisionLabel label ih
  | setLimits limits _ ih => exact .setLimits { limits with maxLabels := limits.maxLabels + 1 } ih
  | @addNode b b' node _ hadd ih =>
      obtain ⟨⟨hvalid, hnew⟩, hsize, hlabels, rfl⟩ := addNode_eq_ok.mp hadd
      refine .addNode ih (?_ : b.withEmptyLabels.addNode node.withEmptyLabel = _)
      refine addNode_eq_ok.mpr ⟨⟨hvalid, ?_⟩, ?_, ?_, ?_⟩
      · rw [find?_withEmptyLabels]
        exact congrArg (Option.map Node.withEmptyLabel) hnew
      · exact lt_of_eq_of_lt (OrdMap.size_mapValues _ _) hsize
      · show (node.labels ++ [Name.default]).length ≤ b.limits.maxLabels + 1
        rw [List.length_append, List.length_singleton]
        omega
      · rw [TopologyBuilder.withEmptyLabels, OrdMap.mapValues_emplace]
        rfl
  | addPort _ hadd ih =>
      obtain ⟨hnew, hsize, hnode, hports, rfl⟩ := addPort_eq_ok.mp hadd
      refine .addPort ih (addPort_eq_ok.mpr ⟨hnew, hsize, ?_, hports, rfl⟩)
      rw [contains_withEmptyLabels]
      exact hnode
  | addLink _ hadd ih =>
      obtain ⟨hnew, hsize, hne, hends, rfl⟩ := addLink_eq_ok.mp hadd
      exact .addLink ih (addLink_eq_ok.mpr ⟨hnew, hsize, hne, hends, rfl⟩)
  | addQueue _ hadd ih =>
      obtain ⟨hnew, hsize, hlink, hshares, rfl⟩ := addQueue_eq_ok.mp hadd
      exact .addQueue ih (addQueue_eq_ok.mpr ⟨hnew, hsize, hlink, hshares, rfl⟩)
  | addBuffer _ hadd ih =>
      obtain ⟨hnew, hsize, hport, rfl⟩ := addBuffer_eq_ok.mp hadd
      exact .addBuffer ih (addBuffer_eq_ok.mpr ⟨hnew, hsize, hport, rfl⟩)
  | addPath _ hadd ih =>
      obtain ⟨hnew, hsize, hhops, hlength, hlinks, rfl⟩ := addPath_eq_ok.mp hadd
      exact .addPath ih (addPath_eq_ok.mpr ⟨hnew, hsize, hhops, hlength, hlinks, rfl⟩)
  | addFlow _ hadd ih =>
      obtain ⟨hnew, hsize, hpath, rfl⟩ := addFlow_eq_ok.mp hadd
      exact .addFlow ih (addFlow_eq_ok.mpr ⟨hnew, hsize, hpath, rfl⟩)

/-- `build` compares counts and looks for references: a label is neither. -/
theorem buildCheck_withEmptyLabels (b : TopologyBuilder) (limits : Limits) :
    b.withEmptyLabels.buildCheck limits = b.buildCheck limits := by
  have hsize : b.withEmptyLabels.nodes.size = b.nodes.size := OrdMap.size_mapValues _ _
  unfold buildCheck
  simp only [hsize, contains_withEmptyLabels]
  rfl

end TopologyBuilder

namespace Topology

/-- The topology with one more label for each node. -/
def withEmptyLabels (t : Topology) : Topology :=
  { t with nodes := t.nodes.mapValues fun _ node => node.withEmptyLabel }

theorem Built.withEmptyLabels {t : Topology} (h : t.Built) : t.withEmptyLabels.Built := by
  obtain ⟨b, limits, hreachable, hbuild⟩ := h
  obtain ⟨hcheck, hassemble⟩ := seq_eq_ok.mp hbuild
  cases hassemble
  refine ⟨b.withEmptyLabels, limits, hreachable.withEmptyLabels, seq_eq_ok.mpr ⟨?_, rfl⟩⟩
  rw [TopologyBuilder.buildCheck_withEmptyLabels, hcheck]

theorem digestBytes_withEmptyLabels (t : Topology) : t.withEmptyLabels.digestBytes = t.digestBytes := by
  have hvalues : t.withEmptyLabels.nodes.values = t.nodes.values.map Node.withEmptyLabel := by
    simp only [withEmptyLabels, OrdMap.values, OrdMap.mapValues, List.map_map, Function.comp_def]
  have hnodes : (t.withEmptyLabels.nodes.values.map Node.pieces).flatten.flatten
      = (t.nodes.values.map Node.pieces).flatten.flatten := by
    rw [flatten_pieces, flatten_pieces, hvalues, List.flatMap_map]
    exact List.flatMap_congr fun node _ => node.flatten_pieces_withEmptyLabel
  simp only [digestBytes, sections, List.flatten_cons, List.flatten_append, hnodes]
  rfl

theorem withEmptyLabels_ne {t : Topology} (h : t.nodes.values ≠ []) : t.withEmptyLabels ≠ t := by
  intro heq
  obtain ⟨node, hnode⟩ := List.exists_mem_of_ne_nil _ h
  obtain ⟨e, he, rfl⟩ := List.mem_map.mp hnode
  have hnodes : t.nodes.mapValues (fun _ node => node.withEmptyLabel) = t.nodes :=
    congrArg Topology.nodes heq
  have hsame := (OrdMap.mapValues_eq_self_iff _ _).mp hnodes e he
  have hlength := congrArg (fun node => node.labels.length) hsame
  simp [Node.withEmptyLabel] at hlength

/-- The header of the text ends at the first separator, so a text has one generation and one
label. -/
theorem header_of_digestBytes {t u : Topology} (h : u.digestBytes = t.digestBytes) :
    u.generation = t.generation ∧ u.revisionLabel = t.revisionLabel := by
  obtain ⟨restu, hu⟩ := u.digestBytes_eq
  obtain ⟨restt, ht⟩ := t.digestBytes_eq
  rw [hu, ht, GenerationVector.bytes_append_inj,
    append_cons_inj (Name.separator_not_mem _) (Name.separator_not_mem _)] at h
  exact ⟨h.1, Name.str_injective h.2.1⟩

/-- **What the digest hashes identifies a topology exactly when the topology has no node.** Two
topologies with nodes have different texts when their generations or their labels differ, and when
their layouts are the same. -/
theorem identified_iff_no_node {t : Topology} (h : t.Built) :
    (∀ u : Topology, u.digest = (({} : StableHasher).update u.digestBytes).digest64) ∧
      ((∀ u : Topology, u.Built → u ≠ t → u.digestBytes ≠ t.digestBytes) ↔
        t.nodes = OrdMap.empty) ∧
      ∀ u : Topology, u.Built → u ≠ t →
        u.layout = t.layout ∨ u.generation ≠ t.generation ∨ u.revisionLabel ≠ t.revisionLabel →
        u.digestBytes ≠ t.digestBytes := by
  refine ⟨digest_eq, ⟨fun hidentified => ?_, fun hempty u hu hne hbytes => ?_⟩, ?_⟩
  · have hnodes : t.nodes.values = [] := by
      by_contra hne
      exact hidentified t.withEmptyLabels h.withEmptyLabels (withEmptyLabels_ne hne)
        t.digestBytes_withEmptyLabels
    exact OrdMap.eq_of_entries_eq (List.map_eq_nil_iff.mp hnodes)
  · refine hne (eq_of_no_node h hu ?_ hbytes)
    rw [hempty]
    rfl
  · intro u hu hne hdiffers hbytes
    obtain ⟨hgeneration, hlabel⟩ := header_of_digestBytes hbytes
    rcases hdiffers with hlayout | hother | hother
    · exact hne (eq_of_layout hu h hlayout hbytes)
    · exact hother hgeneration
    · exact hother hlabel

/-- A builder with one node that has the labels. -/
def labelledSwitch (labels : List String) : TopologyBuilder :=
  .built [.addNode
    { id := EntityId.unchecked (ascii "leaf1")
      labels := labels.map fun label => Name.unchecked (ascii label) }]

theorem built_labelledSwitch {labels : List String}
    (h : (labelledSwitch labels).buildCheck {} = .ok ()) : (labelledSwitch labels).assemble.Built :=
  ⟨labelledSwitch labels, {}, TopologyBuilder.reachable_built _, seq_eq_ok.mpr ⟨h, rfl⟩⟩

/-- Labels of the same lengths give different texts. -/
theorem labelledSwitch_identified :
    (labelledSwitch ["cd", "e"]).assemble.digestBytes
      ≠ (labelledSwitch ["ab", "c"]).assemble.digestBytes :=
  (identified_iff_no_node (built_labelledSwitch (by decide +kernel))).2.2 _
    (built_labelledSwitch (by decide +kernel)) (by decide +kernel) (.inl (by decide +kernel))

/-- One label `ab` and two labels `a` and `b` give the same text. -/
theorem labels_run_together :
    ∃ t u : Topology, t.Built ∧ u.Built ∧ t.nodes ≠ u.nodes ∧ t.digestBytes = u.digestBytes :=
  ⟨(labelledSwitch ["ab"]).assemble, (labelledSwitch ["a", "b"]).assemble,
    built_labelledSwitch (by decide +kernel), built_labelledSwitch (by decide +kernel),
    by decide +kernel, by decide +kernel⟩

end Topology

end CongestionObservatory
