import CongestionObservatory.Proofs.Evidence.Admission
import CongestionObservatory.Proofs.Localization.Graph
import CongestionObservatory.Proofs.Model.Names
import CongestionObservatory.Proofs.Model.Topology
import CongestionObservatory.Proofs.Runtime.Soundness

/-!
# `CongestionObservatory.Proofs.Runtime.Graph`: the causal graph of the admitted topology

`rebuild_causal_graph` turns the relations of the topology into edges, one by one, and cites for
each of them the retained observations that report its first subject. `rebuilt_edges_backed` says
that every edge of the new graph is such a relation and that its citations are such observations.
The observations are found under a name that is not defined for every subject. Subjects without a
name share the empty one, but no edge starts at such a subject.

The rebuild fails when an observed relation has an end point without a name, or when the observed
relations are more than the graph has room for: `linkEdges_ok_iff`. `admit_topology` assigns the
topology first, so a failed rebuild leaves a new topology with the graph of an old one.
`admitTopology_atomic_iff` says when an admission is atomic.
-/

set_option autoImplicit false

namespace CongestionObservatory

open Lib

/-! ### The citations of a subject -/

/-- The records that report the structure of the subject with the key, in their order. -/
def reporting (records : List EvidenceRecord) (key : Name) : List EvidenceRecord :=
  records.filter fun record =>
    reportsStructure record && decide (Name.unchecked record.subject.str = key)

theorem mem_reporting {records : List EvidenceRecord} {key : Name} {record : EvidenceRecord} :
    record ∈ reporting records key ↔ record ∈ records ∧ reportsStructure record = true ∧
      Name.unchecked record.subject.str = key := by
  simp [reporting]

/-- Adding an element to the front part of a list while there is room is the front part of the
longer list. -/
theorem push_take {α : Type} (l : List α) (a : α) (n : Nat) :
    (if (l.take n).length < n then l.take n ++ [a] else l.take n) = (l ++ [a]).take n := by
  by_cases hroom : l.length < n
  · have htake : l.take n = l := List.take_of_length_le hroom.le
    rw [htake, if_pos hroom, List.take_of_length_le (by simp; omega)]
  · have hfull : n ≤ l.length := Nat.not_lt.mp hroom
    rw [if_neg (by rw [List.length_take]; omega), List.take_append_of_le_length hfull]

/-- The table of `rebuild_causal_graph` holds the first `max_citations` reports of each subject. -/
theorem find?_evidenceBySubject (limits : Limits) (records : List EvidenceRecord) (key : Name) :
    ((evidenceBySubject limits records).find? key).getD []
      = ((reporting records key).map EvidenceRecord.id).take limits.maxCitations := by
  -- The loop appends to the bucket of one key and leaves the others alone.
  suffices hloop : ∀ (rest : List EvidenceRecord) (table : OrdMap Name (List EvidenceId))
      (before : List EvidenceId),
      (table.find? key).getD [] = before.take limits.maxCitations →
      (((rest.filter reportsStructure).foldl (fun bySubject record =>
          let key := Name.unchecked record.subject.str
          let bucket := (bySubject.find? key).getD []
          bySubject.insert key
            (if bucket.length < limits.maxCitations then bucket ++ [record.id] else bucket))
          table).find? key).getD []
        = (before ++ (reporting rest key).map EvidenceRecord.id).take limits.maxCitations by
    exact hloop records OrdMap.empty [] (by simp)
  intro rest
  induction rest with
  | nil =>
      intro table before htable
      simpa [reporting] using htable
  | cons record rest ih =>
      intro table before htable
      by_cases hreports : reportsStructure record = true
      swap
      · have hskip : reporting (record :: rest) key = reporting rest key := by
          simp [reporting, hreports]
        rw [List.filter_cons_of_neg hreports, hskip]
        exact ih table before htable
      rw [List.filter_cons_of_pos hreports, List.foldl_cons]
      by_cases hkey : Name.unchecked record.subject.str = key
      · have hadd : reporting (record :: rest) key = record :: reporting rest key := by
          simp [reporting, hreports, hkey]
        rw [hadd, List.map_cons, List.append_cons]
        refine ih _ _ ?_
        simp only [hkey, htable, OrdMap.find?_insert, if_true, Option.getD_some]
        exact push_take before record.id limits.maxCitations
      · have hskip : reporting (record :: rest) key = reporting rest key := by
          simp [reporting, hkey]
        rw [hskip]
        refine ih _ _ ?_
        simp only [OrdMap.find?_insert, if_neg (Ne.symm hkey)]
        exact htable

/-! ### The loop over the relations -/

namespace StructuralLink

/-- The key of the edge a relation becomes. -/
def key (link : StructuralLink) : CausalEdgeKey :=
  { from_ := Name.unchecked link.from_.str, to_ := Name.unchecked link.to_.str
    kind := link.kind, rule := Name.unchecked (ascii link.rule) }

/-- The keys of its end points. -/
def endpoints (link : StructuralLink) : List Name := [link.key.from_, link.key.to_]

/-- The edge of a relation. -/
def edge (link : StructuralLink) (generation : GenerationVector) (citations : List EvidenceId) :
    CausalEdge :=
  { from_ := link.from_, to_ := link.to_, kind := link.kind, ruleId := ascii link.rule
    citations := citations, strength := link.strength, generation := generation }

end StructuralLink

section

variable {limits : Limits} {generation : GenerationVector} {evidence : OrdMap Name (List EvidenceId)}

/-- What the table has on the first subject of a relation. -/
def citationsFor (evidence : OrdMap Name (List EvidenceId)) (link : StructuralLink) :
    List EvidenceId :=
  (evidence.find? link.key.from_).getD []

/-- The relations whose first subject the table has something on. -/
def observed (evidence : OrdMap Name (List EvidenceId)) (links : List StructuralLink) :
    List StructuralLink :=
  links.filter fun link => decide (citationsFor evidence link ≠ [])

theorem linkEdges_cons_of_nil {link : StructuralLink} (h : citationsFor evidence link = [])
    (g : CausalGraph) (rest : List StructuralLink) :
    linkEdges limits generation evidence g (link :: rest)
      = linkEdges limits generation evidence g rest := by
  have hskip : linkEdge limits generation evidence g link = (.ok (), g) := if_pos h
  rw [linkEdges, hskip]

theorem linkEdges_cons_of_ne {link : StructuralLink} (h : citationsFor evidence link ≠ [])
    (g : CausalGraph) (rest : List StructuralLink) :
    linkEdges limits generation evidence g (link :: rest)
      = match g.addEdge (link.edge generation (citationsFor evidence link)) limits with
        | (.error e, _) => .error e
        | (.ok (), g) => linkEdges limits generation evidence g rest := by
  have hadd : linkEdge limits generation evidence g link
      = g.addEdge (link.edge generation (citationsFor evidence link)) limits := if_neg h
  show (match linkEdge limits generation evidence g link with
    | (.error e, _) => .error e
    | (.ok (), g) => linkEdges limits generation evidence g rest : Result CausalGraph) = _
  rw [hadd]

/-- The loop succeeds when every observed relation is named and both tables have room for all of
them. -/
theorem linkEdges_ok_iff (g : CausalGraph) (links : List StructuralLink) :
    (∃ g', linkEdges limits generation evidence g links = .ok g') ↔
      (∀ link ∈ observed evidence links,
        (link.edge generation (citationsFor evidence link)).Named) ∧
      g.nodes.Room limits.maxGraphNodes
        ((observed evidence links).flatMap StructuralLink.endpoints) ∧
      g.edges.Room limits.maxGraphEdges ((observed evidence links).map StructuralLink.key) := by
  -- The graph grows along the loop, so the room for the rest is the room after the first relation.
  induction links generalizing g with
  | nil => simp [linkEdges, observed]
  | cons link rest ih =>
      by_cases hcited : citationsFor evidence link = []
      · have hskip : observed evidence (link :: rest) = observed evidence rest := by
          simp [observed, hcited]
        rw [linkEdges_cons_of_nil hcited, hskip]
        exact ih g
      have hkeep : observed evidence (link :: rest) = link :: observed evidence rest := by
        simp [observed, hcited]
      rw [linkEdges_cons_of_ne hcited, hkeep, List.forall_mem_cons, List.flatMap_cons,
        List.map_cons]
      have hedgeKey : (link.edge generation (citationsFor evidence link)).key = link.key := rfl
      have hnodes : ∀ {m : OrdMap Name EvidenceSubject} (rest : List Name),
          m.Room limits.maxGraphNodes (link.endpoints ++ rest) ↔
            m.Room limits.maxGraphNodes link.endpoints ∧
            ((m.emplace link.key.from_ link.from_).emplace link.key.to_ link.to_).Room
              limits.maxGraphNodes rest := by
        intro m rest
        have hfrom := OrdMap.learns_emplace m link.key.from_ link.from_
        have hto := OrdMap.learns_emplace (m.emplace link.key.from_ link.from_) link.key.to_ link.to_
        rw [StructuralLink.endpoints, List.cons_append, List.cons_append, List.nil_append,
          OrdMap.room_cons hfrom, OrdMap.room_cons hto, OrdMap.room_cons hfrom,
          OrdMap.room_cons hto]
        simp [and_assoc]
      rcases g.addEdge_cases (link.edge generation (citationsFor evidence link)) limits with
        ⟨hnamed, hroom, g', hadd, htook⟩ | ⟨hrefused, e, g', hadd⟩
      · have hedges := OrdMap.room_cons (OrdMap.learns_emplace g.edges link.key
          (CausalGraph.storedEdge (link.edge generation (citationsFor evidence link)) limits))
          limits.maxGraphEdges ((observed evidence rest).map StructuralLink.key)
        have hnodes' := htook.nodes
        have hedges' := htook.edges
        rw [hedgeKey] at hnodes' hedges'
        rw [hadd, hnodes, hedges, ih g', hnodes', hedges']
        have hfits : g.nodes.Room limits.maxGraphNodes link.endpoints := hroom.nodes
        have htakes : g.edges.Takes limits.maxGraphEdges link.key := hroom.edges
        simp only [hnamed, hfits, htakes, true_and]
        rfl
      · -- The first refusal ends the loop, and what was lacking there is lacking for the whole
        -- list.
        rw [hadd, hnodes]
        refine iff_of_false ?_ ?_
        · rintro ⟨g', h⟩
          cases h
        · rintro ⟨⟨hnamed, -⟩, ⟨hfits, -⟩, hedges⟩
          have htakes := (OrdMap.room_cons (OrdMap.learns_emplace g.edges link.key
            (link.edge generation (citationsFor evidence link))) _ _).mp hedges
          exact hrefused ⟨hnamed, hfits, htakes.1⟩

/-- Every edge of the new graph is one that the loop stored, or was there before. -/
theorem edges_of_linkEdges {g g' : CausalGraph} {links : List StructuralLink}
    (h : linkEdges limits generation evidence g links = .ok g') {edge : CausalEdge}
    (hedge : edge ∈ g'.edges.values) :
    edge ∈ g.edges.values ∨ ∃ link ∈ links,
      (link.edge generation (citationsFor evidence link)).Named ∧
      edge = CausalGraph.storedEdge (link.edge generation (citationsFor evidence link)) limits := by
  induction links generalizing g with
  | nil =>
      cases h
      exact Or.inl hedge
  | cons link rest ih =>
      by_cases hcited : citationsFor evidence link = []
      · rw [linkEdges_cons_of_nil hcited] at h
        rcases ih h with hold | ⟨other, hother, hnew⟩
        · exact Or.inl hold
        · exact Or.inr ⟨other, List.mem_cons_of_mem _ hother, hnew⟩
      rw [linkEdges_cons_of_ne hcited] at h
      rcases g.addEdge_cases (link.edge generation (citationsFor evidence link)) limits with
        ⟨hnamed, -, next, hadd, htook⟩ | ⟨-, e, next, hadd⟩
      · rw [hadd] at h
        rcases ih h with hold | ⟨other, hother, hnew⟩
        · rw [htook.edges] at hold
          rcases OrdMap.mem_values_emplace hold with hnew | hold
          · exact Or.inr ⟨link, List.mem_cons_self, hnamed, hnew⟩
          · exact Or.inl hold
        · exact Or.inr ⟨other, List.mem_cons_of_mem _ hother, hnew⟩
      · rw [hadd] at h
        cases h

end

/-! ### The relations of a topology -/

/-- The relations a causal edge may stand for. -/
inductive Topology.Relates (t : Topology) : EvidenceSubject → EvidenceSubject → CausalEdgeKind → Prop
  | pathMembership {path : Path} {hop : LinkId} (hpath : path ∈ t.paths.values)
      (hhop : hop ∈ path.hops) : Relates t (.path path.id) (.link hop) .pathMembership
  | consecutiveHops {path : Path} {i : Nat} {hop next : LinkId} (hpath : path ∈ t.paths.values)
      (hhop : path.hops[i]? = some hop) (hnext : path.hops[i + 1]? = some next) :
      Relates t (.link hop) (.link next) .pathMembership
  | queueOnLink {queue : Queue} (hqueue : queue ∈ t.queues.values) :
      Relates t (.queue queue.id) (.link queue.link) .queueOnLink
  | bufferOnPort {buffer : Buffer} (hbuffer : buffer ∈ t.buffers.values) :
      Relates t (.buffer buffer.id) (.port buffer.port) .bufferOnPort
  | flowOnPath {flow : Flow} (hflow : flow ∈ t.flows.values) :
      Relates t (.flow flow.id) (.path flow.path) .flowOnPath
  | linkEndpoint {link : Link} {port : PortId} (hlink : link ∈ t.links.values)
      (hport : port = link.endpointA ∨ port = link.endpointB) :
      Relates t (.link link.id) (.port port) .topologyAdjacency

/-- The relations of a path hold in every topology with the path. -/
theorem Path.relates_of_mem {t : Topology} {path : Path} (hpath : path ∈ t.paths.values)
    {link : StructuralLink} (h : link ∈ path.structuralLinks) :
    t.Relates link.from_ link.to_ link.kind := by
  rcases List.mem_append.mp h with h | h
  · obtain ⟨hop, hhop, rfl⟩ := List.mem_map.mp h
    exact .pathMembership hpath hhop
  · obtain ⟨⟨hop, next⟩, hpair, rfl⟩ := List.mem_map.mp h
    obtain ⟨i, hi⟩ := List.mem_iff_getElem?.mp hpair
    obtain ⟨hhop, hnext⟩ := List.getElem?_zip_eq_some.mp hi
    rw [List.getElem?_tail] at hnext
    exact .consecutiveHops hpath hhop hnext

/-- The loops of `rebuild_causal_graph` visit relations of the topology. -/
theorem Topology.relates_of_mem {t : Topology} {link : StructuralLink}
    (h : link ∈ t.structuralLinks) : t.Relates link.from_ link.to_ link.kind := by
  unfold Topology.structuralLinks at h
  simp only [List.mem_append, List.mem_flatMap, List.mem_map] at h
  rcases h with (((⟨path, hpath, h⟩ | ⟨queue, hqueue, rfl⟩) | ⟨buffer, hbuffer, rfl⟩)
    | ⟨flow, hflow, rfl⟩) | ⟨link, hlink, h⟩
  · exact Path.relates_of_mem hpath h
  · exact .queueOnLink hqueue
  · exact .bufferOnPort hbuffer
  · exact .flowOnPath hflow
  · simp only [List.mem_cons, List.not_mem_nil, or_false] at h
    rcases h with rfl | rfl
    · exact .linkEndpoint hlink (Or.inl rfl)
    · exact .linkEndpoint hlink (Or.inr rfl)

/-! ### The edges of a rebuilt graph -/

/-- The record reports the structure of the subject. -/
structure Reports (record : EvidenceRecord) (subject : EvidenceSubject) : Prop where
  subject : record.subject = subject
  kind : record.kind = .topologyAdvertisement ∨ record.kind = .operState ∨
    record.kind = .capacityAdvertisement
  support : record.support ≠ .unsupported

/-- The edge is a relation of the topology, and it cites retained records that report its first
subject. -/
structure Backed (limits : Limits) (t : Topology) (store : EvidenceStore) (edge : CausalEdge) :
    Prop where
  relation : t.Relates edge.from_ edge.to_ edge.kind
  cited : edge.citations ≠ []
  ascending : edge.citations.Pairwise (· < ·)
  bounded : edge.citations.length ≤ limits.maxCitations
  retained : ∀ id ∈ edge.citations, ∃ record ∈ store.records, record.id = id ∧
    Reports record edge.from_

/-- The query of `rebuild_causal_graph`. -/
def structureQuery (limits : Limits) : EvidenceQuery :=
  { windowStart := ⟨Int64.minValue⟩, windowEnd := ⟨Int64.maxValue⟩
    maxRecords := limits.maxWindowRecords }

/-- The records `rebuild_causal_graph` looks at, and its table of them. -/
def structureEvidence (limits : Limits) (store : EvidenceStore) : OrdMap Name (List EvidenceId) :=
  evidenceBySubject limits (store.query (structureQuery limits))

/-- What the stored edge of a relation cites is retained. -/
theorem retained_of_citation {limits : Limits} {store : EvidenceStore} {link : StructuralLink}
    {id : EvidenceId} (hname : link.key.from_.valid = true)
    (h : id ∈ citationsFor (structureEvidence limits store) link) :
    ∃ record ∈ store.records, record.id = id ∧ Reports record link.from_ := by
  rw [citationsFor, structureEvidence, find?_evidenceBySubject] at h
  obtain ⟨record, hrecord, rfl⟩ := List.mem_map.mp (List.mem_of_mem_take h)
  obtain ⟨hquery, hreports, hkey⟩ := mem_reporting.mp hrecord
  -- The key of the edge is a name, so only this subject has it.
  have hsubject := EvidenceSubject.eq_of_key_eq hkey hname
  unfold reportsStructure at hreports
  simp only [Bool.and_eq_true, Bool.or_eq_true, beq_iff_eq, bne_iff_ne, or_assoc] at hreports
  exact ⟨record, (EvidenceStore.mem_query hquery).1, rfl, hsubject, hreports.1, hreports.2⟩

/-- Every edge of the graph of a topology is backed. -/
theorem backed_of_causalGraphOf {limits : Limits} (hlimits : 0 < limits.maxCitations)
    {t : Topology} {store : EvidenceStore} {graph : CausalGraph}
    (h : causalGraphOf limits t store = .ok graph) {edge : CausalEdge}
    (hedge : edge ∈ graph.edges.values) : Backed limits t store edge := by
  rcases edges_of_linkEdges h hedge with hold | ⟨link, hlink, hnamed, rfl⟩
  · cases hold
  refine ⟨t.relates_of_mem hlink, ?_, ?_, List.length_take_le _ _, ?_⟩
  · intro hnil
    rcases List.take_eq_nil_iff.mp hnil with hzero | hnone
    · omega
    · exact sortUnique_ne_nil hnamed.cited hnone
  · exact (sortUnique_ascending _).sublist (List.take_sublist _ _)
  · intro id hid
    exact retained_of_citation hnamed.from_.2 (mem_sortUnique.mp (List.mem_of_mem_take hid))

namespace Runtime

/-- In every state of a runtime with valid limits, a rebuild that succeeds gives a graph whose every
edge is backed by retained observations, and one that fails keeps the graph. -/
theorem rebuilt_edges_backed (rt : Runtime) (hlimits : rt.config.limits.validate = .ok ()) :
    (rt.rebuildCausalGraph.1 = .ok () → ∀ edge ∈ rt.rebuildCausalGraph.2.graph.edges.values,
      Backed rt.config.limits rt.topology rt.store edge) ∧
    (∀ e, rt.rebuildCausalGraph.1 = .error e → rt.rebuildCausalGraph.2.graph = rt.graph) := by
  have hcitations : 0 < rt.config.limits.maxCitations :=
    Limits.pos_of_validate hlimits (rt.config.limits.maxCitations, "max_citations")
      (by simp [Limits.positives])
  unfold rebuildCausalGraph
  cases hgraph : causalGraphOf rt.config.limits rt.topology rt.store with
  | error e =>
      refine ⟨fun h => ?_, fun _ _ => rfl⟩
      cases h
  | ok graph =>
      refine ⟨fun _ edge hedge => backed_of_causalGraphOf hcitations hgraph hedge, fun e h => ?_⟩
      cases h

/-- A node with two ports and a link between them. -/
def linkBetween (near far : Text) : Result TopologyBuilder := do
  let b ← ({} : TopologyBuilder).addNode { id := EntityId.unchecked (ascii "leaf1") }
  let b ← b.addPort
    { id := EntityId.unchecked near, node := EntityId.unchecked (ascii "leaf1") }
  let b ← b.addPort
    { id := EntityId.unchecked far, node := EntityId.unchecked (ascii "leaf1") }
  b.addLink
    { id := EntityId.unchecked (ascii "up"), endpointA := EntityId.unchecked near
      endpointB := EntityId.unchecked far }

/-- The topology of that link. -/
def linkTopology (near far : Text) : Topology :=
  ((linkBetween near far >>= fun b => b.build {}).toOption).getD {}

theorem built_linkTopology {near far : Text}
    (h : (linkBetween near far >>= fun b => b.build {}).isOk = true) :
    (linkTopology near far).Built := by
  have hok := eq_ok_of_isOk h {}
  obtain ⟨b, hlink, hbuild⟩ := bind_eq_ok.mp hok
  obtain ⟨b₁, hnode, hrest⟩ := bind_eq_ok.mp hlink
  obtain ⟨b₂, hnear, hrest⟩ := bind_eq_ok.mp hrest
  obtain ⟨b₃, hfar, hadd⟩ := bind_eq_ok.mp hrest
  exact ⟨b, {}, .addLink (.addPort (.addPort (.addNode .new hnode) hnear) hfar) hadd, hbuild⟩

/-- An observation that the link is up. -/
def linkUp : EvidenceRecord :=
  let record : EvidenceRecord :=
    { kind := .operState
      subject := .link (EntityId.unchecked (ascii "up"))
      provenance := { source := EntityId.unchecked (ascii "agent1"), authority := .measured }
      fence := { source := EntityId.unchecked (ascii "agent1"), boot := 1, incarnation := 1
                 sequence := 1 }
      value := { unit := .boolean } }
  { record with id := computeEvidenceId record }

/-- A runtime that heard that the link is up. -/
def linkRuntime (topology : Topology) : Runtime :=
  ({ initial {} with topology := topology }.ingestRecovered linkUp).2

/-- The topology with a link, and the link reported up: the rebuilt graph has the edges from the
link to its two ports. -/
theorem link_edges_backed :
    ((linkRuntime (linkTopology (ascii "p1") (ascii "p2"))).rebuildCausalGraph.2.graph.edges.values.map
        fun edge => (edge.from_.str, edge.to_.str))
      = [(ascii "link:up", ascii "port:p1"), (ascii "link:up", ascii "port:p2")] ∧
    ∀ edge ∈ (linkRuntime (linkTopology (ascii "p1") (ascii "p2"))).rebuildCausalGraph.2.graph.edges.values,
      Backed {} (linkTopology (ascii "p1") (ascii "p2"))
        (linkRuntime (linkTopology (ascii "p1") (ascii "p2"))).store edge :=
  ⟨by decide +kernel,
    (rebuilt_edges_backed (linkRuntime (linkTopology (ascii "p1") (ascii "p2")))
      (by decide +kernel)).1 (by decide +kernel)⟩

/-! ### Admission -/

/-- An admission is atomic: an error changes neither the topology nor the graph, success replaces
both, and a new topology is never kept without its graph. -/
structure AdmitsAtomically (rt : Runtime) (t : Topology) : Prop where
  refused : ∀ e, (rt.admitTopology t).1 = .error e →
    (rt.admitTopology t).2.topology = rt.topology ∧ (rt.admitTopology t).2.graph = rt.graph
  admitted : (rt.admitTopology t).1 = .ok () → (rt.admitTopology t).2.topology = t ∧
    causalGraphOf rt.config.limits t rt.store = .ok (rt.admitTopology t).2.graph
  consistent : (rt.admitTopology t).2.topology ≠ rt.topology →
    causalGraphOf rt.config.limits (rt.admitTopology t).2.topology rt.store
      = .ok (rt.admitTopology t).2.graph

end Runtime

/-- The subject has a name of its own, and its rendering is not too long for a name. -/
def EvidenceSubject.HasKey (subject : EvidenceSubject) : Prop :=
  subject.nameText ≠ [] ∧ subject.str.length ≤ kMaxLength

/-- The relations whose first subject is reported by one of the records. -/
def Topology.reportedLinks (t : Topology) (limits : Limits) (records : List EvidenceRecord) :
    List StructuralLink :=
  t.structuralLinks.filter fun link => decide (0 < limits.maxCitations) && records.any fun record =>
    reportsStructure record && decide (Name.unchecked record.subject.str = link.key.from_)

/-- The reported relations are between subjects with names, and there are not more of them, and not
more end points, than the graph has room for. -/
structure GraphHolds (limits : Limits) (links : List StructuralLink) : Prop where
  named : ∀ link ∈ links, link.from_.HasKey ∧ link.to_.HasKey
  nodes : (links.flatMap StructuralLink.endpoints).toFinset.card ≤ limits.maxGraphNodes
  edges : (links.map StructuralLink.key).toFinset.card ≤ limits.maxGraphEdges

/-- The ends of a relation are objects. -/
theorem Topology.Relates.valid {t : Topology} {subject other : EvidenceSubject}
    {kind : CausalEdgeKind} (h : t.Relates subject other kind) :
    subject.valid = true ∧ other.valid = true := by
  cases h <;> exact ⟨rfl, rfl⟩

/-- The rules of the relations. -/
def structuralRules : List String :=
  ["topology-path-membership", "topology-path-upstream", "topology-queue-on-link",
   "topology-buffer-on-port", "topology-flow-on-path", "topology-link-endpoint"]

theorem Topology.rule_of_mem {t : Topology} {link : StructuralLink} (h : link ∈ t.structuralLinks) :
    link.rule ∈ structuralRules := by
  unfold Topology.structuralLinks Path.structuralLinks at h
  simp only [List.mem_append, List.mem_flatMap, List.mem_map, List.mem_cons, List.not_mem_nil,
    or_false] at h
  rcases h with (((⟨path, -, ⟨hop, -, rfl⟩ | ⟨hops, -, rfl⟩⟩ | ⟨queue, -, rfl⟩) | ⟨buffer, -, rfl⟩)
    | ⟨flow, -, rfl⟩) | ⟨link, -, rfl | rfl⟩
  all_goals simp [structuralRules]

/-- The rules have canonical names. -/
theorem structuralRules_named {rule : String} (h : rule ∈ structuralRules) :
    ascii rule ≠ [] ∧ (Name.unchecked (ascii rule)).valid = true := by
  revert rule
  decide

/-- The edge of a relation that is cited is named when its end points are. -/
theorem named_edge_iff {t : Topology} {link : StructuralLink} (h : link ∈ t.structuralLinks)
    (generation : GenerationVector) {citations : List EvidenceId} (hcited : citations ≠ []) :
    (link.edge generation citations).Named ↔ link.from_.HasKey ∧ link.to_.HasKey := by
  obtain ⟨hfrom, hto⟩ := (t.relates_of_mem h).valid
  obtain ⟨hrule, hruleKey⟩ := structuralRules_named (t.rule_of_mem h)
  unfold EvidenceSubject.HasKey
  rw [← EvidenceSubject.key_valid_iff, ← EvidenceSubject.key_valid_iff]
  constructor
  · intro hnamed
    exact ⟨hnamed.from_.2, hnamed.to_.2⟩
  · rintro ⟨hfromKey, htoKey⟩
    exact ⟨hcited, ⟨hfrom, hfromKey⟩, ⟨hto, htoKey⟩, hrule, hruleKey⟩

/-- The table has something on the first subject of exactly the reported relations. -/
theorem observed_structureEvidence (limits : Limits) (t : Topology) (store : EvidenceStore) :
    observed (structureEvidence limits store) t.structuralLinks
      = t.reportedLinks limits (store.query (structureQuery limits)) := by
  refine List.filter_congr fun link _ => ?_
  rw [citationsFor, structureEvidence, find?_evidenceBySubject, Bool.eq_iff_iff]
  simp only [ne_eq, List.take_eq_nil_iff, List.map_eq_nil_iff, not_or, decide_eq_true_eq,
    Bool.and_eq_true, List.any_eq_true, Nat.pos_iff_ne_zero]
  refine and_congr_right fun _ => ?_
  rw [List.eq_nil_iff_forall_not_mem]
  simp only [mem_reporting, not_forall, not_not]

/-- The graph of a topology over the store can be built exactly when the graph holds the reported
relations. -/
theorem causalGraphOf_ok_iff (limits : Limits) (t : Topology) (store : EvidenceStore) :
    (∃ graph, causalGraphOf limits t store = .ok graph) ↔
      GraphHolds limits (t.reportedLinks limits (store.query (structureQuery limits))) := by
  have hloop : causalGraphOf limits t store
      = linkEdges limits t.generation (structureEvidence limits store) {} t.structuralLinks := rfl
  rw [hloop, linkEdges_ok_iff, OrdMap.room_empty, OrdMap.room_empty, observed_structureEvidence]
  have hnamed : (∀ link ∈ t.reportedLinks limits (store.query (structureQuery limits)),
      (link.edge t.generation (citationsFor (structureEvidence limits store) link)).Named) ↔
      ∀ link ∈ t.reportedLinks limits (store.query (structureQuery limits)),
        link.from_.HasKey ∧ link.to_.HasKey := by
    refine forall₂_congr fun link hlink => ?_
    rw [← observed_structureEvidence] at hlink
    obtain ⟨hmem, hcited⟩ := List.mem_filter.mp hlink
    exact named_edge_iff hmem _ (of_decide_eq_true hcited)
  constructor
  · rintro ⟨hnames, hnodes, hedges⟩
    exact ⟨hnamed.mp hnames, hnodes, hedges⟩
  · rintro ⟨hnames, hnodes, hedges⟩
    exact ⟨hnamed.mpr hnames, hnodes, hedges⟩

namespace Runtime

/-- In every state and for every topology, an admission is atomic exactly when the topology is the
admitted one already or the graph holds the relations of it that are reported. -/
theorem admitTopology_atomic_iff (rt : Runtime) (t : Topology) :
    rt.AdmitsAtomically t ↔ t = rt.topology ∨
      GraphHolds rt.config.limits
        (t.reportedLinks rt.config.limits (rt.store.query (structureQuery rt.config.limits))) := by
  rw [← causalGraphOf_ok_iff]
  cases hgraph : causalGraphOf rt.config.limits t rt.store with
  | ok graph =>
      have hadmission : rt.admitTopology t = (.ok (), { rt with topology := t, graph := graph }) := by
        simp only [admitTopology, rebuildCausalGraph, hgraph]
      refine iff_of_true ?_ (Or.inr ⟨graph, rfl⟩)
      refine ⟨?_, ?_, ?_⟩
      · intro e h
        rw [hadmission] at h
        cases h
      · intro _
        rw [hadmission]
        exact ⟨rfl, hgraph⟩
      · intro _
        rw [hadmission]
        exact hgraph
  | error e =>
      -- The topology is set before the graph is built, and a failure leaves it set.
      have hadmission : rt.admitTopology t = (.error e, { rt with topology := t }) := by
        simp only [admitTopology, rebuildCausalGraph, hgraph]
      constructor
      · intro h
        have hsame := (h.refused e (by rw [hadmission])).1
        rw [hadmission] at hsame
        exact Or.inl hsame
      · rintro (rfl | ⟨graph, h⟩)
        · refine ⟨?_, ?_, ?_⟩
          · intro _ _
            rw [hadmission]
            exact ⟨rfl, rfl⟩
          · intro h
            rw [hadmission] at h
            cases h
          · intro h
            rw [hadmission] at h
            exact absurd rfl h
        · cases h

/-- A link to a port with the long name is built, and the rendering of the port has 97 bytes. When
the link is reported, the topology is refused and stays admitted all the same. -/
theorem refused_topology_stays :
    (linkTopology (ascii "p1") EvidenceStore.longName).Built ∧
      create {} = .ok (initial {}) ∧
      ¬ (run (step SelfMove.transfer) (initial {}) [.ingestRecovered linkUp]).AdmitsAtomically
        (linkTopology (ascii "p1") EvidenceStore.longName) := by
  refine ⟨built_linkTopology (by decide +kernel), create_default, fun hatomic => ?_⟩
  have hfails : ((run (step SelfMove.transfer) (initial {})
      [.ingestRecovered linkUp]).admitTopology
        (linkTopology (ascii "p1") EvidenceStore.longName)).1.isOk = false := by
    decide +kernel
  have hchanged : ((run (step SelfMove.transfer) (initial {})
      [.ingestRecovered linkUp]).admitTopology
        (linkTopology (ascii "p1") EvidenceStore.longName)).2.topology
      ≠ (run (step SelfMove.transfer) (initial {}) [.ingestRecovered linkUp]).topology := by
    decide +kernel
  cases hstatus : ((run (step SelfMove.transfer) (initial {})
      [.ingestRecovered linkUp]).admitTopology
        (linkTopology (ascii "p1") EvidenceStore.longName)).1 with
  | ok u =>
      rw [hstatus] at hfails
      cases hfails
  | error e => exact hchanged (hatomic.refused e hstatus).1

end Runtime

end CongestionObservatory
