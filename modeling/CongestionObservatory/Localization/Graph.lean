import CongestionObservatory.Core.Limits
import CongestionObservatory.Lib.OrdMap
import CongestionObservatory.Lib.Sort
import CongestionObservatory.Model.Generation
import CongestionObservatory.Model.Identities

/-!
# `CongestionObservatory.Localization.Graph`: the causal graph

`CausalGraph` (`localization/graph.hpp`) relates subjects by edges, and every edge carries the
observations that justify it. `addEdge` enforces this and the bounds of the graph. It adds the end
points first, so a graph may keep a node of an edge that it refuses: an operation gives its status
and the next graph.
-/

set_option autoImplicit false

namespace CongestionObservatory

open Lib

/-- `CausalEdgeKind`. -/
inductive CausalEdgeKind where
  | topologyAdjacency
  | containment
  | pathMembership
  | queueOnLink
  | bufferOnPort
  | flowOnPath
  | demandUpstream
  | sharedContention
  | latencyPropagation
  | bufferPressure
  deriving DecidableEq, Repr

namespace CausalEdgeKind

/-- The number of the kind, which the order of the edges compares. -/
def toUInt8 : CausalEdgeKind → UInt8
  | topologyAdjacency => 0
  | containment => 1
  | pathMembership => 2
  | queueOnLink => 3
  | bufferOnPort => 4
  | flowOnPath => 5
  | demandUpstream => 6
  | sharedContention => 7
  | latencyPropagation => 8
  | bufferPressure => 9

theorem toUInt8_injective : Function.Injective toUInt8 := by
  intro a b h
  cases a <;> cases b <;> first | rfl | exact absurd h (by decide)

/-- `is_observational`. -/
def isObservational : CausalEdgeKind → Bool
  | demandUpstream | sharedContention | latencyPropagation | bufferPressure => true
  | _ => false

end CausalEdgeKind

/-- `CausalEdge`. -/
structure CausalEdge where
  from_ : EvidenceSubject := .none
  to_ : EvidenceSubject := .none
  kind : CausalEdgeKind := .topologyAdjacency
  ruleId : Text := []
  citations : List EvidenceId := []
  strength : UInt32 := 1
  observational : Bool := false
  generation : GenerationVector := {}
  deriving DecidableEq

/-- `CausalEdgeKey`. -/
structure CausalEdgeKey where
  from_ : Name
  to_ : Name
  kind : CausalEdgeKind
  rule : Name
  deriving DecidableEq

namespace CausalEdgeKey

/-- What the order of the keys compares, in this order. -/
def orderKey (k : CausalEdgeKey) : Name ×ₗ Name ×ₗ UInt8 ×ₗ Name :=
  toLex (k.from_, toLex (k.to_, toLex (k.kind.toUInt8, k.rule)))

theorem orderKey_injective : Function.Injective orderKey := by
  rintro ⟨a, b, c, d⟩ ⟨a', b', c', d'⟩ h
  have hpair : (a, b, c.toUInt8, d) = (a', b', c'.toUInt8, d') := h
  simp only [Prod.mk.injEq] at hpair
  obtain ⟨rfl, rfl, hkind, rfl⟩ := hpair
  rw [CausalEdgeKind.toUInt8_injective hkind]

instance : LinearOrder CausalEdgeKey := LinearOrder.lift' orderKey orderKey_injective

end CausalEdgeKey

/-- `CausalGraph`. -/
structure CausalGraph where
  nodes : OrdMap Name EvidenceSubject := OrdMap.empty
  edges : OrdMap CausalEdgeKey CausalEdge := OrdMap.empty
  outAdjacency : OrdMap Name (List Name) := OrdMap.empty
  inAdjacency : OrdMap Name (List Name) := OrdMap.empty
  deriving DecidableEq

namespace CausalGraph

/-- `CausalGraph::add_node`. -/
def addNode (g : CausalGraph) (subject : EvidenceSubject) (limits : Limits) :
    Status × CausalGraph :=
  let key := Name.unchecked subject.str
  if !subject.valid then
    (.error (makeError .invalidArgument "causal node subject is empty"), g)
  else if !key.valid then
    (.error (makeError .invalidArgument "causal node subject is not canonical" subject.str), g)
  else if g.nodes.contains key then (.ok (), g)
  else if g.nodes.size ≥ limits.maxGraphNodes then
    (.error (makeError .limitExceeded "causal graph node limit reached"
      (decimal limits.maxGraphNodes)), g)
  else (.ok (), { g with nodes := g.nodes.emplace key subject })

/-- The update of an adjacency list. The lookup creates the list. -/
def addNeighbour (adjacency : OrdMap Name (List Name)) (key neighbour : Name) :
    OrdMap Name (List Name) :=
  let known := (adjacency.find? key).getD []
  adjacency.insert key
    (if neighbour ∈ known then known else (known ++ [neighbour]).insertionSort (· ≤ ·))

/-- The edge as it is stored. -/
def storedEdge (edge : CausalEdge) (limits : Limits) : CausalEdge :=
  { edge with
    observational := edge.kind.isObservational
    citations := (sortUnique edge.citations).take limits.maxCitations }

/-- The end of `add_edge`, once both end points are nodes. -/
def insertEdge (g : CausalGraph) (edge : CausalEdge) (key : CausalEdgeKey) (limits : Limits) :
    Status × CausalGraph :=
  if g.edges.contains key then (.ok (), g)
  else if g.edges.size ≥ limits.maxGraphEdges then
    (.error (makeError .limitExceeded "causal graph edge limit reached"
      (decimal limits.maxGraphEdges)), g)
  else
    (.ok (), { g with
      edges := g.edges.emplace key (storedEdge edge limits)
      outAdjacency := addNeighbour g.outAdjacency key.from_ key.to_
      inAdjacency := addNeighbour g.inAdjacency key.to_ key.from_ })

/-- `CausalGraph::add_edge`. -/
def addEdge (g : CausalGraph) (edge : CausalEdge) (limits : Limits) : Status × CausalGraph :=
  let key : CausalEdgeKey :=
    { from_ := Name.unchecked edge.from_.str, to_ := Name.unchecked edge.to_.str
      kind := edge.kind, rule := Name.unchecked edge.ruleId }
  if edge.citations = [] then
    (.error (makeError .preconditionFailed "causal edge requires at least one citation"
      edge.ruleId), g)
  else if !edge.from_.valid || !edge.to_.valid then
    (.error (makeError .invalidArgument "causal edge endpoints must be set"), g)
  else if edge.ruleId = [] then
    (.error (makeError .invalidArgument "causal edge requires a rule id"), g)
  else if !key.from_.valid || !key.to_.valid || !key.rule.valid then
    (.error (makeError .invalidArgument "causal edge identifiers must be canonical names"
      edge.ruleId), g)
  else match g.addNode edge.from_ limits with
  | (.error e, g) => (.error e, g)
  | (.ok (), g) =>
    match g.addNode edge.to_ limits with
    | (.error e, g) => (.error e, g)
    | (.ok (), g) => g.insertEdge edge key limits

/-- `CausalGraph::has_node`. -/
def hasNode (g : CausalGraph) (subject : EvidenceSubject) : Bool :=
  g.nodes.contains (Name.unchecked subject.str)

/-- The scan of the edges from one subject: from the least key with this name on, while the name
stays. -/
def edgesFrom (g : CausalGraph) (from_ : Name) : List (CausalEdgeKey × CausalEdge) :=
  (g.edges.lowerBound ⟨from_, Name.default, .topologyAdjacency, Name.default⟩).takeWhile
    fun e => e.1.from_ = from_

/-- `CausalGraph::out_edges`. -/
def outEdges (g : CausalGraph) (from_ : EvidenceSubject) : List CausalEdge :=
  (g.edgesFrom (Name.unchecked from_.str)).map Prod.snd

/-- `CausalGraph::in_edges`. -/
def inEdges (g : CausalGraph) (to_ : EvidenceSubject) : List CausalEdge :=
  match g.inAdjacency.find? (Name.unchecked to_.str) with
  | none => []
  | some adjacency => adjacency.flatMap fun from_ =>
    ((g.edgesFrom from_).filter fun e => e.1.to_ = Name.unchecked to_.str).map Prod.snd

/-- `CausalGraph::node_count`. -/
def nodeCount (g : CausalGraph) : Nat := g.nodes.size

/-- `CausalGraph::edge_count`. -/
def edgeCount (g : CausalGraph) : Nat := g.edges.size

/-- `CausalGraph::digest`: the nodes and the edges in key order, hashed. -/
def digest (g : CausalGraph) : UInt64 :=
  let hasher : StableHasher := {}
  let hasher := g.nodes.entries.foldl (fun h entry => (h.update entry.1.str).separator) hasher
  let hasher := g.edges.entries.foldl (fun h entry =>
    let h := ((h.update entry.1.from_.str).update entry.1.to_.str).updateU64
      entry.1.kind.toUInt8.toUInt64
    let h := (h.update entry.1.rule.str).updateU64 entry.2.strength.toUInt64
    (entry.2.citations.foldl (fun h citation => h.update citation.str) h).separator) hasher
  hasher.digest64

end CausalGraph

end CongestionObservatory
