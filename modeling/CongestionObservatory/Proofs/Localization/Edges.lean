import CongestionObservatory.Lib.BreadthFirst
import CongestionObservatory.Lib.Run
import CongestionObservatory.Proofs.Localization.Graph
import CongestionObservatory.Proofs.Model.Names

/-!
# `CongestionObservatory.Proofs.Localization.Edges`: which edges lead to a subject

`in_edges` finds the edges to a subject through the index of its neighbours and a scan of the edges
from each of them. A graph is only changed by `add_node` and `add_edge`, and these keep the index
and the keys of the edges in step with the edges (`WellIndexed`). So `in_edges` returns all edges to
the subject and no others (`mem_inEdges_iff`).
-/

set_option autoImplicit false

namespace CongestionObservatory

open Lib

/-- A call that changes a graph. -/
inductive GraphCall where
  | addNode (subject : EvidenceSubject) (limits : Limits)
  | addEdge (edge : CausalEdge) (limits : Limits)

namespace CausalGraph

/-- One call on a graph. -/
def step (g : CausalGraph) : GraphCall → Status × CausalGraph
  | .addNode subject limits => g.addNode subject limits
  | .addEdge edge limits => g.addEdge edge limits

/-- The graph after the calls. -/
def built (calls : List GraphCall) : CausalGraph := run step {} calls

/-- An edge of the graph leads from the cause to the effect. -/
def CausedBy (g : CausalGraph) (effect cause : EvidenceSubject) : Prop :=
  ∃ edge ∈ g.edges.values, edge.to_ = effect ∧ edge.from_ = cause

/-- The edges are filed under their keys, between nodes with names, and the index of the neighbours
lists them. -/
structure WellIndexed (g : CausalGraph) : Prop where
  keyed : ∀ e ∈ g.edges.entries, e.1 = e.2.key ∧ e.1.from_.valid = true ∧ e.1.to_.valid = true
  endpoints : ∀ e ∈ g.edges.entries,
    g.nodes.contains e.1.from_ = true ∧ g.nodes.contains e.1.to_ = true
  indexed : ∀ e ∈ g.edges.entries,
    ∃ known, g.inAdjacency.find? e.1.to_ = some known ∧ e.1.from_ ∈ known

/-! ### What the calls change -/

theorem contains_emplace_of_contains {κ ν : Type} [LinearOrder κ] {m : OrdMap κ ν} {k n : κ} {v : ν}
    (h : m.contains n = true) : (m.emplace k v).contains n = true := by
  unfold OrdMap.contains at h ⊢
  rw [OrdMap.find?_emplace]
  split
  · rfl
  · exact h

theorem contains_emplace_self {κ ν : Type} [LinearOrder κ] (m : OrdMap κ ν) (k : κ) (v : ν) :
    (m.emplace k v).contains k = true := by
  rw [OrdMap.contains, OrdMap.find?_emplace, if_pos rfl]
  rfl

/-- A call keeps the nodes. -/
def KeepsNodes (g g' : CausalGraph) : Prop :=
  ∀ n, g.nodes.contains n = true → g'.nodes.contains n = true

/-- The nodes are all that `add_node` changes. -/
theorem addNode_shape (g : CausalGraph) (subject : EvidenceSubject) (limits : Limits) :
    (g.addNode subject limits).2.edges = g.edges ∧
      (g.addNode subject limits).2.inAdjacency = g.inAdjacency ∧
      KeepsNodes g (g.addNode subject limits).2 ∧
      ((g.addNode subject limits).1 = .ok () →
        (g.addNode subject limits).2.nodes.contains (Name.unchecked subject.str) = true) := by
  unfold addNode KeepsNodes
  dsimp only
  split
  · exact ⟨rfl, rfl, fun _ h => h, fun h => nomatch h⟩
  split
  · exact ⟨rfl, rfl, fun _ h => h, fun h => nomatch h⟩
  split
  · next hknown => exact ⟨rfl, rfl, fun _ h => h, fun _ => hknown⟩
  split
  · exact ⟨rfl, rfl, fun _ h => h, fun h => nomatch h⟩
  · exact ⟨rfl, rfl, fun _ h => contains_emplace_of_contains h,
      fun _ => contains_emplace_self _ _ _⟩

/-- The tables of a graph after it stored a new edge. -/
structure Stored (g g' : CausalGraph) (edge : CausalEdge) (limits : Limits) : Prop where
  named : edge.Named
  edges : g'.edges = g.edges.emplace edge.key (storedEdge edge limits)
  inAdjacency : g'.inAdjacency = addNeighbour g.inAdjacency edge.key.to_ edge.key.from_
  endpoints : g'.nodes.contains edge.key.from_ = true ∧ g'.nodes.contains edge.key.to_ = true

/-- `add_edge` stores the edge with its end points, or it keeps the edges. -/
theorem addEdge_shape (g : CausalGraph) (edge : CausalEdge) (limits : Limits) :
    KeepsNodes g (g.addEdge edge limits).2 ∧
    (((g.addEdge edge limits).2.edges = g.edges ∧
        (g.addEdge edge limits).2.inAdjacency = g.inAdjacency) ∨
      Stored g (g.addEdge edge limits).2 edge limits) := by
  by_cases hnamed : edge.Named
  swap
  · obtain ⟨e, herror⟩ := g.addEdge_of_not_named limits hnamed
    rw [herror]
    exact ⟨fun _ h => h, .inl ⟨rfl, rfl⟩⟩
  rw [g.addEdge_of_named limits hnamed]
  -- The end points are added first. Where one of them or the edge is refused, what was added
  -- before stays, but no edge is.
  obtain ⟨hedges, hadjacency, hkeep, hfrom⟩ := g.addNode_shape edge.from_ limits
  generalize g.addNode edge.from_ limits = added at hedges hadjacency hkeep hfrom ⊢
  obtain ⟨_ | status, g₁⟩ := added
  · exact ⟨hkeep, .inl ⟨hedges, hadjacency⟩⟩
  obtain ⟨hedges', hadjacency', hkeep', hto⟩ := g₁.addNode_shape edge.to_ limits
  dsimp only at hedges hadjacency hkeep hfrom ⊢
  generalize g₁.addNode edge.to_ limits = added at hedges' hadjacency' hkeep' hto ⊢
  obtain ⟨_ | status', g₂⟩ := added
  · exact ⟨fun n h => hkeep' n (hkeep n h), .inl ⟨hedges'.trans hedges,
      hadjacency'.trans hadjacency⟩⟩
  dsimp only at hedges' hadjacency' hkeep' hto ⊢
  have hsame : g₂.edges = g.edges ∧ g₂.inAdjacency = g.inAdjacency :=
    ⟨hedges'.trans hedges, hadjacency'.trans hadjacency⟩
  have hnodes : KeepsNodes g g₂ := fun n h => hkeep' n (hkeep n h)
  unfold insertEdge
  split
  · exact ⟨hnodes, .inl hsame⟩
  split
  · exact ⟨hnodes, .inl hsame⟩
  · refine ⟨hnodes, .inr ⟨hnamed, ?_, ?_, hkeep' _ (hfrom rfl), hto rfl⟩⟩
    · rw [← hsame.1]
    · rw [← hsame.2]

theorem mem_addNeighbour {adjacency : OrdMap Name (List Name)} {key neighbour : Name} :
    ∃ known, (addNeighbour adjacency key neighbour).find? key = some known ∧ neighbour ∈ known := by
  unfold addNeighbour
  rw [OrdMap.find?_insert_self]
  refine ⟨_, rfl, ?_⟩
  split
  · next hknown => exact hknown
  · exact (List.mem_insertionSort _).mpr (by simp)

/-- The index loses no neighbour. -/
theorem find?_addNeighbour_of_mem {adjacency : OrdMap Name (List Name)} {key neighbour to_ n : Name}
    {known : List Name} (h : adjacency.find? to_ = some known) (hn : n ∈ known) :
    ∃ known', (addNeighbour adjacency key neighbour).find? to_ = some known' ∧ n ∈ known' := by
  unfold addNeighbour
  rw [OrdMap.find?_insert]
  split
  · next hsame =>
      rw [← hsame, h]
      refine ⟨_, rfl, ?_⟩
      split
      · exact hn
      · exact (List.mem_insertionSort _).mpr (List.mem_append_left _ hn)
  · exact ⟨known, h, hn⟩

/-- A call keeps the index in step with the edges. -/
theorem WellIndexed.step {g : CausalGraph} (h : g.WellIndexed) (call : GraphCall) :
    (g.step call).2.WellIndexed := by
  have hsame : ∀ g', KeepsNodes g g' → g'.edges = g.edges → g'.inAdjacency = g.inAdjacency →
      g'.WellIndexed := by
    intro g' hnodes hedges hadjacency
    refine ⟨hedges ▸ h.keyed, ?_, ?_⟩
    · rw [hedges]
      exact fun e he => ⟨hnodes _ (h.endpoints e he).1, hnodes _ (h.endpoints e he).2⟩
    · rw [hedges, hadjacency]
      exact h.indexed
  cases call with
  | addNode subject limits =>
      obtain ⟨hedges, hadjacency, hnodes, -⟩ := g.addNode_shape subject limits
      exact hsame _ hnodes hedges hadjacency
  | addEdge edge limits =>
      obtain ⟨hnodes, ⟨hedges, hadjacency⟩ | hstored⟩ := g.addEdge_shape edge limits
      · exact hsame _ hnodes hedges hadjacency
      show (g.addEdge edge limits).2.WellIndexed
      -- The entries of the new graph are the old ones and the one that was stored.
      have hmem : ∀ e ∈ (g.addEdge edge limits).2.edges.entries,
          e = (edge.key, storedEdge edge limits) ∨ e ∈ g.edges.entries := by
        intro e he
        rw [hstored.edges] at he
        unfold OrdMap.emplace at he
        split at he
        · exact .inr he
        · exact OrdMap.mem_insert he
      refine ⟨fun e he => ?_, fun e he => ?_, fun e he => ?_⟩
      · rcases hmem e he with rfl | he
        · exact ⟨rfl, hstored.named.from_.2, hstored.named.to_.2⟩
        · exact h.keyed e he
      · rcases hmem e he with rfl | he
        · exact hstored.endpoints
        · exact ⟨hnodes _ (h.endpoints e he).1, hnodes _ (h.endpoints e he).2⟩
      · rw [hstored.inAdjacency]
        rcases hmem e he with rfl | he
        · exact mem_addNeighbour
        · obtain ⟨known, hknown, hn⟩ := h.indexed e he
          exact find?_addNeighbour_of_mem hknown hn

/-- Every graph the calls build is well indexed. -/
theorem wellIndexed_built (calls : List GraphCall) : (built calls).WellIndexed := by
  refine run_induction CausalGraph.step WellIndexed ?_ (fun _ call h => h.step call) calls
  have hnone : ∀ e, e ∉ (({} : CausalGraph).edges.entries) := fun e => List.not_mem_nil
  exact ⟨fun e he => absurd he (hnone e), fun e he => absurd he (hnone e),
    fun e he => absurd he (hnone e)⟩

end CausalGraph

/-! ### The scan -/

theorem CausalEdgeKey.from_monotone : Monotone CausalEdgeKey.from_ := by
  intro k k' h
  have hlex : k.orderKey ≤ k'.orderKey := h
  exact (Prod.Lex.le_iff.mp hlex).elim le_of_lt fun h => h.1.le

theorem Name.default_le (n : Name) : Name.default ≤ n := by
  have hnot : ¬ n < Name.default := List.not_lt_nil n.str
  exact not_lt.mp hnot

/-- The key a scan starts from is the least one with its first name. -/
theorem CausalEdgeKey.lt_lower_iff (n : Name) (k : CausalEdgeKey) :
    k < ⟨n, Name.default, .topologyAdjacency, Name.default⟩ ↔ k.from_ < n := by
  have hlex : k < ⟨n, Name.default, .topologyAdjacency, Name.default⟩ ↔
      k.orderKey < orderKey ⟨n, Name.default, .topologyAdjacency, Name.default⟩ := Iff.rfl
  rw [hlex, orderKey, orderKey, Prod.Lex.toLex_lt_toLex]
  constructor
  · rintro (hlt | ⟨-, hlt⟩)
    · exact hlt
    · -- Nothing is below the empty name and the first kind.
      rw [Prod.Lex.toLex_lt_toLex] at hlt
      rcases hlt with hlt | ⟨-, hlt⟩
      · exact absurd hlt (not_lt.mpr (Name.default_le _))
      · rw [Prod.Lex.toLex_lt_toLex] at hlt
        rcases hlt with hlt | ⟨-, hlt⟩
        · exact absurd hlt (not_lt.mpr UInt8.zero_le)
        · exact absurd hlt (not_lt.mpr (Name.default_le _))
  · exact .inl

namespace CausalGraph

theorem mem_edgesFrom_iff {g : CausalGraph} {n : Name} {e : CausalEdgeKey × CausalEdge} :
    e ∈ g.edgesFrom n ↔ e ∈ g.edges.entries ∧ e.1.from_ = n := by
  rw [edgesFrom, OrdMap.lowerBound_takeWhile CausalEdgeKey.from_monotone
    (CausalEdgeKey.lt_lower_iff n), List.mem_filter, decide_eq_true_eq]

/-- `in_edges` returns the edges whose key leads to the key of the subject. -/
theorem mem_inEdges_key_iff {g : CausalGraph} (h : g.WellIndexed) {to_ : EvidenceSubject}
    {edge : CausalEdge} :
    edge ∈ g.inEdges to_ ↔ edge ∈ g.edges.values ∧ edge.key.to_ = Name.unchecked to_.str := by
  unfold inEdges
  constructor
  · intro hmem
    split at hmem
    · cases hmem
    · obtain ⟨n, -, hn⟩ := List.mem_flatMap.mp hmem
      obtain ⟨e, he, rfl⟩ := List.mem_map.mp hn
      obtain ⟨hfrom, hto⟩ := List.mem_filter.mp he
      have hentry := (mem_edgesFrom_iff.mp hfrom).1
      rw [← (h.keyed e hentry).1]
      exact ⟨List.mem_map_of_mem hentry, decide_eq_true_eq.mp hto⟩
  · -- The index leads from the subject to the origin of the edge, and the scan from there to the
    -- edge.
    rintro ⟨hmem, hto⟩
    obtain ⟨e, he, rfl⟩ := List.mem_map.mp hmem
    rw [← (h.keyed e he).1] at hto
    obtain ⟨known, hknown, hn⟩ := h.indexed e he
    rw [← hto, hknown]
    refine List.mem_flatMap.mpr ⟨e.1.from_, hn, List.mem_map_of_mem (List.mem_filter.mpr ?_)⟩
    exact ⟨mem_edgesFrom_iff.mpr ⟨he, rfl⟩, decide_eq_true rfl⟩

/-- `in_edges` returns the edges to the subject. -/
theorem mem_inEdges_iff {g : CausalGraph} (h : g.WellIndexed) {to_ : EvidenceSubject}
    {edge : CausalEdge} : edge ∈ g.inEdges to_ ↔ edge ∈ g.edges.values ∧ edge.to_ = to_ := by
  rw [mem_inEdges_key_iff h]
  refine and_congr_right fun hmem => ⟨fun hkey => ?_, fun hto => by rw [← hto]; rfl⟩
  obtain ⟨e, he, rfl⟩ := List.mem_map.mp hmem
  obtain ⟨hkeyed, -, hvalid⟩ := h.keyed e he
  -- The key of a stored edge is a name, so it belongs to one subject only.
  rw [hkeyed, hkey] at hvalid
  exact EvidenceSubject.eq_of_key_eq hkey hvalid

theorem causedBy_iff {g : CausalGraph} (h : g.WellIndexed) {effect cause : EvidenceSubject} :
    g.CausedBy effect cause ↔ ∃ edge ∈ g.inEdges effect, edge.from_ = cause := by
  unfold CausedBy
  simp only [mem_inEdges_iff h, and_assoc]

/-- The end points of an edge are nodes with names. -/
theorem hasNode_of_mem {g : CausalGraph} (h : g.WellIndexed) {edge : CausalEdge}
    (hmem : edge ∈ g.edges.values) :
    g.hasNode edge.from_ = true ∧ (Name.unchecked edge.from_.str).valid = true := by
  obtain ⟨e, he, rfl⟩ := List.mem_map.mp hmem
  obtain ⟨hkey, hvalid, -⟩ := h.keyed e he
  have hfrom : e.1.from_ = Name.unchecked e.2.from_.str := by
    rw [hkey]
    rfl
  rw [hasNode, ← hfrom]
  exact ⟨(h.endpoints e he).1, hvalid⟩

end CausalGraph

end CongestionObservatory
