import CongestionObservatory.Lib.Room
import CongestionObservatory.Localization.Graph

/-!
# `CongestionObservatory.Proofs.Localization.Graph`: when a causal graph takes an edge

`add_edge` checks the edge, adds its end points as nodes and then the edge itself. The graph takes
the edge exactly when the edge is cited and named and both tables have room (`addEdge_cases`), and
what it then holds is what the two tables learn.
-/

set_option autoImplicit false

namespace CongestionObservatory

open Lib

namespace CausalEdge

/-- The key of an edge. -/
def key (edge : CausalEdge) : CausalEdgeKey :=
  { from_ := Name.unchecked edge.from_.str, to_ := Name.unchecked edge.to_.str
    kind := edge.kind, rule := Name.unchecked edge.ruleId }

/-- What `add_edge` asks of an edge alone: it cites something, and its end points and its rule have
canonical names. -/
structure Named (edge : CausalEdge) : Prop where
  cited : edge.citations ≠ []
  from_ : edge.from_.valid = true ∧ edge.key.from_.valid = true
  to_ : edge.to_.valid = true ∧ edge.key.to_.valid = true
  rule : edge.ruleId ≠ [] ∧ edge.key.rule.valid = true

end CausalEdge

namespace CausalGraph

/-- A node with a name is taken when it is known or there is room. -/
theorem addNode_cases (g : CausalGraph) {subject : EvidenceSubject} (limits : Limits)
    (hvalid : subject.valid = true) (hkey : (Name.unchecked subject.str).valid = true) :
    (g.nodes.Takes limits.maxGraphNodes (Name.unchecked subject.str) ∧
      g.addNode subject limits
        = (.ok (), { g with nodes := g.nodes.emplace (Name.unchecked subject.str) subject })) ∨
    (¬ g.nodes.Takes limits.maxGraphNodes (Name.unchecked subject.str) ∧
      ∃ e, g.addNode subject limits = (.error e, g)) := by
  unfold addNode OrdMap.Takes OrdMap.emplace OrdMap.contains
  simp only [hvalid, hkey, Bool.not_true, Bool.false_eq_true, if_false]
  cases hfind : g.nodes.find? (Name.unchecked subject.str) with
  | some known => exact Or.inl ⟨Or.inl (by simp), by simp⟩
  | none =>
      by_cases hroom : g.nodes.size < limits.maxGraphNodes
      · left
        refine ⟨Or.inr hroom, ?_⟩
        simp [Nat.not_le.mpr hroom]
      · right
        refine ⟨by simpa using hroom, ?_⟩
        simp [Nat.not_lt.mp hroom]

/-- An edge between known nodes is taken when it is known or there is room. -/
theorem insertEdge_cases (g : CausalGraph) (edge : CausalEdge) (key : CausalEdgeKey)
    (limits : Limits) :
    (g.edges.Takes limits.maxGraphEdges key ∧
      ∃ g', g.insertEdge edge key limits = (.ok (), g') ∧ g'.nodes = g.nodes ∧
        g'.edges = g.edges.emplace key (storedEdge edge limits)) ∨
    (¬ g.edges.Takes limits.maxGraphEdges key ∧
      ∃ e, g.insertEdge edge key limits = (.error e, g)) := by
  unfold insertEdge OrdMap.Takes
  cases hfind : g.edges.find? key with
  | some known =>
      have hcontains : g.edges.contains key = true := by rw [OrdMap.contains, hfind]; rfl
      rw [if_pos hcontains]
      exact Or.inl ⟨Or.inl (by simp), g, rfl, rfl, by rw [OrdMap.emplace, if_pos hcontains]⟩
  | none =>
      have hnew : ¬ g.edges.contains key = true := by simp [OrdMap.contains, hfind]
      rw [if_neg hnew]
      by_cases hroom : g.edges.size < limits.maxGraphEdges
      · rw [if_neg (Nat.not_le.mpr hroom)]
        exact Or.inl ⟨Or.inr hroom, _, rfl, rfl, rfl⟩
      · rw [if_pos (Nat.not_lt.mp hroom)]
        exact Or.inr ⟨by simpa using hroom, _, rfl⟩

/-- An edge that is not named is refused. -/
theorem addEdge_of_not_named (g : CausalGraph) {edge : CausalEdge} (limits : Limits)
    (h : ¬ edge.Named) : ∃ e, g.addEdge edge limits = (.error e, g) := by
  unfold addEdge
  by_cases hcited : edge.citations = []
  · simp [hcited]
  by_cases hvalid : (!edge.from_.valid || !edge.to_.valid) = true
  · simp [hcited, hvalid]
  by_cases hrule : edge.ruleId = []
  · simp [hcited, hvalid, hrule]
  by_cases hkeys : (!edge.key.from_.valid || !edge.key.to_.valid || !edge.key.rule.valid) = true
  · unfold CausalEdge.key at hkeys
    simp [hcited, hvalid, hrule, hkeys]
  refine absurd ?_ h
  simp only [Bool.or_eq_true, Bool.not_eq_true', not_or, Bool.not_eq_false] at hvalid hkeys
  exact ⟨hcited, ⟨hvalid.1, hkeys.1.1⟩, ⟨hvalid.2, hkeys.1.2⟩, hrule, hkeys.2⟩

/-- A named edge is added after its end points. -/
theorem addEdge_of_named (g : CausalGraph) {edge : CausalEdge} (limits : Limits)
    (h : edge.Named) : g.addEdge edge limits = match g.addNode edge.from_ limits with
      | (.error e, g) => (.error e, g)
      | (.ok (), g) =>
        match g.addNode edge.to_ limits with
        | (.error e, g) => (.error e, g)
        | (.ok (), g) => g.insertEdge edge edge.key limits := by
  obtain ⟨hcited, ⟨hfrom, hfromKey⟩, ⟨hto, htoKey⟩, hrule, hruleKey⟩ := h
  unfold CausalEdge.key at hfromKey htoKey hruleKey
  simp only [addEdge, hcited, hfrom, hto, hrule, hfromKey, htoKey, hruleKey, if_false,
    Bool.not_true, Bool.or_self, Bool.false_eq_true]
  rfl

/-- The tables of a graph after it took an edge. -/
structure Took (g g' : CausalGraph) (edge : CausalEdge) (limits : Limits) : Prop where
  nodes : g'.nodes = (g.nodes.emplace edge.key.from_ edge.from_).emplace edge.key.to_ edge.to_
  edges : g'.edges = g.edges.emplace edge.key (storedEdge edge limits)

/-- The graph has room for the edge and its end points. -/
structure HasRoom (g : CausalGraph) (edge : CausalEdge) (limits : Limits) : Prop where
  nodes : g.nodes.Room limits.maxGraphNodes [edge.key.from_, edge.key.to_]
  edges : g.edges.Takes limits.maxGraphEdges edge.key

/-- An edge is taken when it is named and there is room for it. -/
theorem addEdge_cases (g : CausalGraph) (edge : CausalEdge) (limits : Limits) :
    (edge.Named ∧ g.HasRoom edge limits ∧
      ∃ g', g.addEdge edge limits = (.ok (), g') ∧ g.Took g' edge limits) ∨
    (¬ (edge.Named ∧ g.HasRoom edge limits) ∧ ∃ e g', g.addEdge edge limits = (.error e, g')) := by
  by_cases hnamed : edge.Named
  swap
  · obtain ⟨e, herror⟩ := g.addEdge_of_not_named limits hnamed
    exact Or.inr ⟨fun h => hnamed h.1, e, g, herror⟩
  have hroom : g.nodes.Room limits.maxGraphNodes [edge.key.from_, edge.key.to_] ↔
      g.nodes.Takes limits.maxGraphNodes edge.key.from_ ∧
        (g.nodes.emplace edge.key.from_ edge.from_).Takes limits.maxGraphNodes edge.key.to_ := by
    rw [OrdMap.room_cons (OrdMap.learns_emplace g.nodes edge.key.from_ edge.from_),
      OrdMap.room_cons (OrdMap.learns_emplace _ edge.key.to_ edge.to_)]
    simp
  rw [g.addEdge_of_named limits hnamed]
  rcases addNode_cases g limits hnamed.from_.1 hnamed.from_.2 with ⟨htakes, hadd⟩ | ⟨hfull, e, hadd⟩
  swap
  · exact Or.inr ⟨fun h => hfull (hroom.mp h.2.nodes).1, e, g, by rw [hadd]⟩
  rw [hadd]
  dsimp only
  rcases addNode_cases { g with nodes := g.nodes.emplace (Name.unchecked edge.from_.str) edge.from_ }
    limits hnamed.to_.1 hnamed.to_.2 with ⟨htakes', hadd'⟩ | ⟨hfull, e, hadd'⟩
  swap
  · exact Or.inr ⟨fun h => hfull (hroom.mp h.2.nodes).2, e, _, by rw [hadd']⟩
  rw [hadd']
  dsimp only
  rcases insertEdge_cases { g with
      nodes := (g.nodes.emplace (Name.unchecked edge.from_.str) edge.from_).emplace
        (Name.unchecked edge.to_.str) edge.to_ } edge edge.key limits with
    ⟨htakes'', g', hedge, hnodes, hedges⟩ | ⟨hfull, e, hedge⟩
  · exact Or.inl ⟨hnamed, ⟨hroom.mpr ⟨htakes, htakes'⟩, htakes''⟩, g', hedge, hnodes, hedges⟩
  · exact Or.inr ⟨fun h => hfull h.2.edges, e, _, hedge⟩

end CausalGraph

end CongestionObservatory
