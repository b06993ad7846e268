import CongestionObservatory.Proofs.Localization.Edges

/-!
# `CongestionObservatory.Proofs.Localization.Adjacency`: what a causal graph stores

Whatever is added to a graph, its edges lead between its nodes, each with the citations that justify
it, and the counts stay within the bounds (`Represents`). `out_edges` and `in_edges` list the edges
of a subject in a fixed order. The first is one scan of the edges. The second scans once for each
neighbour of the index, so the order and the absence of duplicates rest on the lists of the index
being ascending.

An edge that is refused may leave its end points behind. `refused_untouched_iff` says when it does
not.
-/

set_option autoImplicit false

namespace CongestionObservatory

open Lib

/-- The bounds a call is made with. -/
def GraphCall.limits : GraphCall → Limits
  | .addNode _ limits => limits
  | .addEdge _ limits => limits

namespace CausalEdgeKey

/-- The order of the edges to one subject. -/
def inOrder (k : CausalEdgeKey) : Name ×ₗ UInt8 ×ₗ Name :=
  toLex (k.from_, toLex (k.kind.toUInt8, k.rule))

/-- The order of the edges from one subject. -/
def outOrder (k : CausalEdgeKey) : Name ×ₗ UInt8 ×ₗ Name :=
  toLex (k.to_, toLex (k.kind.toUInt8, k.rule))

theorem inOrder_lt {a b : CausalEdgeKey} (h : a < b) (hto : a.to_ = b.to_) :
    a.inOrder < b.inOrder := by
  have hlex : a.orderKey < b.orderKey := h
  unfold orderKey at hlex
  rw [Prod.Lex.toLex_lt_toLex] at hlex
  unfold inOrder
  rw [Prod.Lex.toLex_lt_toLex]
  rcases hlex with hfrom | ⟨hfrom, hrest⟩
  · exact .inl hfrom
  · rw [Prod.Lex.toLex_lt_toLex] at hrest
    rcases hrest with hlt | ⟨-, hrest⟩
    · exact absurd hto (ne_of_lt hlt)
    · exact .inr ⟨hfrom, hrest⟩

theorem outOrder_lt {a b : CausalEdgeKey} (h : a < b) (hfrom : a.from_ = b.from_) :
    a.outOrder < b.outOrder := by
  have hlex : a.orderKey < b.orderKey := h
  unfold orderKey at hlex
  rw [Prod.Lex.toLex_lt_toLex] at hlex
  rcases hlex with hlt | ⟨-, hrest⟩
  · exact absurd hfrom (ne_of_lt hlt)
  · exact hrest

end CausalEdgeKey

namespace CausalGraph

/-- The list holds the stored edges with the property, each once, in the given order. -/
structure Lists (g : CausalGraph) (order : CausalEdgeKey → Name ×ₗ UInt8 ×ₗ Name)
    (P : CausalEdgeKey → Prop) (edges : List CausalEdge) : Prop where
  ordered : edges.Pairwise fun a b => order a.key < order b.key
  mem_iff : ∀ edge, edge ∈ edges ↔ edge ∈ g.edges.values ∧ P edge.key

/-- What a graph stores and how it answers for its edges. -/
structure Represents (g : CausalGraph) (limits : Limits) : Prop where
  keyed : ∀ e ∈ g.edges.entries, e.1 = e.2.key
  endpoints : ∀ edge ∈ g.edges.values, g.hasNode edge.from_ = true ∧ g.hasNode edge.to_ = true
  cited : ∀ edge ∈ g.edges.values, edge.citations ≠ [] ∧ edge.citations.Pairwise (· < ·) ∧
    edge.citations.length ≤ limits.maxCitations
  flagged : ∀ edge ∈ g.edges.values, edge.observational = edge.kind.isObservational
  nodeCount_le : g.nodeCount ≤ limits.maxGraphNodes
  edgeCount_le : g.edgeCount ≤ limits.maxGraphEdges
  incoming : ∀ subject, g.Lists CausalEdgeKey.inOrder
    (fun key => key.to_ = Name.unchecked subject.str) (g.inEdges subject)
  outgoing : ∀ subject, g.Lists CausalEdgeKey.outOrder
    (fun key => key.from_ = Name.unchecked subject.str) (g.outEdges subject)

/-! ### What each call keeps -/

/-- The part of the invariant that `WellIndexed` leaves out. -/
structure WellStored (g : CausalGraph) (limits : Limits) : Prop where
  cited : ∀ edge ∈ g.edges.values, edge.citations ≠ [] ∧ edge.citations.Pairwise (· < ·) ∧
    edge.citations.length ≤ limits.maxCitations
  flagged : ∀ edge ∈ g.edges.values, edge.observational = edge.kind.isObservational
  nodes_le : g.nodes.size ≤ limits.maxGraphNodes
  edges_le : g.edges.size ≤ limits.maxGraphEdges
  ascending : ∀ e ∈ g.inAdjacency.entries, e.2.Pairwise (· < ·)

/-- The citations of an edge are kept without duplicates, up to the bound. -/
theorem storedEdge_citations {edge : CausalEdge} {limits : Limits} (hcited : edge.citations ≠ [])
    (hcitations : 0 < limits.maxCitations) :
    (storedEdge edge limits).citations ≠ [] ∧
      (storedEdge edge limits).citations.Pairwise (· < ·) ∧
      (storedEdge edge limits).citations.length ≤ limits.maxCitations := by
  show (sortUnique edge.citations).take limits.maxCitations ≠ [] ∧ _
  refine ⟨?_, (sortUnique_ascending _).sublist (List.take_sublist _ _), List.length_take_le _ _⟩
  rw [Ne, List.take_eq_nil_iff, not_or]
  exact ⟨Nat.ne_of_gt hcitations, sortUnique_ne_nil hcited⟩

/-- A neighbour joins its list in order. -/
theorem ascending_addNeighbour {adjacency : OrdMap Name (List Name)} (key neighbour : Name)
    (h : ∀ e ∈ adjacency.entries, e.2.Pairwise (· < ·)) :
    ∀ e ∈ (addNeighbour adjacency key neighbour).entries, e.2.Pairwise (· < ·) := by
  have hknown : ((adjacency.find? key).getD []).Pairwise (· < ·) := by
    cases hfind : adjacency.find? key with
    | none => exact List.Pairwise.nil
    | some known => exact h _ (OrdMap.find?_eq_some_iff.mp hfind)
  intro e he
  rcases OrdMap.mem_insert he with rfl | he
  swap
  · exact h e he
  show (if _ then _ else _ : List Name).Pairwise _
  split
  · exact hknown
  · next hnew =>
      -- The name is new, so the sorted list has no two equal names.
      have hnodup : ((adjacency.find? key).getD [] ++ [neighbour]).Nodup := by
        rw [List.nodup_append]
        refine ⟨hknown.imp ne_of_lt, List.nodup_singleton _, fun a ha b hb => ?_⟩
        rintro rfl
        rw [List.mem_singleton] at hb
        exact hnew (hb ▸ ha)
      have hsorted := List.pairwise_insertionSort (· ≤ ·) ((adjacency.find? key).getD [] ++ [neighbour])
      have hdistinct := (List.perm_insertionSort (· ≤ ·) _).nodup_iff.mpr hnodup
      exact hsorted.imp₂ (fun _ _ hle hne => lt_of_le_of_ne hle hne) hdistinct

theorem addNode_size_le {g : CausalGraph} {limits : Limits} (subject : EvidenceSubject)
    (h : g.nodes.size ≤ limits.maxGraphNodes) :
    (g.addNode subject limits).2.nodes.size ≤ limits.maxGraphNodes := by
  unfold addNode
  dsimp only
  split
  · exact h
  split
  · exact h
  split
  · exact h
  split
  · exact h
  · next hroom => exact OrdMap.size_emplace_le (Nat.not_le.mp hroom)

theorem insertEdge_size_le {g : CausalGraph} {limits : Limits} (edge : CausalEdge)
    (key : CausalEdgeKey) (h : g.edges.size ≤ limits.maxGraphEdges) :
    (g.insertEdge edge key limits).2.edges.size ≤ limits.maxGraphEdges := by
  unfold insertEdge
  split
  · exact h
  split
  · exact h
  · next hroom => exact OrdMap.size_emplace_le (Nat.not_le.mp hroom)

theorem insertEdge_nodes (g : CausalGraph) (edge : CausalEdge) (key : CausalEdgeKey)
    (limits : Limits) : (g.insertEdge edge key limits).2.nodes = g.nodes := by
  unfold insertEdge
  split
  · rfl
  split <;> rfl

/-- Each table checks its bound before it grows. -/
theorem addEdge_sizes_le {g : CausalGraph} {limits : Limits} (edge : CausalEdge)
    (hnodes : g.nodes.size ≤ limits.maxGraphNodes) (hedges : g.edges.size ≤ limits.maxGraphEdges) :
    (g.addEdge edge limits).2.nodes.size ≤ limits.maxGraphNodes ∧
      (g.addEdge edge limits).2.edges.size ≤ limits.maxGraphEdges := by
  by_cases hnamed : edge.Named
  swap
  · obtain ⟨e, herror⟩ := g.addEdge_of_not_named limits hnamed
    rw [herror]
    exact ⟨hnodes, hedges⟩
  rw [g.addEdge_of_named limits hnamed]
  have hnodes₁ := addNode_size_le edge.from_ hnodes
  have hedges₁ := (g.addNode_shape edge.from_ limits).1
  generalize g.addNode edge.from_ limits = added at hnodes₁ hedges₁ ⊢
  obtain ⟨_ | status, g₁⟩ := added
  · exact ⟨hnodes₁, hedges₁ ▸ hedges⟩
  dsimp only at hnodes₁ hedges₁ ⊢
  have hnodes₂ := addNode_size_le edge.to_ hnodes₁
  have hedges₂ := (g₁.addNode_shape edge.to_ limits).1
  generalize g₁.addNode edge.to_ limits = added at hnodes₂ hedges₂ ⊢
  obtain ⟨_ | status', g₂⟩ := added
  · exact ⟨hnodes₂, hedges₂ ▸ hedges₁ ▸ hedges⟩
  dsimp only at hnodes₂ hedges₂ ⊢
  rw [insertEdge_nodes]
  exact ⟨hnodes₂, insertEdge_size_le edge edge.key (hedges₂ ▸ hedges₁ ▸ hedges)⟩

/-- A call under the bounds keeps what is stored well. -/
theorem WellStored.step {g : CausalGraph} {limits : Limits} (h : g.WellStored limits)
    (hcitations : 0 < limits.maxCitations) {call : GraphCall} (hlimits : call.limits = limits) :
    (g.step call).2.WellStored limits := by
  subst hlimits
  cases call with
  | addNode subject limits =>
      obtain ⟨hedges, hadjacency, -, -⟩ := g.addNode_shape subject limits
      show (g.addNode subject limits).2.WellStored limits
      refine ⟨?_, ?_, addNode_size_le subject h.nodes_le, ?_, ?_⟩
      · rw [hedges]
        exact h.cited
      · rw [hedges]
        exact h.flagged
      · rw [hedges]
        exact h.edges_le
      · rw [hadjacency]
        exact h.ascending
  | addEdge edge limits =>
      obtain ⟨hnodes, hedges⟩ := addEdge_sizes_le edge h.nodes_le h.edges_le
      show (g.addEdge edge limits).2.WellStored limits
      obtain ⟨-, ⟨hsame, hadjacency⟩ | hstored⟩ := g.addEdge_shape edge limits
      · refine ⟨?_, ?_, hnodes, hedges, ?_⟩
        · rw [hsame]
          exact h.cited
        · rw [hsame]
          exact h.flagged
        · rw [hadjacency]
          exact h.ascending
      have hmem : ∀ stored ∈ (g.addEdge edge limits).2.edges.values,
          stored = storedEdge edge limits ∨ stored ∈ g.edges.values := by
        intro stored hmem
        rw [hstored.edges] at hmem
        exact OrdMap.mem_values_emplace hmem
      refine ⟨fun stored hmem' => ?_, fun stored hmem' => ?_, hnodes, hedges, ?_⟩
      · rcases hmem stored hmem' with rfl | hold
        · exact storedEdge_citations hstored.named.cited hcitations
        · exact h.cited stored hold
      · rcases hmem stored hmem' with rfl | hold
        · rfl
        · exact h.flagged stored hold
      · rw [hstored.inAdjacency]
        exact ascending_addNeighbour _ _ h.ascending

theorem wellStored_built {limits : Limits} (hcitations : 0 < limits.maxCitations)
    {calls : List GraphCall} (hcalls : ∀ call ∈ calls, call.limits = limits) :
    (built calls).WellStored limits := by
  refine guarded_run_induction CausalGraph.step (fun g => g.WellStored limits) ?_
    (fun g call h hlimits => h.step hcitations hlimits) calls
    (guarded_of_forall CausalGraph.step _ hcalls)
  have hnone : ∀ edge, edge ∉ (({} : CausalGraph).edges.values) := fun edge => List.not_mem_nil
  exact ⟨fun e he => absurd he (hnone e), fun e he => absurd he (hnone e), Nat.zero_le _,
    Nat.zero_le _, fun e he => absurd he List.not_mem_nil⟩

/-! ### The lists of edges -/

/-- The edges from one subject are scanned in the order of the keys. -/
theorem pairwise_edgesFrom (g : CausalGraph) (n : Name) :
    (g.edgesFrom n).Pairwise fun a b => a.1 < b.1 ∧ a.1.from_ = n ∧ b.1.from_ = n := by
  have hsorted : (g.edgesFrom n).Pairwise fun a b => a.1 < b.1 := by
    refine g.edges.sorted.sublist ?_
    exact (List.takeWhile_sublist _).trans (List.dropWhile_sublist _)
  refine hsorted.imp_of_mem fun ha hb hlt => ?_
  exact ⟨hlt, (mem_edgesFrom_iff.mp ha).2, (mem_edgesFrom_iff.mp hb).2⟩

/-- `out_edges` lists the edges from the subject. -/
theorem lists_outEdges {g : CausalGraph} (h : g.WellIndexed) (subject : EvidenceSubject) :
    g.Lists CausalEdgeKey.outOrder (fun key => key.from_ = Name.unchecked subject.str)
      (g.outEdges subject) := by
  have hkeyed : ∀ e ∈ g.edgesFrom (Name.unchecked subject.str), e.1 = e.2.key :=
    fun e he => (h.keyed e (mem_edgesFrom_iff.mp he).1).1
  refine ⟨?_, fun edge => ⟨fun hmem => ?_, ?_⟩⟩
  · unfold outEdges
    rw [List.pairwise_map]
    refine (g.pairwise_edgesFrom _).imp_of_mem fun {a b} ha hb hlt => ?_
    rw [← hkeyed a ha, ← hkeyed b hb]
    exact CausalEdgeKey.outOrder_lt hlt.1 (hlt.2.1.trans hlt.2.2.symm)
  · obtain ⟨e, he, rfl⟩ := List.mem_map.mp hmem
    obtain ⟨hentry, hfrom⟩ := mem_edgesFrom_iff.mp he
    exact ⟨List.mem_map_of_mem hentry, by rw [← hkeyed e he]; exact hfrom⟩
  · rintro ⟨hmem, hfrom⟩
    obtain ⟨e, he, rfl⟩ := List.mem_map.mp hmem
    rw [← (h.keyed e he).1] at hfrom
    exact List.mem_map_of_mem (mem_edgesFrom_iff.mpr ⟨he, hfrom⟩)

/-- `in_edges` lists the edges to the subject. -/
theorem lists_inEdges {g : CausalGraph} (h : g.WellIndexed)
    (hascending : ∀ e ∈ g.inAdjacency.entries, e.2.Pairwise (· < ·)) (subject : EvidenceSubject) :
    g.Lists CausalEdgeKey.inOrder (fun key => key.to_ = Name.unchecked subject.str)
      (g.inEdges subject) := by
  refine ⟨?_, fun edge => mem_inEdges_key_iff h⟩
  unfold inEdges
  split
  · exact List.Pairwise.nil
  · next known hknown =>
      have hedge : ∀ n, ∀ edge ∈ ((g.edgesFrom n).filter fun e =>
          e.1.to_ = Name.unchecked subject.str).map Prod.snd,
          edge.key.from_ = n ∧ edge.key.to_ = Name.unchecked subject.str := by
        intro n edge hmem
        obtain ⟨e, he, rfl⟩ := List.mem_map.mp hmem
        obtain ⟨hscan, hto⟩ := List.mem_filter.mp he
        obtain ⟨hentry, hfrom⟩ := mem_edgesFrom_iff.mp hscan
        rw [← (h.keyed e hentry).1]
        exact ⟨hfrom, decide_eq_true_eq.mp hto⟩
      refine List.pairwise_flatMap.mpr ⟨fun n _ => ?_, ?_⟩
      · -- One scan: the edges share both ends.
        rw [List.pairwise_map]
        refine ((g.pairwise_edgesFrom n).filter _).imp_of_mem fun {a b} ha hb hlt => ?_
        have hkeyed : ∀ e ∈ (g.edgesFrom n).filter fun e =>
            decide (e.1.to_ = Name.unchecked subject.str), e.1 = e.2.key :=
          fun e he => (h.keyed e (mem_edgesFrom_iff.mp (List.mem_filter.mp he).1).1).1
        have hto : a.1.to_ = b.1.to_ := by
          rw [decide_eq_true_eq.mp (List.mem_filter.mp ha).2,
            decide_eq_true_eq.mp (List.mem_filter.mp hb).2]
        rw [← hkeyed a ha, ← hkeyed b hb]
        exact CausalEdgeKey.inOrder_lt hlt.1 hto
      · -- Two scans: the neighbours are ascending, and the neighbour comes first in the order.
        refine (hascending _ (OrdMap.find?_eq_some_iff.mp hknown)).imp fun {n n'} hlt a ha b hb => ?_
        unfold CausalEdgeKey.inOrder
        rw [Prod.Lex.toLex_lt_toLex, (hedge n a ha).1, (hedge n' b hb).1]
        exact .inl hlt

/-- Every graph that calls under the bounds build stores its edges well and lists them in order. -/
theorem represents_built {limits : Limits} (hcitations : 0 < limits.maxCitations)
    {calls : List GraphCall} (hcalls : ∀ call ∈ calls, call.limits = limits) :
    (built calls).Represents limits := by
  have hindexed := wellIndexed_built calls
  have hstored := wellStored_built hcitations hcalls
  refine ⟨fun e he => (hindexed.keyed e he).1, fun edge hmem => ?_, hstored.cited, hstored.flagged,
    hstored.nodes_le, hstored.edges_le, lists_inEdges hindexed hstored.ascending,
    lists_outEdges hindexed⟩
  obtain ⟨e, he, rfl⟩ := List.mem_map.mp hmem
  have hends := hindexed.endpoints e he
  rw [(hindexed.keyed e he).1] at hends
  exact hends

/-- An edge between two queues. -/
def pressureEdge : CausalEdge :=
  { from_ := .queue (EntityId.unchecked (ascii "a")), to_ := .queue (EntityId.unchecked (ascii "b"))
    kind := .bufferPressure, ruleId := ascii "r", citations := [⟨0, 2⟩, ⟨0, 1⟩, ⟨0, 2⟩] }

theorem pressureEdge_represents :
    (built [.addEdge pressureEdge {}, .addNode pressureEdge.to_ {}]).Represents {} ∧
      ((built [.addEdge pressureEdge {}, .addNode pressureEdge.to_ {}]).inEdges
        pressureEdge.to_).map CausalEdge.citations = [[⟨0, 1⟩, ⟨0, 2⟩]] := by
  refine ⟨represents_built (by decide) ?_, by decide +kernel⟩
  simp [GraphCall.limits]

/-! ### Edges that are refused -/

/-- Nothing of the graph changed. -/
structure Untouched (g g' : CausalGraph) : Prop where
  nodes : g'.nodes = g.nodes
  edges : g'.edges = g.edges
  outAdjacency : g'.outAdjacency = g.outAdjacency
  inAdjacency : g'.inAdjacency = g.inAdjacency
  nodeCount : g'.nodeCount = g.nodeCount
  digest : g'.digest = g.digest

/-- The edge is malformed, or taken, or there is no end point to add for it. -/
def RefusesCleanly (g : CausalGraph) (edge : CausalEdge) (limits : Limits) : Prop :=
  ¬ edge.Named ∨ g.HasRoom edge limits ∨ limits.maxGraphNodes ≤ g.nodes.size ∨
    (g.nodes.find? edge.key.from_ ≠ none ∧ g.nodes.find? edge.key.to_ ≠ none)

theorem emplace_of_known {κ ν : Type} [LinearOrder κ] {m : OrdMap κ ν} {k : κ} (v : ν)
    (h : m.find? k ≠ none) : m.emplace k v = m :=
  if_pos (Option.isSome_iff_ne_none.mpr h)

/-- A key that is added to a table with room: it is known, or the table grows. -/
theorem emplace_of_takes {m : OrdMap Name EvidenceSubject} {k : Name} (v : EvidenceSubject)
    {bound : Nat} (h : m.Takes bound k) :
    (m.find? k ≠ none ∧ m.emplace k v = m) ∨
      (m.find? k = none ∧ m.size < bound ∧ (m.emplace k v).size = m.size + 1) := by
  by_cases hnew : m.find? k = none
  · exact .inr ⟨hnew, h.resolve_left (not_not.mpr hnew), (OrdMap.learns_emplace m k v).size_new hnew⟩
  · exact .inl ⟨hnew, emplace_of_known v hnew⟩

/-- A named edge without room is refused. The graph stays as it was when no end point could be
added, and has more nodes otherwise. -/
theorem addEdge_of_no_room (g : CausalGraph) {edge : CausalEdge} {limits : Limits}
    (hnamed : edge.Named) (hroom : ¬ g.HasRoom edge limits) :
    ∃ e g', g.addEdge edge limits = (.error e, g') ∧
      (g' = g ∧ (limits.maxGraphNodes ≤ g.nodes.size ∨
          (g.nodes.find? edge.key.from_ ≠ none ∧ g.nodes.find? edge.key.to_ ≠ none)) ∨
        (g.nodes.size < g'.nodes.size ∧ g.nodes.size < limits.maxGraphNodes ∧
          (g.nodes.find? edge.key.from_ = none ∨ g.nodes.find? edge.key.to_ = none))) := by
  obtain ⟨-, h, -⟩ | ⟨-, e, g', hrefused⟩ := g.addEdge_cases edge limits
  · exact absurd h hroom
  rw [g.addEdge_of_named limits hnamed] at hrefused ⊢
  rcases addNode_cases g limits hnamed.from_.1 hnamed.from_.2 with ⟨htakes, hadd⟩ | ⟨hfull, e, hadd⟩
  swap
  · -- The first end point is refused, and nothing was added before it.
    refine ⟨e, g, by rw [hadd], .inl ⟨rfl, .inl ?_⟩⟩
    exact Nat.not_lt.mp fun hlt => hfull (.inr hlt)
  rw [hadd] at hrefused ⊢
  dsimp only at hrefused ⊢
  generalize hg₁ : ({ g with nodes := g.nodes.emplace (Name.unchecked edge.from_.str) edge.from_ } :
    CausalGraph) = g₁ at hrefused ⊢
  have hfrom : (g.nodes.find? edge.key.from_ ≠ none ∧ g₁ = g) ∨
      (g.nodes.find? edge.key.from_ = none ∧ g.nodes.size < limits.maxGraphNodes ∧
        g₁.nodes.size = g.nodes.size + 1) := by
    subst hg₁
    rcases emplace_of_takes edge.from_ htakes with ⟨hknown, hsame⟩ | hgrown
    · exact .inl ⟨hknown, by rw [hsame]⟩
    · exact .inr hgrown
  rcases addNode_cases g₁ limits hnamed.to_.1 hnamed.to_.2 with ⟨htakes', hadd'⟩ | ⟨hfull, e, hadd'⟩
  swap
  · -- The second end point is refused: the first one stays if it was new.
    have hle : limits.maxGraphNodes ≤ g₁.nodes.size := Nat.not_lt.mp fun hlt => hfull (.inr hlt)
    refine ⟨e, g₁, by rw [hadd'], ?_⟩
    rcases hfrom with ⟨-, rfl⟩ | ⟨hnew, hlt, hsize⟩
    · exact .inl ⟨rfl, .inl hle⟩
    · exact .inr ⟨by omega, hlt, .inl hnew⟩
  rw [hadd'] at hrefused ⊢
  dsimp only at hrefused ⊢
  generalize hg₂ : ({ g₁ with nodes := g₁.nodes.emplace (Name.unchecked edge.to_.str) edge.to_ } :
    CausalGraph) = g₂ at hrefused ⊢
  have hto : (g₁.nodes.find? edge.key.to_ ≠ none ∧ g₂ = g₁) ∨
      (g₁.nodes.find? edge.key.to_ = none ∧ g₁.nodes.size < limits.maxGraphNodes ∧
        g₂.nodes.size = g₁.nodes.size + 1) := by
    subst hg₂
    rcases emplace_of_takes edge.to_ htakes' with ⟨hknown, hsame⟩ | hgrown
    · exact .inl ⟨hknown, by rw [hsame]⟩
    · exact .inr hgrown
  -- The edge is refused: what was added for it stays.
  obtain ⟨-, g₃, htaken, -⟩ | ⟨-, e', hfull⟩ := g₂.insertEdge_cases edge edge.key limits
  · rw [htaken] at hrefused
    cases hrefused
  refine ⟨e', g₂, hfull, ?_⟩
  rcases hfrom with ⟨hknown, rfl⟩ | ⟨hnew, hlt, hsize⟩
  · rcases hto with ⟨hknown', rfl⟩ | ⟨hnew', hlt', hsize'⟩
    · exact .inl ⟨rfl, .inr ⟨hknown, hknown'⟩⟩
    · exact .inr ⟨by omega, hlt', .inr hnew'⟩
  · refine .inr ⟨?_, hlt, .inl hnew⟩
    rcases hto with ⟨-, rfl⟩ | ⟨-, -, hsize'⟩
    · omega
    · omega

/-- An edge that is refused leaves no trace exactly when it is malformed, or no end point is added
for it. -/
theorem refused_untouched_iff (g : CausalGraph) (edge : CausalEdge) (limits : Limits) :
    (∀ e, (g.addEdge edge limits).1 = .error e → g.Untouched (g.addEdge edge limits).2) ↔
      g.RefusesCleanly edge limits := by
  unfold RefusesCleanly
  by_cases hnamed : edge.Named
  swap
  · obtain ⟨e, herror⟩ := g.addEdge_of_not_named limits hnamed
    rw [herror]
    exact iff_of_true (fun _ _ => ⟨rfl, rfl, rfl, rfl, rfl, rfl⟩) (.inl hnamed)
  by_cases hroom : g.HasRoom edge limits
  · obtain ⟨-, -, g', htaken, -⟩ | ⟨hnot, -⟩ := g.addEdge_cases edge limits
    · rw [htaken]
      exact iff_of_true (fun e h => nomatch h) (.inr (.inl hroom))
    · exact absurd ⟨hnamed, hroom⟩ hnot
  obtain ⟨e, g', herror, ⟨rfl, hsame⟩ | ⟨hgrown, hlt, hnew⟩⟩ := g.addEdge_of_no_room hnamed hroom
  · rw [herror]
    exact iff_of_true (fun _ _ => ⟨rfl, rfl, rfl, rfl, rfl, rfl⟩) (.inr (.inr hsame))
  · rw [herror]
    refine iff_of_false (fun h => ?_) ?_
    · have hnodes := (h e rfl).nodeCount
      exact absurd hnodes (Nat.ne_of_gt hgrown)
    · rintro (h | h | h | ⟨hfrom, hto⟩)
      · exact h hnamed
      · exact hroom h
      · omega
      · exact hnew.elim hfrom hto

/-- There is room for one node only: the edge is refused, and its first end point stays. -/
theorem refused_edge_leaves_node : ∃ e,
    (({} : CausalGraph).addEdge pressureEdge { maxGraphNodes := 1 }).1 = .error e ∧
      (({} : CausalGraph).addEdge pressureEdge { maxGraphNodes := 1 }).2.nodeCount = 1 ∧
      ¬ ({} : CausalGraph).Untouched
        (({} : CausalGraph).addEdge pressureEdge { maxGraphNodes := 1 }).2 := by
  have hone : (({} : CausalGraph).addEdge pressureEdge { maxGraphNodes := 1 }).2.nodeCount = 1 := by
    decide +kernel
  refine ⟨makeError .limitExceeded "causal graph node limit reached" (decimal 1), by decide +kernel,
    hone, fun h => ?_⟩
  have hcount := h.nodeCount
  rw [hone] at hcount
  cases hcount

end CausalGraph

end CongestionObservatory
