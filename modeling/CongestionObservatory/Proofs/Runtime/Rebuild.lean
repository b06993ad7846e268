import CongestionObservatory.Proofs.Runtime.Concurrency
import CongestionObservatory.Proofs.Runtime.Graph

/-!
# `CongestionObservatory.Proofs.Runtime.Rebuild`: the causal graph under several threads

A rebuild, alone or at the end of an admission or a load, reads the topology, queries the store and
replaces the graph in three sections. Other threads may admit topologies, ingest and rebuild
between them, so the graph in place need not be that of the admitted topology.
`threads_graph_supported` says what it is: the graph of a topology that was admitted at one moment,
over the store of a later moment. Every edge cites records of that moment.
-/

set_option autoImplicit false

namespace CongestionObservatory

open Lib

namespace Runtime

variable {ι : Type} {move : SelfMove} {config : RuntimeConfig} {rt : Runtime} {history : History ι}
  {i : ι} {graph : CausalGraph}

/-! ### The path to a new graph -/

/-- What a rebuild has done when it is about to replace the graph. -/
theorem goes_rebuild {path : List (Program.Entry Section.Answer)} {rest : Unit → Operation Status}
    (h : (Operation.rebuildCausalGraph config).Goes path (.enter (.replaceGraph graph) rest)) :
    ∃ (topology : Topology) (records : List EvidenceRecord),
      path = [⟨.currentTopology, topology⟩, ⟨.query (structureQuery config.limits), records⟩] ∧
      linkEdges config.limits topology.generation (evidenceBySubject config.limits records) {}
        topology.structuralLinks = .ok graph := by
  have hreplaces : ¬ Concerns .rest (.replaceGraph graph) :=
    not_concerns Part.noConfusion Part.noConfusion Part.noConfusion
  have htopology : Operation.currentTopology.Only (Concerns .rest) :=
    Program.Only.ask (k := Section.currentTopology) (concerns_rest _ rfl)
  have hquery : (Operation.query (structureQuery config.limits)).Only (Concerns .rest) :=
    Program.Only.ask (k := Section.query _) (concerns_rest _ rfl)
  obtain ⟨topology, first, later, rfl, hfirst, hlater⟩ := htopology.enter_second hreplaces h
  obtain ⟨records, second, last, rfl, hsecond, hlast⟩ := hquery.enter_second hreplaces hlater
  rw [Program.Goes.ask (k := Section.currentTopology) hfirst,
    Program.Goes.ask (k := Section.query (structureQuery config.limits)) hsecond]
  refine ⟨topology, records, ?_⟩
  cases hlinks : linkEdges config.limits topology.generation
      (evidenceBySubject config.limits records) {} topology.structuralLinks with
  | error e =>
      rw [hlinks] at hlast
      cases hlast.done.2
  | ok built =>
      rw [hlinks] at hlast
      obtain ⟨rest', hact⟩ := Program.Only.enter_first (P := Concerns .rest)
        (fun _ => Program.Only.pure _) hreplaces hlast
      obtain ⟨rest'', henter⟩ := Program.Only.enter_first (P := Concerns .rest)
        (fun _ => Program.Only.pure _) hreplaces hact
      obtain ⟨rfl, hsame⟩ := Program.Goes.ask_enter (k := Section.replaceGraph built) henter
      cases hsame
      exact ⟨rfl, rfl⟩

/-- An operation that is about to replace the graph is at the end of a rebuild. -/
theorem goes_replaceGraph {snapshots : Option SnapshotStore} {request : Request}
    {path : List (Program.Entry Section.Answer)} {rest : Unit → Operation Response}
    (h : (operation config snapshots request).Goes path (.enter (.replaceGraph graph) rest)) :
    ∃ before own rest', path = before ++ own ∧
      (Operation.rebuildCausalGraph config).Goes own (.enter (.replaceGraph graph) rest') := by
  have hpart : request.part = .rebuild := part_of_goes h Part.noConfusion Part.noConfusion
  have hreplaces : ¬ Concerns .rest (.replaceGraph graph) :=
    not_concerns Part.noConfusion Part.noConfusion Part.noConfusion
  have hact : ∀ k : Section, k.part = .rest → (Operation.act k).Only (Concerns .rest) :=
    fun k hk => only_act (concerns_rest k hk)
  cases request with
  | classify subject window now => cases hpart
  | change call =>
      cases call with
      | admitTopology topology =>
          obtain ⟨rest', hadmit⟩ := Program.Only.enter_first (P := Concerns .rest)
            (fun _ => Program.Only.pure _) hreplaces h
          obtain ⟨u, first, second, rfl, -, hrebuild⟩ :=
            (hact (.replaceTopology topology) rfl).enter_second hreplaces hadmit
          exact ⟨first, second, rest', rfl, hrebuild⟩
      | rebuildCausalGraph =>
          obtain ⟨rest', hrebuild⟩ := Program.Only.enter_first (P := Concerns .rest)
            (fun _ => Program.Only.pure _) hreplaces h
          exact ⟨[], path, rest', rfl, hrebuild⟩
      | load files =>
          obtain ⟨rest', hload⟩ := Program.Only.enter_first (P := Concerns .rest)
            (fun _ => Program.Only.pure _) hreplaces h
          cases snapshots with
          | none => cases hload.done.2
          | some snapshots =>
              unfold Operation.load at hload
              dsimp only at hload
              split at hload
              · exact absurd ((Program.Only.bind (hact .countFailure rfl) fun _ =>
                  Program.Only.pure _).entered hload) hreplaces
              · -- The topology, the episodes, the evidence and the liveness come before the graph.
                obtain ⟨u, first, later, rfl, -, hlater⟩ :=
                  (hact (.replaceTopology _) rfl).enter_second hreplaces hload
                obtain ⟨restored, second, later, rfl, -, hlater⟩ :=
                  (only_restoreAll (concerns_restore _) _).enter_second hreplaces hlater
                cases restored with
                | error e => cases hlater.done.2
                | ok stale =>
                    obtain ⟨recovered, third, later, rfl, -, hlater⟩ :=
                      (only_recoverAll concerns_rest _).enter_second hreplaces hlater
                    cases recovered with
                    | error e => cases hlater.done.2
                    | ok =>
                        obtain ⟨u, fourth, later, rfl, -, hlater⟩ :=
                          (hact .resetLiveness rfl).enter_second hreplaces hlater
                        obtain ⟨rest'', hrebuild⟩ := Program.Only.enter_first (P := Concerns .rest)
                          (fun rebuilt => by
                            cases rebuilt with
                            | error e => trivial
                            | ok => exact Program.Only.bind (hact .countLoad rfl) fun _ => trivial)
                          hreplaces hlater
                        exact ⟨first ++ (second ++ (third ++ fourth)), later, rest'', by simp,
                          hrebuild⟩
      | _ => cases hpart

/-! ### The graph in place -/

/-- A thread has rebuilt the graph. It has read the topology that was admitted at one moment and
queried the store at a later one, and the graph is the one of that topology over that store. -/
def Rebuilt (move : SelfMove) (rt : Runtime) (history : History ι) (i : ι) (graph : CausalGraph) :
    Prop :=
  ∃ (earlier between later : History ι) (topology : Topology) (records : List EvidenceRecord)
      (store : EvidenceStore),
    history = earlier ++ (some i, .performed ⟨.currentTopology, topology⟩) :: between
      ++ (some i, .performed ⟨.query (structureQuery rt.config.limits), records⟩) :: later ∧
    topology = (runtimeAfter move rt earlier).topology ∧
    store = (runtimeAfter move rt
      (earlier ++ (some i, .performed ⟨.currentTopology, topology⟩) :: between)).store ∧
    causalGraphOf rt.config.limits topology store = .ok graph ∧
    ∀ edge ∈ graph.edges.values, Backed rt.config.limits topology store edge

theorem Rebuilt.append {later : History ι} (h : Rebuilt move rt history i graph) :
    Rebuilt move rt (history ++ later) i graph := by
  obtain ⟨earlier, between, after, topology, records, store, rfl, hrest⟩ := h
  exact ⟨earlier, between, after ++ later, topology, records, store, by simp, hrest⟩

/-- A rebuild whose sections are in the history gives the graph of their moments. -/
theorem rebuilt_of_goes (hconfig : rt.config = config) (hlimits : 0 < config.limits.maxCitations)
    (hplayed : Thread.Played (perform move) { runtime := rt } history)
    {path : List (Program.Entry Section.Answer)} {rest : Unit → Operation Status}
    (hgoes : (Operation.rebuildCausalGraph config).Goes path (.enter (.replaceGraph graph) rest))
    (hpath : (path.map fun e => (some i, .performed e)).Sublist history) :
    Rebuilt move rt history i graph := by
  obtain ⟨topology, records, rfl, hlinks⟩ := goes_rebuild hgoes
  obtain ⟨earlier, rest, rfl, hrest⟩ := Thread.exists_split_of_sublist hpath
  obtain ⟨between, later, rfl, -⟩ := Thread.exists_split_of_sublist hrest
  have hshape : earlier ++ (some i, .performed ⟨.currentTopology, topology⟩)
        :: (between ++ (some i, .performed ⟨.query (structureQuery config.limits), records⟩) :: later)
      = earlier ++ (some i, .performed ⟨.currentTopology, topology⟩) :: between
        ++ (some i, .performed ⟨.query (structureQuery config.limits), records⟩) :: later := by
    simp
  have htopology : (runtimeAfter move rt earlier).topology = topology :=
    hplayed.1 earlier (some i) ⟨.currentTopology, topology⟩ _ rfl
  rw [hshape] at hplayed
  have hrecords : (runtimeAfter move rt
      (earlier ++ (some i, .performed ⟨.currentTopology, topology⟩) :: between)).store.query
      (structureQuery config.limits) = records :=
    hplayed.1 _ (some i) ⟨.query (structureQuery config.limits), records⟩ later rfl
  have hgraph : causalGraphOf config.limits topology (runtimeAfter move rt
      (earlier ++ (some i, .performed ⟨.currentTopology, topology⟩) :: between)).store
        = .ok graph := by
    show linkEdges config.limits topology.generation (evidenceBySubject config.limits
      (EvidenceStore.query _ (structureQuery config.limits))) {} topology.structuralLinks = _
    rw [hrecords]
    exact hlinks
  refine ⟨earlier, between, later, topology, records, _, ?_, htopology.symm, rfl, ?_, ?_⟩
  · rw [hconfig, hshape]
  · rw [hconfig]
    exact hgraph
  · rw [hconfig]
    exact fun edge hedge => backed_of_causalGraphOf hlimits hgraph hedge

/-- Only one section replaces the graph. -/
theorem performOn_graph (k : Section) (rt : Runtime) :
    (performOn move k rt).2.graph = rt.graph ∨ k = .replaceGraph (performOn move k rt).2.graph := by
  cases k with
  | replaceGraph graph => exact Or.inr rfl
  | _ => exact Or.inl rfl

/-- The graph in place is the first one, or a section has put it there. -/
theorem graph_cases (hplayed : Thread.Played (perform move) { runtime := rt } history) :
    (runtimeAfter move rt history).graph = rt.graph ∨
      ∃ before i e later, history = before ++ (some i, .performed e) :: later ∧
        e.1 = .replaceGraph (runtimeAfter move rt history).graph := by
  generalize hgraph : (runtimeAfter move rt history).graph = graph
  have hstep : ∀ k s, (perform move k s).2.runtime.graph = graph →
      s.runtime.graph = graph ∨ k = .replaceGraph graph := by
    intro k s hnow
    rcases performOn_graph k s.runtime with hsame | hreplaced
    · exact Or.inl (hsame.symm.trans hnow)
    · exact Or.inr (hreplaced.trans (congrArg Section.replaceGraph hnow))
  rcases hplayed.established (perform move) (fun s => s.runtime.graph = graph)
      (fun e => e.1 = .replaceGraph graph) hstep hgraph with hfirst | hlater
  · exact Or.inl hfirst.symm
  · exact Or.inr hlater

/-- A created runtime has a graph without edges: nothing was observed yet. -/
theorem create_graph (h : create config = .ok rt) :
    rt.graph.edges.values = [] ∧ 0 < config.limits.maxCitations := by
  obtain ⟨hcheck, hrest⟩ := seq_eq_ok.mp h
  obtain ⟨hbuilt, hrest⟩ := seq_eq_ok.mp hrest
  obtain ⟨-, hrest⟩ := seq_eq_ok.mp hrest
  rw [pure_eq_ok] at hrest
  have hlimits : config.limits.validate = .ok () := (seq_eq_ok.mp hcheck).1
  have hcitations : 0 < config.limits.maxCitations :=
    Limits.pos_of_validate hlimits (config.limits.maxCitations, "max_citations")
      (by simp [Limits.positives])
  refine ⟨List.eq_nil_iff_forall_not_mem.mpr fun edge hedge => ?_, hcitations⟩
  rw [hrest] at hedge
  have hbacked := (rebuilt_edges_backed (initial config) hlimits).1 hbuilt edge hedge
  obtain ⟨id, hid⟩ := List.exists_mem_of_ne_nil _ hbacked.cited
  obtain ⟨record, hrecord, -⟩ := hbacked.retained id hid
  cases hrecord

/-- **The graph in place was rebuilt from one topology and one store.** Under every interleaving it
has no edges, or a thread has rebuilt it: it is the graph of a topology that was admitted at one
moment, over the store of a later moment, which retained the records its edges cite. -/
theorem threads_graph_supported [DecidableEq ι] (config : RuntimeConfig) (rt : Runtime)
    (hcreate : create config = .ok rt) (turns : List (Turn ι (ThreadMove Request) Empty)) :
    (runThreads move rt turns).shared.runtime.graph.edges.values = [] ∨
      ∃ i, Rebuilt move rt (runThreads move rt turns).history i
        (runThreads move rt turns).shared.runtime.graph := by
  obtain ⟨hshared, hplayed⟩ := @runThreads_played ι move _ rt turns
  obtain ⟨hnone, hcitations⟩ := create_graph hcreate
  have hconfig := (create_store hcreate).1
  rw [hshared]
  rcases graph_cases hplayed with hfirst | ⟨before, i, ⟨k, u⟩, later, hhistory, hk⟩
  · exact Or.inl (by rw [hfirst, hnone])
  · obtain rfl : k = .replaceGraph _ := hk
    obtain ⟨request, path, rest, hgoes, hpath⟩ := Thread.performed_path (perform move) hhistory
    obtain ⟨first, own, rest', rfl, hrebuild⟩ := goes_replaceGraph hgoes
    rw [hconfig] at hrebuild
    rw [List.map_append] at hpath
    refine Or.inr ⟨i, ?_⟩
    have hrebuilt := rebuilt_of_goes hconfig hcitations (hhistory ▸ hplayed).before hrebuild
      (((List.sublist_append_right _ _).trans (List.sublist_cons_self _ _)).trans hpath)
    rw [hhistory] at hrebuilt ⊢
    exact hrebuilt.append

/-- One thread admits the topology of a link and rebuilds the graph again, and another one recovers
a report of the link after that rebuild has read the topology. -/
def linkTurns : List (Turn Bool (ThreadMove Request) Empty) :=
  [.party true (.invoke (.change (.admitTopology (linkTopology (ascii "p1") (ascii "p2"))))),
    .party true .goOn, .party true .goOn, .party true .goOn, .party true .goOn, .party true .goOn,
    .party true (.invoke (.change .rebuildCausalGraph)), .party true .goOn,
    .party false (.invoke (.change (.ingestRecovered linkUp))), .party false .goOn,
    .party true .goOn, .party true .goOn, .party true .goOn, .party false .goOn]

/-- The result at two threads. -/
theorem threads_graph_supported_link :
    ∃ i, Rebuilt SelfMove.transfer (initial {})
      (runThreads SelfMove.transfer (initial {}) linkTurns).history i
      (runThreads SelfMove.transfer (initial {}) linkTurns).shared.runtime.graph := by
  have hedges : (runThreads SelfMove.transfer (initial {})
      linkTurns).shared.runtime.graph.edges.values.isEmpty = false := by
    decide +kernel
  rcases @threads_graph_supported Bool SelfMove.transfer _ {} (initial {}) create_default
      linkTurns with hnone | hrebuilt
  · exact absurd hnone (List.isEmpty_eq_false_iff.mp hedges)
  · exact hrebuilt

end Runtime

end CongestionObservatory
