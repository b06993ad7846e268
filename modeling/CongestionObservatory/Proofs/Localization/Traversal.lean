import CongestionObservatory.Localization.Localize
import CongestionObservatory.Proofs.Localization.Edges

/-!
# `CongestionObservatory.Proofs.Localization.Traversal`: the traversal is a breadth-first search

The traversal of `localize` keeps its visited subjects by name, what it reached in a map and the
limited flag in a variable. `Follows` relates these variables to the entries of a breadth-first
search over the in-edges, and each turn of the loop is a turn of that search (`Follows.turn`). So
the steps that are scored are the subjects other than the symptom within the depth, each once and at
its distance (`distance_of_reached`, `nodup_reachedSteps`), and the flag says that a subject at the
full depth has in-edges (`depthLimited_iff`).
-/

set_option autoImplicit false

namespace CongestionObservatory

open Lib

/-- The steps to the origins of the in-edges of a subject. -/
def stepsFrom (g : CausalGraph) (current : TraversalStep) : List TraversalStep :=
  (g.inEdges current.node).map current.along

/-- The variables of the loop, told by the entries of a search. -/
structure Follows (g : CausalGraph) (maxDepth : Nat) (symptom : EvidenceSubject) (t : Traversal)
    (st : BreadthFirst.State TraversalStep) : Prop where
  symptom_mem : symptom ∈ st.seen.map TraversalStep.node
  queue : t.queue = st.queue
  visited : ∀ node : EvidenceSubject, (Name.unchecked node.str).valid = true →
    (Name.unchecked node.str ∈ t.visited ↔ node ∈ st.seen.map TraversalStep.node)
  reached : ∀ name steps, t.reached.find? name = some steps ↔
    ∃ s ∈ st.seen, s.node ≠ symptom ∧ s.key = name ∧ steps = [s]
  depthLimited : t.depthLimited = true ↔
    ∃ s ∈ st.done, maxDepth ≤ s.depth ∧ g.inEdges s.node ≠ []

/-- The search the traversal makes, after a number of turns. -/
def searchAfter (g : CausalGraph) (maxDepth : Nat) (symptom : EvidenceSubject) (n : Nat) :
    BreadthFirst.State TraversalStep :=
  BreadthFirst.search TraversalStep.node TraversalStep.depth (stepsFrom g) maxDepth
    { node := symptom } n

section

variable {g : CausalGraph} {maxDepth : Nat} {symptom : EvidenceSubject} {t : Traversal}
  {st : BreadthFirst.State TraversalStep}

theorem follows_start : Follows g maxDepth symptom (Traversal.start symptom)
    ⟨[], [{ node := symptom }]⟩ where
  symptom_mem := List.mem_singleton_self _
  queue := rfl
  visited node hvalid := by
    show Name.unchecked node.str ∈ [Name.unchecked symptom.str] ↔ node ∈ [symptom]
    rw [List.mem_singleton, List.mem_singleton]
    constructor
    · exact fun hsame => (EvidenceSubject.eq_of_key_eq hsame.symm hvalid).symm
    · rintro rfl
      rfl
  reached name steps := by
    constructor
    · intro h
      cases h
    · rintro ⟨s, hs, hne, -⟩
      exact absurd (congrArg TraversalStep.node (List.mem_singleton.mp hs)) hne
  depthLimited := by
    constructor
    · intro h
      cases h
    · rintro ⟨s, hs, -⟩
      cases hs

/-- One in-edge is one entry that the search discovers. -/
theorem Follows.examine (h : Follows g maxDepth symptom t st) (current : TraversalStep)
    {edge : CausalEdge} (hvalid : (Name.unchecked edge.from_.str).valid = true) :
    Follows g maxDepth symptom (t.examine current edge)
      (BreadthFirst.discover TraversalStep.node st (current.along edge)) := by
  have hknown := h.visited edge.from_ hvalid
  unfold Traversal.examine BreadthFirst.discover
  -- The names of the visited subjects tell the same as the entries of the search, as different
  -- subjects with names have different ones.
  by_cases hseen : edge.from_ ∈ st.seen.map TraversalStep.node
  · rw [if_pos (show (current.along edge).node ∈ _ from hseen)]
    dsimp only
    rw [if_pos (show (current.along edge).key ∈ t.visited from hknown.mpr hseen)]
    exact ⟨h.symptom_mem, h.queue, h.visited, h.reached, h.depthLimited⟩
  · rw [if_neg (show (current.along edge).node ∉ _ from hseen)]
    dsimp only
    rw [if_neg (show (current.along edge).key ∉ t.visited from fun hin => hseen (hknown.mp hin))]
    have hentries : (⟨st.done, st.queue ++ [current.along edge]⟩ :
        BreadthFirst.State TraversalStep).seen = st.seen ++ [current.along edge] :=
      (List.append_assoc _ _ _).symm
    -- Nothing was reached under the name of a subject that has no entry.
    have hnew : t.reached.find? (current.along edge).key = none := by
      cases hfind : t.reached.find? (current.along edge).key with
      | none => rfl
      | some steps =>
          obtain ⟨s, hs, -, hname, -⟩ := (h.reached _ _).mp hfind
          have hsame : s.node = edge.from_ := EvidenceSubject.eq_of_key_eq hname hvalid
          exact absurd (hsame ▸ List.mem_map_of_mem hs) hseen
    refine ⟨?_, ?_, fun node hnode => ?_, fun name steps => ?_, h.depthLimited⟩
    · rw [hentries, List.map_append]
      exact List.mem_append_left _ h.symptom_mem
    · exact congrArg (· ++ [current.along edge]) h.queue
    · rw [hentries, List.map_append, List.mem_append, ← h.visited node hnode]
      show _ ∈ (current.along edge).key :: t.visited ↔ _ ∨ node ∈ [edge.from_]
      rw [List.mem_cons, List.mem_singleton, or_comm]
      refine or_congr_right ⟨fun hsame => EvidenceSubject.eq_of_key_eq hsame hvalid, ?_⟩
      rintro rfl
      rfl
    · rw [hentries, OrdMap.find?_insert, hnew]
      have hother : edge.from_ ≠ symptom := fun hsame => hseen (hsame ▸ h.symptom_mem)
      by_cases hname : name = (current.along edge).key
      · rw [if_pos hname, hname]
        constructor
        · rintro hsteps
          cases hsteps
          exact ⟨current.along edge, by simp, hother, rfl, rfl⟩
        · rintro ⟨s, hs, -, hkey, rfl⟩
          rcases List.mem_append.mp hs with hs | hs
          · have hsame : s.node = edge.from_ := EvidenceSubject.eq_of_key_eq hkey hvalid
            exact absurd (hsame ▸ List.mem_map_of_mem hs) hseen
          · rw [List.mem_singleton.mp hs]
            rfl
      · rw [if_neg hname, h.reached]
        constructor
        · rintro ⟨s, hs, hfound⟩
          exact ⟨s, List.mem_append_left _ hs, hfound⟩
        · rintro ⟨s, hs, hne, hkey, hsteps⟩
          rcases List.mem_append.mp hs with hs | hs
          · exact ⟨s, hs, hne, hkey, hsteps⟩
          · rw [List.mem_singleton.mp hs] at hkey
            exact absurd hkey.symm hname

theorem Follows.foldl_examine (h : Follows g maxDepth symptom t st) (current : TraversalStep)
    {edges : List CausalEdge}
    (hvalid : ∀ edge ∈ edges, (Name.unchecked edge.from_.str).valid = true) :
    Follows g maxDepth symptom (edges.foldl (Traversal.examine current) t)
      ((edges.map current.along).foldl (BreadthFirst.discover TraversalStep.node) st) := by
  induction edges generalizing t st with
  | nil => exact h
  | cons edge rest ih =>
      obtain ⟨hedge, hrest⟩ := List.forall_mem_cons.mp hvalid
      exact ih (h.examine current hedge) hrest

/-- One turn of the loop is one turn of the search. -/
theorem Follows.turn (hg : g.WellIndexed) (h : Follows g maxDepth symptom t st) :
    Follows g maxDepth symptom (t.turn g maxDepth)
      (BreadthFirst.visit TraversalStep.node TraversalStep.depth (stepsFrom g) maxDepth st) := by
  obtain ⟨done, queue⟩ := st
  have hqueue : t.queue = queue := h.queue
  unfold Traversal.turn BreadthFirst.visit BreadthFirst.expand
  rw [hqueue]
  cases queue with
  | nil => exact h
  | cons current rest =>
      dsimp only
      have hentries : (⟨done ++ [current], rest⟩ : BreadthFirst.State TraversalStep).seen
          = (⟨done, current :: rest⟩ : BreadthFirst.State TraversalStep).seen :=
        (List.append_cons done current rest).symm
      -- At the full depth the loop only looks whether there are in-edges; the search expands
      -- nothing.
      by_cases hdepth : current.depth ≥ maxDepth
      · rw [if_pos hdepth, if_neg (Nat.not_lt.mpr hdepth)]
        refine ⟨hentries ▸ h.symptom_mem, rfl, hentries ▸ h.visited, hentries ▸ h.reached, ?_⟩
        show (t.depthLimited || !(g.inEdges current.node).isEmpty) = true ↔
          ∃ s ∈ done ++ [current], maxDepth ≤ s.depth ∧ g.inEdges s.node ≠ []
        rw [Bool.or_eq_true, h.depthLimited]
        simp only [List.mem_append, List.mem_singleton, or_and_right, exists_or, exists_eq_left,
          hdepth, true_and, Bool.not_eq_true', List.isEmpty_eq_false_iff]
      · rw [if_neg hdepth, if_pos (Nat.lt_of_not_ge hdepth)]
        refine Follows.foldl_examine ?_ current fun edge hedge => ?_
        · refine ⟨hentries ▸ h.symptom_mem, rfl, hentries ▸ h.visited, hentries ▸ h.reached, ?_⟩
          show t.depthLimited = true ↔
            ∃ s ∈ done ++ [current], maxDepth ≤ s.depth ∧ g.inEdges s.node ≠ []
          rw [h.depthLimited]
          simp only [List.mem_append, List.mem_singleton, or_and_right, exists_or, exists_eq_left]
          exact (or_iff_left fun hcut => hdepth hcut.1).symm
        · exact (CausalGraph.hasNode_of_mem hg ((CausalGraph.mem_inEdges_iff hg).mp hedge).1).2

/-- The loop is the search. -/
theorem follows_after (hg : g.WellIndexed) (n : Nat) :
    Follows g maxDepth symptom (Traversal.after g maxDepth symptom n)
      (searchAfter g maxDepth symptom n) := by
  induction n with
  | zero => exact follows_start
  | succ n ih => exact ih.turn hg

/-! ### What the search finds -/

theorem depth_of_mem_stepsFrom {current s : TraversalStep} (h : s ∈ stepsFrom g current) :
    s.depth = current.depth + 1 := by
  obtain ⟨edge, -, rfl⟩ := List.mem_map.mp h
  rfl

theorem causedBy_iff_stepsFrom (hg : g.WellIndexed) (current : TraversalStep)
    (cause : EvidenceSubject) :
    g.CausedBy current.node cause ↔ ∃ s ∈ stepsFrom g current, s.node = cause := by
  rw [CausalGraph.causedBy_iff hg]
  unfold stepsFrom
  simp only [List.mem_map, exists_exists_and_eq_and]
  rfl

theorem searching (hg : g.WellIndexed) (n : Nat) :
    BreadthFirst.Searching g.CausedBy TraversalStep.node TraversalStep.depth (stepsFrom g) maxDepth
      { node := symptom } (searchAfter g maxDepth symptom n) :=
  BreadthFirst.searching_search (causedBy_iff_stepsFrom hg) (fun _ _ => depth_of_mem_stepsFrom) rfl n

/-- The search the whole loop makes. -/
def wholeSearch (g : CausalGraph) (maxDepth : Nat) (symptom : EvidenceSubject) :
    BreadthFirst.State TraversalStep := searchAfter g maxDepth symptom (g.edges.size + 1)

theorem queue_wholeSearch (hg : g.WellIndexed) : (wholeSearch g maxDepth symptom).queue = [] := by
  -- Every step leads to the origin of an edge, so the edges bound the number of nodes.
  have hlength : (g.edges.values.map CausalEdge.from_).length = g.edges.size := by
    rw [List.length_map, OrdMap.values, List.length_map, OrdMap.size]
  rw [wholeSearch, ← hlength]
  refine BreadthFirst.queue_search (causedBy_iff_stepsFrom hg) (fun _ _ => depth_of_mem_stepsFrom)
    rfl fun s u hu => ?_
  obtain ⟨edge, hedge, rfl⟩ := List.mem_map.mp hu
  exact List.mem_map_of_mem ((CausalGraph.mem_inEdges_iff hg).mp hedge).1

theorem follows_traverse (hg : g.WellIndexed) :
    Follows g maxDepth symptom (traverse g maxDepth symptom) (wholeSearch g maxDepth symptom) :=
  follows_after hg _

/-- The loop ends: after as many turns as there are edges, and one more, its queue is empty. -/
theorem queue_traverse (hg : g.WellIndexed) : (traverse g maxDepth symptom).queue = [] :=
  (follows_traverse hg).queue.trans (queue_wholeSearch hg)

/-- The steps that are scored are the entries other than the symptom. -/
theorem mem_reachedSteps_iff (hg : g.WellIndexed) {s : TraversalStep} :
    s ∈ reachedSteps (traverse g maxDepth symptom) ↔
      s ∈ (wholeSearch g maxDepth symptom).seen ∧ s.node ≠ symptom := by
  have hfollows := @follows_traverse g maxDepth symptom hg
  unfold reachedSteps
  rw [List.mem_filterMap]
  constructor
  · rintro ⟨steps, hsteps, hhead⟩
    obtain ⟨e, he, rfl⟩ := List.mem_map.mp hsteps
    obtain ⟨s', hs', hne, -, hsingle⟩ :=
      (hfollows.reached _ _).mp (OrdMap.find?_eq_some_iff.mpr he)
    rw [hsingle] at hhead
    cases hhead
    exact ⟨hs', hne⟩
  · rintro ⟨hs, hne⟩
    have hfind := (hfollows.reached s.key [s]).mpr ⟨s, hs, hne, rfl, rfl⟩
    exact ⟨[s], List.mem_map_of_mem (OrdMap.find?_eq_some_iff.mp hfind), rfl⟩

/-- No subject is scored twice. -/
theorem nodup_reachedSteps (hg : g.WellIndexed) :
    ((reachedSteps (traverse g maxDepth symptom)).map TraversalStep.node).Nodup := by
  have hfollows := @follows_traverse g maxDepth symptom hg
  -- The names of the steps are the keys of the map.
  have hkeys : (reachedSteps (traverse g maxDepth symptom)).map TraversalStep.key
      = (traverse g maxDepth symptom).reached.keys := by
    have hentries : ∀ e ∈ (traverse g maxDepth symptom).reached.entries,
        e.2.head?.map TraversalStep.key = some e.1 := by
      intro e he
      obtain ⟨s, -, -, hname, hsingle⟩ :=
        (hfollows.reached _ _).mp (OrdMap.find?_eq_some_iff.mpr he)
      rw [hsingle, ← hname]
      rfl
    rw [reachedSteps, OrdMap.values, OrdMap.keys, List.filterMap_map, List.map_filterMap]
    exact List.filterMap_eq_map_iff_forall_eq_some.mpr hentries
  have hnodup := (traverse g maxDepth symptom).reached.nodup_keys
  rw [← hkeys] at hnodup
  have hname : TraversalStep.key = (fun node : EvidenceSubject => Name.unchecked node.str)
      ∘ TraversalStep.node := rfl
  rw [hname, ← List.map_map] at hnodup
  exact hnodup.of_map

/-- The depth of a scored subject is its distance to the symptom. -/
theorem distance_of_reached (hg : g.WellIndexed) {s : TraversalStep}
    (hs : s ∈ reachedSteps (traverse g maxDepth symptom)) :
    BreadthFirst.Distance g.CausedBy symptom s.node s.depth ∧ 1 ≤ s.depth ∧ s.depth ≤ maxDepth := by
  obtain ⟨hseen, hne⟩ := (mem_reachedSteps_iff hg).mp hs
  have hsearch := @searching g maxDepth symptom hg (g.edges.size + 1)
  have hdistance := hsearch.distance_of_mem (queue_wholeSearch hg)
    (fun _ _ => depth_of_mem_stepsFrom) rfl hseen
  refine ⟨hdistance, Nat.one_le_iff_ne_zero.mpr fun hzero => ?_,
    hsearch.depth_le (fun _ _ => depth_of_mem_stepsFrom) rfl hseen⟩
  rw [hzero] at hdistance
  exact hne hdistance.1

/-- The flag says that a subject at the full depth has in-edges. -/
theorem depthLimited_iff (hg : g.WellIndexed) :
    (traverse g maxDepth symptom).depthLimited = true ↔
      ∃ node, BreadthFirst.Distance g.CausedBy symptom node maxDepth ∧ ∃ cause,
        g.CausedBy node cause := by
  have hsearch := @searching g maxDepth symptom hg (g.edges.size + 1)
  have hqueue := @queue_wholeSearch g maxDepth symptom hg
  have hdone : (wholeSearch g maxDepth symptom).done = (wholeSearch g maxDepth symptom).seen :=
    (BreadthFirst.State.seen_eq_done hqueue).symm
  have hcaused : ∀ node, g.inEdges node ≠ [] ↔ ∃ cause, g.CausedBy node cause := by
    intro node
    simp only [CausalGraph.causedBy_iff hg]
    constructor
    · intro hne
      obtain ⟨edge, hedge⟩ := List.exists_mem_of_ne_nil _ hne
      exact ⟨edge.from_, edge, hedge, rfl⟩
    · rintro ⟨cause, edge, hedge, -⟩
      exact List.ne_nil_of_mem hedge
  -- When the loop has ended every entry is done, and the depth of an entry is its distance.
  rw [(follows_traverse hg).depthLimited, hdone]
  constructor
  · rintro ⟨s, hs, hdepth, hedges⟩
    have hle := hsearch.depth_le (fun _ _ => depth_of_mem_stepsFrom) rfl hs
    have hdistance := hsearch.distance_of_mem hqueue (fun _ _ => depth_of_mem_stepsFrom) rfl hs
    rw [Nat.le_antisymm hle hdepth] at hdistance
    exact ⟨s.node, hdistance, (hcaused _).mp hedges⟩
  · rintro ⟨node, hdistance, hcause⟩
    obtain ⟨s, hs, rfl, hdepth⟩ := hsearch.exists_of_distance hqueue rfl (Nat.le_refl _) hdistance
    exact ⟨s, hs, hdepth.ge, (hcaused _).mpr hcause⟩

/-- A subject beyond the depth sets the flag. -/
theorem depthLimited_of_distance (hg : g.WellIndexed) {node : EvidenceSubject} {d : Nat}
    (hdistance : BreadthFirst.Distance g.CausedBy symptom node d) (hd : maxDepth < d) :
    (traverse g maxDepth symptom).depthLimited = true := by
  have hsearch := @searching g maxDepth symptom hg (g.edges.size + 1)
  have hqueue := @queue_wholeSearch g maxDepth symptom hg
  obtain ⟨s, hs, hdepth, hsteps⟩ :=
    hsearch.exists_cut hqueue rfl (causedBy_iff_stepsFrom hg) hd hdistance
  have hcut := hsearch.distance_of_mem hqueue (fun _ _ => depth_of_mem_stepsFrom) rfl hs
  rw [hdepth] at hcut
  obtain ⟨u, hu⟩ := List.exists_mem_of_ne_nil _ hsteps
  exact (depthLimited_iff hg).mpr
    ⟨s.node, hcut, u.node, (causedBy_iff_stepsFrom hg s u.node).mpr ⟨u, hu, rfl⟩⟩

end

end CongestionObservatory
