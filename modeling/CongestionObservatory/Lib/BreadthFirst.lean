import Mathlib.Data.List.Nodup
import Mathlib.Data.List.Perm.Subperm
import Mathlib.Data.Nat.Find
import Mathlib.Order.Bounds.Basic

/-!
# `CongestionObservatory.Lib.BreadthFirst`: breadth-first search to a depth

A search takes entries off a queue. Each entry stands for a node (`key`) at a depth, and `next`
gives the entries of the neighbours, one deeper. A neighbour goes to the end of the queue unless an
entry stands for its node already. Entries at the depth `bound` are not expanded.

`Searching` is the invariant. The entries stand in the order of their depths, no entry is more than
one deeper than the front of the queue, and every neighbour of an entry that was expanded has an
entry at most one deeper (`Searching.visit`). Once the queue is empty this makes the depth of every
entry the distance of its node (`Searching.distance_of_mem`), finds every node within the bound
(`Searching.exists_of_distance`) and an entry that was not expanded on the way to any node beyond
(`Searching.exists_cut`). The queue is empty after as many visits as there are nodes
(`queue_search`), whether or not the graph has cycles.
-/

set_option autoImplicit false

namespace Lib.BreadthFirst

variable {κ σ : Type}

/-! ### Distances -/

/-- A path of this many steps leads from the root to the node. -/
def Reaches (adj : κ → κ → Prop) (root : κ) : Nat → κ → Prop
  | 0, k => k = root
  | n + 1, k => ∃ j, Reaches adj root n j ∧ adj j k

/-- The length of the shortest paths from the root to the node. -/
def Distance (adj : κ → κ → Prop) (root k : κ) (d : Nat) : Prop :=
  IsLeast {n | Reaches adj root n k} d

variable {adj : κ → κ → Prop} {a b c : κ} {m n d : Nat}

theorem Reaches.trans (hab : Reaches adj a m b) (hbc : Reaches adj b n c) :
    Reaches adj a (m + n) c := by
  induction n generalizing c with
  | zero =>
      cases hbc
      exact hab
  | succ n ih =>
      obtain ⟨j, hj, hstep⟩ := hbc
      exact ⟨j, ih hj, hstep⟩

theorem Reaches.split (h : Reaches adj a (m + n) c) :
    ∃ b, Reaches adj a m b ∧ Reaches adj b n c := by
  induction n generalizing c with
  | zero => exact ⟨c, h, rfl⟩
  | succ n ih =>
      obtain ⟨j, hj, hstep⟩ := h
      obtain ⟨b, hab, hbj⟩ := ih hj
      exact ⟨b, hab, j, hbj, hstep⟩

/-- Every length below the distance is the distance of a node on the way. -/
theorem Distance.exists_between (h : Distance adj a c (m + n)) :
    ∃ b, Distance adj a b m ∧ Reaches adj b n c := by
  obtain ⟨b, hab, hbc⟩ := Reaches.split h.1
  refine ⟨b, ⟨hab, fun l hl => ?_⟩, hbc⟩
  have hle : m + n ≤ l + n := h.2 (Reaches.trans hl hbc)
  exact Nat.le_of_add_le_add_right hle

/-! ### The search -/

/-- The entries that were visited and those that wait, each in the order they were found. -/
structure State (σ : Type) where
  done : List σ
  queue : List σ

/-- All entries, in the order they were found. -/
def State.seen (st : State σ) : List σ := st.done ++ st.queue

section Turns

variable [DecidableEq κ] (key : σ → κ) (depth : σ → Nat) (next : σ → List σ) (bound : Nat)

/-- An entry goes to the end of the queue unless its node has an entry. -/
def discover (st : State σ) (s : σ) : State σ :=
  if key s ∈ st.seen.map key then st else { st with queue := st.queue ++ [s] }

/-- The neighbours of an entry, if it is to be expanded. -/
def expand (s : σ) : List σ := if depth s < bound then next s else []

/-- One turn of the search: the front of the queue is visited. -/
def visit (st : State σ) : State σ :=
  match st.queue with
  | [] => st
  | s :: rest => (expand depth next bound s).foldl (discover key) ⟨st.done ++ [s], rest⟩

/-- The search after a number of turns. -/
def search (root : σ) : Nat → State σ
  | 0 => ⟨[], [root]⟩
  | n + 1 => visit key depth next bound (search root n)

end Turns

variable {key : σ → κ} {depth : σ → Nat} {next : σ → List σ} {bound : Nat} {st : State σ} {root : σ}

/-! ### One turn -/

section Visit

variable [DecidableEq κ]

/-- What the loop over the neighbours does: some of them go to the end of the queue, and then every
one has an entry. -/
theorem foldl_discover (l : List σ) (st : State σ) :
    ∃ new, l.foldl (discover key) st = ⟨st.done, st.queue ++ new⟩ ∧ new.Sublist l ∧
      ((st.seen.map key).Nodup → ((st.seen ++ new).map key).Nodup) ∧
      ∀ t ∈ l, key t ∈ (st.seen ++ new).map key := by
  induction l generalizing st with
  | nil => exact ⟨[], by simp, List.Sublist.refl _, by simp, by simp⟩
  | cons s rest ih =>
      rw [List.foldl_cons]
      by_cases hknown : key s ∈ st.seen.map key
      · have hsame : discover key st s = st := if_pos hknown
        obtain ⟨new, hfold, hsub, hnodup, hall⟩ := ih st
        rw [hsame]
        refine ⟨new, hfold, hsub.cons s, hnodup, List.forall_mem_cons.mpr ⟨?_, hall⟩⟩
        rw [List.map_append]
        exact List.mem_append_left _ hknown
      · -- The entry is pushed, so the rest of the loop goes on with a longer queue.
        have hpush : discover key st s = ⟨st.done, st.queue ++ [s]⟩ := if_neg hknown
        obtain ⟨new, hfold, hsub, hnodup, hall⟩ := ih ⟨st.done, st.queue ++ [s]⟩
        have hseen : (⟨st.done, st.queue ++ [s]⟩ : State σ).seen = st.seen ++ [s] :=
          (List.append_assoc _ _ _).symm
        rw [hseen, List.append_assoc, List.singleton_append] at hnodup hall
        rw [hpush]
        refine ⟨s :: new, ?_, hsub.cons_cons s, fun hst => hnodup ?_,
          List.forall_mem_cons.mpr ⟨?_, hall⟩⟩
        · rw [hfold, List.append_assoc, List.singleton_append]
        · rw [List.map_append, List.map_singleton]
          exact List.nodup_append.mpr ⟨hst, List.nodup_singleton _, fun k hk k' hk' hsame =>
            hknown (List.mem_singleton.mp hk' ▸ hsame ▸ hk)⟩
        · exact List.mem_map_of_mem (by simp)

/-- What one turn can do. -/
theorem visit_cases (st : State σ) :
    (st.queue = [] ∧ visit key depth next bound st = st) ∨
    ∃ s rest new, st.queue = s :: rest ∧
      visit key depth next bound st = ⟨st.done ++ [s], rest ++ new⟩ ∧
      (visit key depth next bound st).seen = st.seen ++ new ∧
      (∀ t ∈ new, depth s < bound ∧ t ∈ next s) ∧
      ((st.seen.map key).Nodup → ((st.seen ++ new).map key).Nodup) ∧
      (depth s < bound → ∀ t ∈ next s, key t ∈ (st.seen ++ new).map key) := by
  obtain ⟨done, queue⟩ := st
  cases queue with
  | nil => exact .inl ⟨rfl, rfl⟩
  | cons s rest =>
      obtain ⟨new, hfold, hsub, hnodup, hall⟩ :=
        @foldl_discover κ σ key _ (expand depth next bound s) ⟨done ++ [s], rest⟩
      have hseen : (⟨done ++ [s], rest⟩ : State σ).seen = (⟨done, s :: rest⟩ : State σ).seen :=
        List.append_cons done s rest |>.symm
      rw [hseen] at hnodup hall
      refine .inr ⟨s, rest, new, rfl, hfold, ?_, fun t ht => ?_, hnodup, fun hlt t ht => ?_⟩
      · show (List.foldl _ _ _ : State σ).seen = _
        rw [hfold, ← hseen]
        exact (List.append_assoc _ _ _).symm
      · have hmem := hsub.subset ht
        unfold expand at hmem
        split at hmem
        · next hlt => exact ⟨hlt, hmem⟩
        · cases hmem
      · refine hall t ?_
        rw [expand, if_pos hlt]
        exact ht

end Visit

/-! ### The invariant -/

variable (adj key depth next bound) in
/-- What holds at every turn of a search. -/
structure Searching (root : σ) (st : State σ) : Prop where
  nodup : (st.seen.map key).Nodup
  root_mem : root ∈ st.seen
  found : ∀ t ∈ st.seen, t = root ∨ ∃ p ∈ st.done, depth p < bound ∧ t ∈ next p
  sound : ∀ t ∈ st.seen, Reaches adj (key root) (depth t) (key t)
  ordered : st.seen.Pairwise fun s t => depth s ≤ depth t
  span : ∀ s ∈ st.queue.head?, ∀ t ∈ st.seen, depth t ≤ depth s + 1
  closed : ∀ p ∈ st.done, depth p < bound → ∀ k, adj (key p) k →
    ∃ t ∈ st.seen, key t = k ∧ depth t ≤ depth p + 1

section Runs

variable [DecidableEq κ] (hadj : ∀ s k, adj (key s) k ↔ ∃ t ∈ next s, key t = k)
  (hdepth : ∀ s, ∀ t ∈ next s, depth t = depth s + 1) (hroot : depth root = 0)

include hadj hdepth in
theorem Searching.visit (h : Searching adj key depth next bound root st) :
    Searching adj key depth next bound root (visit key depth next bound st) := by
  rcases @visit_cases κ σ key depth next bound _ st with
    ⟨-, hsame⟩ | ⟨s, rest, new, hqueue, hvisit, hseen, hnew, hnodup, hall⟩
  · rw [hsame]
    exact h
  have hsplit : st.seen = st.done ++ s :: rest := by rw [State.seen, hqueue]
  have hs : s ∈ st.seen := by simp [hsplit]
  -- The front of the queue bounds all depths: nothing that was found is more than one deeper, and
  -- nothing that waits is less deep. What is new is exactly one deeper, so both go on with the
  -- next front.
  have hspan : ∀ t ∈ st.seen, depth t ≤ depth s + 1 := h.span s (by simp [hqueue])
  have hdeeper : ∀ t ∈ new, depth t = depth s + 1 := fun t ht => hdepth s t (hnew t ht).2
  have hrest : ∀ t ∈ rest ++ new, depth s ≤ depth t := by
    have hpairs := h.ordered
    rw [hsplit] at hpairs
    intro t ht
    rcases List.mem_append.mp ht with ht | ht
    · exact (List.pairwise_cons.mp (List.pairwise_append.mp hpairs).2.1).1 t ht
    · exact (hdeeper t ht).symm ▸ Nat.le_succ _
  have hspan' : ∀ t ∈ st.seen ++ new, depth t ≤ depth s + 1 := by
    intro t ht
    rcases List.mem_append.mp ht with ht | ht
    · exact hspan t ht
    · exact (hdeeper t ht).le
  have hdone : (BreadthFirst.visit key depth next bound st).done = st.done ++ [s] := by rw [hvisit]
  refine ⟨?_, ?_, ?_, ?_, ?_, ?_, ?_⟩
  · rw [hseen]
    exact hnodup h.nodup
  · rw [hseen]
    exact List.mem_append_left _ h.root_mem
  · rw [hseen, hdone]
    intro t ht
    rcases List.mem_append.mp ht with ht | ht
    · refine (h.found t ht).imp_right ?_
      rintro ⟨p, hp, hfound⟩
      exact ⟨p, List.mem_append_left _ hp, hfound⟩
    · exact .inr ⟨s, by simp, hnew t ht⟩
  · rw [hseen]
    intro t ht
    rcases List.mem_append.mp ht with ht | ht
    · exact h.sound t ht
    · rw [hdeeper t ht]
      exact ⟨key s, h.sound s hs, (hadj s (key t)).mpr ⟨t, (hnew t ht).2, rfl⟩⟩
  · rw [hseen]
    refine List.pairwise_append.mpr ⟨h.ordered, ?_, fun t ht u hu => ?_⟩
    · exact List.Pairwise.imp_of_mem (fun ht hu _ => by rw [hdeeper _ ht, hdeeper _ hu])
        (List.pairwise_of_forall (fun _ _ => trivial) : new.Pairwise fun _ _ => True)
    · rw [hdeeper u hu]
      exact hspan t ht
  · rw [hseen, hvisit]
    intro s' hs' t ht
    exact (hspan' t ht).trans (Nat.succ_le_succ (hrest s' (List.mem_of_mem_head? hs')))
  · rw [hseen, hdone]
    intro p hp hlt k hk
    rcases List.mem_append.mp hp with hp | hp
    · obtain ⟨t, ht, htk⟩ := h.closed p hp hlt k hk
      exact ⟨t, List.mem_append_left _ ht, htk⟩
    · -- The entry that is visited now: the loop over its neighbours left an entry for each of
      -- them.
      obtain rfl := List.mem_singleton.mp hp
      obtain ⟨t, ht, rfl⟩ := (hadj p k).mp hk
      obtain ⟨u, hu, hsame⟩ := List.mem_map.mp (hall hlt t ht)
      exact ⟨u, hu, hsame, hspan' u hu⟩

include hadj hdepth hroot in
theorem searching_search (n : Nat) :
    Searching adj key depth next bound root (search key depth next bound root n) := by
  induction n with
  | zero =>
      refine ⟨List.nodup_singleton _, List.mem_singleton_self _, ?_, ?_,
        List.pairwise_singleton _ _, ?_, ?_⟩
      · intro t ht
        exact .inl (List.mem_singleton.mp ht)
      · intro t ht
        obtain rfl := List.mem_singleton.mp ht
        rw [hroot]
        rfl
      · intro s _ t ht
        obtain rfl := List.mem_singleton.mp ht
        rw [hroot]
        exact Nat.zero_le _
      · intro p hp
        cases hp
  | succ n ih => exact ih.visit hadj hdepth

/-! ### Termination -/

/-- Each turn visits one entry as long as one waits. -/
theorem queue_eq_nil_or_length (root : σ) (n : Nat) :
    (search key depth next bound root n).queue = [] ∨
      (search key depth next bound root n).done.length = n := by
  induction n with
  | zero => exact .inr rfl
  | succ n ih =>
      rw [search]
      rcases @visit_cases κ σ key depth next bound _ (search key depth next bound root n) with
        ⟨hempty, hsame⟩ | ⟨s, rest, new, hqueue, hvisit, -⟩
      · rw [hsame]
        exact .inl hempty
      · have hlength := ih.resolve_left (by simp [hqueue])
        rw [hvisit]
        exact .inr (by simp [hlength])

include hadj hdepth hroot in
/-- A search over finitely many nodes ends. -/
theorem queue_search {nodes : List κ} (hnodes : ∀ s, ∀ t ∈ next s, key t ∈ nodes) :
    (search key depth next bound root (nodes.length + 1)).queue = [] := by
  have hsearch := @searching_search κ σ adj key depth next bound root _ hadj hdepth hroot
    (nodes.length + 1)
  refine (queue_eq_nil_or_length root (nodes.length + 1)).elim id fun hdone => ?_
  -- A turn that visits an entry makes one more of them done, and the entries stand for different
  -- nodes. So as many turns as there are nodes cannot all visit one.
  have hsub : (search key depth next bound root (nodes.length + 1)).seen.map key
      ⊆ key root :: nodes := by
    intro k hk
    obtain ⟨t, ht, rfl⟩ := List.mem_map.mp hk
    rcases hsearch.found t ht with rfl | ⟨p, -, -, htp⟩
    · exact List.mem_cons_self
    · exact List.mem_cons_of_mem _ (hnodes p t htp)
  have hle := (List.subperm_of_subset hsearch.nodup hsub).length_le
  rw [List.length_map, State.seen, List.length_append, hdone, List.length_cons] at hle
  exact List.eq_nil_of_length_eq_zero (by omega)

end Runs

/-! ### The finished search -/

theorem State.seen_eq_done (h : st.queue = []) : st.seen = st.done := by
  rw [seen, h, List.append_nil]

namespace Searching

variable (h : Searching adj key depth next bound root st)

include h

theorem depth_le (hdepth : ∀ s, ∀ t ∈ next s, depth t = depth s + 1) (hroot : depth root = 0)
    {t : σ} (ht : t ∈ st.seen) : depth t ≤ bound := by
  rcases h.found t ht with rfl | ⟨p, -, hlt, htp⟩
  · rw [hroot]
    exact Nat.zero_le _
  · rw [hdepth p t htp]
    exact hlt

variable (hqueue : st.queue = [])

include hqueue

/-- A path within the bound ends at a node with an entry, at most as deep as the path is long. -/
theorem exists_of_reaches (hroot : depth root = 0) {k : κ} (hn : n ≤ bound)
    (hpath : Reaches adj (key root) n k) : ∃ t ∈ st.seen, key t = k ∧ depth t ≤ n := by
  -- The induction is on the path. Its last node but one has an entry by the induction hypothesis,
  -- which is done, as the queue is empty, so the invariant gives one to the last node.
  induction n generalizing k with
  | zero =>
      cases hpath
      exact ⟨root, h.root_mem, rfl, hroot.le⟩
  | succ n ih =>
      obtain ⟨j, hj, hstep⟩ := hpath
      obtain ⟨p, hp, rfl, hdepth⟩ := ih (Nat.le_of_succ_le hn) hj
      rw [State.seen_eq_done hqueue] at hp
      obtain ⟨t, ht, htk, hle⟩ := h.closed p hp (by omega) k hstep
      exact ⟨t, ht, htk, by omega⟩

/-- The depth of an entry is the distance of its node. -/
theorem distance_of_mem (hdepth : ∀ s, ∀ t ∈ next s, depth t = depth s + 1)
    (hroot : depth root = 0) {t : σ} (ht : t ∈ st.seen) :
    Distance adj (key root) (key t) (depth t) := by
  refine ⟨h.sound t ht, fun n hn => ?_⟩
  by_cases hle : n ≤ bound
  · obtain ⟨u, hu, hsame, hshort⟩ := h.exists_of_reaches hqueue hroot hle hn
    have huniq : u = t := List.inj_on_of_nodup_map h.nodup hu ht hsame
    exact huniq ▸ hshort
  · exact (h.depth_le hdepth hroot ht).trans (Nat.le_of_not_le hle)

/-- Every node within the bound has an entry. -/
theorem exists_of_distance (hroot : depth root = 0) {k : κ} (hd : d ≤ bound)
    (hdistance : Distance adj (key root) k d) : ∃ t ∈ st.seen, key t = k ∧ depth t = d := by
  obtain ⟨t, ht, rfl, hle⟩ := h.exists_of_reaches hqueue hroot hd hdistance.1
  exact ⟨t, ht, rfl, Nat.le_antisymm hle (hdistance.2 (h.sound t ht))⟩

/-- On the way to a node beyond the bound an entry was not expanded. -/
theorem exists_cut (hroot : depth root = 0)
    (hadj : ∀ s k, adj (key s) k ↔ ∃ t ∈ next s, key t = k) {k : κ} (hd : bound < d)
    (hdistance : Distance adj (key root) k d) :
    ∃ t ∈ st.seen, depth t = bound ∧ next t ≠ [] := by
  -- A shortest path to the node passes through one at the distance `bound`, and goes on from
  -- there.
  obtain ⟨n, rfl⟩ := Nat.exists_eq_add_of_lt hd
  rw [Nat.add_assoc] at hdistance
  obtain ⟨j, hj, hpath⟩ := hdistance.exists_between
  obtain ⟨t, ht, rfl, hdepth⟩ := h.exists_of_distance hqueue hroot (Nat.le_refl _) hj
  rw [Nat.add_comm] at hpath
  obtain ⟨k', hfirst, -⟩ := Reaches.split hpath
  obtain ⟨j', rfl, hstep⟩ := hfirst
  obtain ⟨u, hu, -⟩ := (hadj t k').mp hstep
  exact ⟨t, ht, hdepth, List.ne_nil_of_mem hu⟩

end Searching

end Lib.BreadthFirst
