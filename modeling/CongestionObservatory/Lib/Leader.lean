import CongestionObservatory.Lib.OrdMap
import Mathlib.Algebra.BigOperators.Group.Finset.Basic
import Mathlib.Data.Finset.Card
import Mathlib.Algebra.GroupWithZero.Nat

/-!
# `CongestionObservatory.Lib.Leader`: leader clustering of an ascending list

An element joins the first cluster whose first element, the leader, is close to it. If there is
none it leads a new cluster at the end. Closeness is a relation on the values of the elements.

The elements come in ascending order and closeness is convex: what lies between a leader and an
element close to it is close as well. Then only the last cluster can be joined:

* `place_eq_of_ascending`: the element joins the last cluster, or opens a new one.
* `Clustered.place`: the clusters are consecutive runs of the elements. Their members are close to
  the leader, and no later element is.
* `clusterBy_spec`: over a whole list, with a map from each key to a cluster. That cluster is the
  first one with an element of the key.
* `holder_eq_some_iff`: it is the one cluster that holds the least value of the key.

Without any order, `length_clusterBy_eq_one_iff` says when there is one cluster only.
-/

set_option autoImplicit false

namespace Lib

/-! ### Counting the entries of a map -/

namespace OrdMap

variable {κ ν : Type} [LinearOrder κ] {m : OrdMap κ ν}

/-- A map has as many entries as keys. -/
theorem size_eq_card {s : Finset κ} (h : ∀ k, k ∈ s ↔ k ∈ m.keys) : m.size = s.card := by
  have hkeys : m.keys.toFinset = s := by
    ext k
    rw [List.mem_toFinset, h]
  rw [← hkeys, List.toFinset_card_of_nodup m.nodup_keys, keys, List.length_map, size]

/-- A value is counted by the keys that have it. -/
theorem count_values [DecidableEq ν] {v : ν} {s : Finset κ}
    (h : ∀ k, k ∈ s ↔ m.find? k = some v) : m.values.count v = s.card := by
  have hkeys : ((m.entries.filter fun e => e.2 == v).map Prod.fst).toFinset = s := by
    ext k
    simp only [h, List.mem_toFinset, find?_eq_some_iff, List.mem_map, List.mem_filter, beq_iff_eq]
    constructor
    · rintro ⟨⟨k, v⟩, ⟨he, rfl⟩, rfl⟩
      exact he
    · exact fun he => ⟨(k, v), ⟨he, rfl⟩, rfl⟩
  have hnodup : ((m.entries.filter fun e => e.2 == v).map Prod.fst).Nodup :=
    m.nodup_keys.sublist (List.filter_sublist.map Prod.fst)
  rw [← hkeys, List.toFinset_card_of_nodup hnodup, List.length_map, values, List.count,
    List.countP_map, List.countP_eq_length_filter]
  rfl

end OrdMap

namespace Leader

variable {α β κ : Type} [LinearOrder β] [LinearOrder κ] (value : α → β) (close : β → β → Bool)

/-! ### One element -/

/-- Whether the cluster's leader is close to the element. -/
def leads (cluster : List α) (a : α) : Bool :=
  (cluster.head?.map fun leader => close (value leader) (value a)).getD false

/-- The element joins the first cluster that leads it, or opens a new one. The number is the
index of its cluster. -/
def place (a : α) : List (List α) → List (List α) × Nat
  | [] => ([[a]], 0)
  | cluster :: rest =>
    if leads value close cluster a then ((cluster ++ [a]) :: rest, 0)
    else (cluster :: (place a rest).1, (place a rest).2 + 1)

/-- The clusters are consecutive runs of the elements. Each is led by its first element, which
leads no element of a later cluster. -/
structure Clustered (clusters : List (List α)) (l : List α) : Prop where
  flatten : clusters.flatten = l
  ne_nil : ∀ c ∈ clusters, c ≠ []
  led : ∀ c ∈ clusters, ∀ a ∈ c, leads value close c a = true
  apart : clusters.Pairwise fun c d => ∀ a ∈ d, leads value close c a = false

/-- Every value is close to itself, and what lies before a close value is close. -/
structure Convex : Prop where
  refl : ∀ x, close x x = true
  mono : ∀ x y z, x ≤ y → y ≤ z → close x z = true → close x y = true

variable {value close} {a : α} {l : List α} {clusters : List (List α)}

omit [LinearOrder β] in
theorem leads_cons (leader : α) (rest : List α) :
    leads value close (leader :: rest) a = close (value leader) (value a) := rfl

omit [LinearOrder β] in
/-- Only the leader matters, which an element at the end does not change. -/
theorem leads_append {c : List α} (hc : c ≠ []) (b : α) :
    leads value close (c ++ [b]) a = leads value close c a := by
  cases c with
  | nil => exact absurd rfl hc
  | cons leader rest => rfl

omit [LinearOrder β] in
/-- Clusters that do not lead the element are passed. -/
theorem place_append {pre : List (List α)} (post : List (List α))
    (h : ∀ c ∈ pre, leads value close c a = false) :
    place value close a (pre ++ post)
      = (pre ++ (place value close a post).1, pre.length + (place value close a post).2) := by
  induction pre with
  | nil => simp
  | cons c pre ih =>
      have hc := h c List.mem_cons_self
      have hrest := ih fun d hd => h d (List.mem_cons_of_mem _ hd)
      rw [List.cons_append, place, hc, hrest, List.length_cons]
      simp only [Bool.false_eq_true, if_false, List.cons_append, Prod.mk.injEq, true_and]
      omega

omit [LinearOrder β] in
theorem Clustered.nil : Clustered value close [] [] :=
  ⟨rfl, fun _ hc => absurd hc List.not_mem_nil, fun _ hc => absurd hc List.not_mem_nil,
    List.Pairwise.nil⟩

/-- An element above all others is led by the last cluster at most. -/
theorem Clustered.leads_eq_false (hclose : Convex close) {pre : List (List α)} {c d : List α}
    (h : Clustered value close (pre ++ [d]) l) (hsorted : l.Pairwise fun x y => value x ≤ value y)
    (habove : ∀ b ∈ l, value b ≤ value a) (hc : c ∈ pre) : leads value close c a = false := by
  -- The leader of the last cluster lies between the leader of `c` and the element.
  obtain ⟨leader, rest, rfl⟩ := List.exists_cons_of_ne_nil
    (h.ne_nil c (List.mem_append_left _ hc))
  obtain ⟨last, others, rfl⟩ := List.exists_cons_of_ne_nil
    (h.ne_nil d (List.mem_append_right _ (List.mem_singleton_self d)))
  have hapart : leads value close (leader :: rest) last = false :=
    (List.pairwise_append.mp h.apart).2.2 _ hc _ (List.mem_singleton_self _) last
      List.mem_cons_self
  have hflat := h.flatten
  rw [List.flatten_append, List.flatten_singleton] at hflat
  have hleader : leader ∈ pre.flatten := List.mem_flatten.mpr ⟨_, hc, List.mem_cons_self⟩
  have hle : value leader ≤ value last := by
    rw [← hflat] at hsorted
    exact (List.pairwise_append.mp hsorted).2.2 leader hleader last List.mem_cons_self
  have hlast : value last ≤ value a :=
    habove last (hflat ▸ List.mem_append_right _ List.mem_cons_self)
  rw [leads_cons] at hapart ⊢
  by_contra hclosed
  rw [Bool.not_eq_false] at hclosed
  rw [hclose.mono _ _ _ hle hlast hclosed] at hapart
  cases hapart

/-- An element above all others joins the last cluster or opens a new one after it. -/
theorem place_eq_of_ascending (hclose : Convex close) (h : Clustered value close clusters l)
    (hsorted : l.Pairwise fun x y => value x ≤ value y) (habove : ∀ b ∈ l, value b ≤ value a) :
    (∃ pre d, clusters = pre ++ [d] ∧ leads value close d a = true ∧
      place value close a clusters = (pre ++ [d ++ [a]], pre.length)) ∨
    (∀ c ∈ clusters, leads value close c a = false) ∧
      place value close a clusters = (clusters ++ [[a]], clusters.length) := by
  cases clusters using List.reverseRecOn with
  | nil => exact Or.inr ⟨fun _ hc => absurd hc List.not_mem_nil, rfl⟩
  | append_singleton pre d =>
      have hpre : ∀ c ∈ pre, leads value close c a = false := fun c hc =>
        h.leads_eq_false hclose hsorted habove hc
      cases hd : leads value close d a with
      | true =>
          refine Or.inl ⟨pre, d, rfl, hd, ?_⟩
          rw [place_append _ hpre, place, hd]
          rfl
      | false =>
          have hall : ∀ c ∈ pre ++ [d], leads value close c a = false := by
            intro c hc
            rcases List.mem_append.mp hc with hc | hc
            · exact hpre c hc
            · rw [List.mem_singleton.mp hc]
              exact hd
          refine Or.inr ⟨hall, ?_⟩
          have hplace := place_append [] hall
          rw [List.append_nil] at hplace
          exact hplace

/-- The step: the clusters stay consecutive runs. -/
theorem Clustered.place (hclose : Convex close) (h : Clustered value close clusters l)
    (hsorted : l.Pairwise fun x y => value x ≤ value y) (habove : ∀ b ∈ l, value b ≤ value a) :
    Clustered value close (Leader.place value close a clusters).1 (l ++ [a]) := by
  rcases place_eq_of_ascending hclose h hsorted habove with
      ⟨pre, d, rfl, hleads, heq⟩ | ⟨hall, heq⟩
  · -- The last cluster grows by an element that its leader leads.
    rw [heq]
    have hflat := h.flatten
    have hapart := List.pairwise_append.mp h.apart
    have hd : d ≠ [] := h.ne_nil d (List.mem_append_right _ (List.mem_singleton_self d))
    have hmember : ∀ c ∈ pre ++ [d ++ [a]], c ∈ pre ∨ c = d ++ [a] := fun c hc => by
      simpa using hc
    refine ⟨?_, ?_, ?_, ?_⟩
    · rw [← hflat]
      simp
    · intro c hc
      rcases hmember c hc with hc | rfl
      · exact h.ne_nil c (List.mem_append_left _ hc)
      · simp
    · intro c hc b hb
      rcases hmember c hc with hc | rfl
      · exact h.led c (List.mem_append_left _ hc) b hb
      · rw [leads_append hd]
        rcases List.mem_append.mp hb with hb | hb
        · exact h.led d (List.mem_append_right _ (List.mem_singleton_self d)) b hb
        · rw [List.mem_singleton.mp hb]
          exact hleads
    · refine List.pairwise_append.mpr ⟨hapart.1, List.pairwise_singleton _ _, ?_⟩
      intro c hc c' hc' b hb
      rw [List.mem_singleton.mp hc'] at hb
      rcases List.mem_append.mp hb with hb | hb
      · exact hapart.2.2 c hc d (List.mem_singleton_self d) b hb
      · rw [List.mem_singleton.mp hb]
        exact h.leads_eq_false hclose hsorted habove hc
  · -- The new cluster has one element, which no earlier leader leads.
    rw [heq]
    have hmember : ∀ c ∈ clusters ++ [[a]], c ∈ clusters ∨ c = [a] := fun c hc => by
      simpa using hc
    refine ⟨?_, ?_, ?_, ?_⟩
    · rw [List.flatten_append, h.flatten, List.flatten_singleton]
    · intro c hc
      rcases hmember c hc with hc | rfl
      · exact h.ne_nil c hc
      · simp
    · intro c hc b hb
      rcases hmember c hc with hc | rfl
      · exact h.led c hc b hb
      · rw [List.mem_singleton.mp hb]
        exact hclose.refl _
    · refine List.pairwise_append.mpr ⟨h.apart, List.pairwise_singleton _ _, ?_⟩
      intro c hc c' hc' b hb
      rw [List.mem_singleton.mp hc', List.mem_singleton] at hb
      rw [hb]
      exact hall c hc

/-! ### A whole list -/

section Keys

variable (value close) (key : α → κ)

/-- The loop over the elements. The map keeps, for each key, the cluster of its first element. -/
def clusterBy (l : List α) : List (List α) × OrdMap κ Nat :=
  l.foldl (fun (clusters, firsts) a =>
    let (clusters', index) := place value close a clusters
    (clusters', firsts.emplace (key a) index)) ([], OrdMap.empty)

omit [LinearOrder β] in
theorem clusterBy_append (l : List α) (a : α) :
    clusterBy value close key (l ++ [a])
      = ((place value close a (clusterBy value close key l).1).1,
         (clusterBy value close key l).2.emplace (key a)
           (place value close a (clusterBy value close key l).1).2) := by
  rw [clusterBy, List.foldl_append]
  rfl

omit [LinearOrder β] in
/-- Whatever closeness is, the elements form one cluster exactly when the first one leads all
others. -/
theorem length_clusterBy_eq_one_iff (first : α) (rest : List α) :
    (clusterBy value close key (first :: rest)).1.length = 1 ↔
      ∀ a ∈ rest, close (value first) (value a) = true := by
  -- The first cluster keeps its leader, and no other cluster is ever taken back.
  have hshape : ∃ members others,
      (clusterBy value close key (first :: rest)).1 = (first :: members) :: others ∧
      (others = [] ↔ ∀ a ∈ rest, close (value first) (value a) = true) := by
    induction rest using List.reverseRecOn with
    | nil => exact ⟨[], [], rfl, by simp⟩
    | append_singleton rest a ih =>
        obtain ⟨members, others, heq, hiff⟩ := ih
        rw [← List.cons_append, clusterBy_append, heq]
        dsimp only
        rw [place, leads_cons]
        by_cases hclose : close (value first) (value a) = true
        · rw [if_pos hclose]
          refine ⟨members ++ [a], others, rfl, ?_⟩
          simp only [hiff, List.forall_mem_append, List.forall_mem_singleton, hclose, and_true]
        · rw [if_neg hclose]
          refine ⟨members, (place value close a others).1, rfl, iff_of_false ?_ fun hall => ?_⟩
          · cases others with
            | nil => exact List.cons_ne_nil _ _
            | cons c others =>
                rw [place]
                split
                · exact List.cons_ne_nil _ _
                · exact List.cons_ne_nil _ _
          · exact hclose (hall a (List.mem_append_right _ (List.mem_singleton_self a)))
  obtain ⟨members, others, heq, hiff⟩ := hshape
  rw [heq, List.length_cons, ← hiff, ← List.length_eq_zero_iff]
  omega

/-- The index of the first cluster with an element of the key. -/
def holder (clusters : List (List α)) (k : κ) : Option Nat :=
  clusters.findIdx? fun c => c.any fun a => decide (key a = k)

/-- The cluster holds the least value of the key. -/
def HoldsLeast (l c : List α) (k : κ) : Prop :=
  ∃ a ∈ c, key a = k ∧ ∀ b ∈ l, key b = k → value a ≤ value b

variable {value close} {key}

/-- Placing an element gives its key a cluster unless it has one. -/
theorem holder_place (hclose : Convex close) (h : Clustered value close clusters l)
    (hsorted : l.Pairwise fun x y => value x ≤ value y) (habove : ∀ b ∈ l, value b ≤ value a)
    (k : κ) :
    holder key (place value close a clusters).1 k
      = if k = key a then some ((holder key clusters k).getD (place value close a clusters).2)
        else holder key clusters k := by
  unfold holder
  rcases place_eq_of_ascending hclose h hsorted habove with ⟨pre, d, rfl, -, heq⟩ | ⟨-, heq⟩
  · rw [heq, List.findIdx?_append, List.findIdx?_append]
    by_cases hk : k = key a
    · subst hk
      cases hpre : pre.findIdx? fun c => c.any fun b => decide (key b = key a) with
      | none => cases hd : d.any fun b => decide (key b = key a) <;> simp [hd]
      | some i => simp
    · have hne : ¬ key a = k := fun heq => hk heq.symm
      simp [hk, hne]
  · rw [heq, List.findIdx?_append]
    by_cases hk : k = key a
    · subst hk
      cases hpre : clusters.findIdx? fun c => c.any fun b => decide (key b = key a) <;> simp
    · have hne : ¬ key a = k := fun heq => hk heq.symm
      simp [hk, hne]

variable (key) in
/-- The run: the clusters are consecutive runs of the list, and the map gives every key the first
cluster with an element of the key. -/
theorem clusterBy_spec (hclose : Convex close) (l : List α)
    (hsorted : l.Pairwise fun x y => value x ≤ value y) :
    Clustered value close (clusterBy value close key l).1 l ∧
      ∀ k, (clusterBy value close key l).2.find? k
        = holder key (clusterBy value close key l).1 k := by
  -- The induction takes the last element off, which the loop placed last.
  induction l using List.reverseRecOn with
  | nil => exact ⟨Clustered.nil, fun _ => rfl⟩
  | append_singleton l a ih =>
      obtain ⟨hl, -, habove⟩ := List.pairwise_append.mp hsorted
      obtain ⟨hclustered, hfirsts⟩ := ih hl
      have hbelow : ∀ b ∈ l, value b ≤ value a := fun b hb =>
        habove b hb a (List.mem_singleton_self a)
      rw [clusterBy_append]
      refine ⟨hclustered.place hclose hl hbelow, fun k => ?_⟩
      rw [OrdMap.find?_emplace, holder_place hclose hclustered hl hbelow, hfirsts, hfirsts]
      split
      · rename_i hk
        rw [hk]
      · rfl

/-- The first cluster of a key is the one that holds the least value of the key. -/
theorem holder_eq_some_iff (h : Clustered value close clusters l)
    (hsorted : l.Pairwise fun x y => value x ≤ value y) {k : κ} {i : Nat} :
    holder key clusters k = some i ↔
      ∃ c, clusters[i]? = some c ∧ HoldsLeast value key l c k := by
  -- The first cluster holds the least value: its first element of the key comes first of all.
  have hfirst : ∀ {i}, holder key clusters k = some i →
      ∃ c, clusters[i]? = some c ∧ HoldsLeast value key l c k := by
    intro i hi
    obtain ⟨hlt, hany, hbefore⟩ := List.findIdx?_eq_some_iff_getElem.mp hi
    refine ⟨clusters[i], List.getElem?_eq_getElem hlt, ?_⟩
    have hsplit : clusters = clusters.take i ++ clusters[i] :: clusters.drop (i + 1) := by
      rw [List.getElem_cons_drop, List.take_append_drop]
    have hpre : ∀ c ∈ clusters.take i, ∀ b ∈ c, key b ≠ k := by
      intro c hc b hb hkey
      obtain ⟨j, hj, rfl⟩ := List.mem_take_iff_getElem.mp hc
      have hji : j < i := by omega
      refine hbefore j hji ?_
      exact List.any_eq_true.mpr ⟨b, hb, decide_eq_true hkey⟩
    generalize clusters[i] = c at hany hsplit ⊢
    have hflat := h.flatten
    rw [hsplit, List.flatten_append, List.flatten_cons] at hflat
    rw [← hflat] at hsorted
    have hc := List.pairwise_append.mp (List.pairwise_append.mp hsorted).2.1
    -- The first element of the key in the cluster.
    have hne : c.filter (fun b => decide (key b = k)) ≠ [] := by
      obtain ⟨b, hb, hkey⟩ := List.any_eq_true.mp hany
      exact List.ne_nil_of_mem (List.mem_filter.mpr ⟨hb, hkey⟩)
    obtain ⟨a, rest, hfilter⟩ := List.exists_cons_of_ne_nil hne
    have ha : a ∈ c.filter fun b => decide (key b = k) := hfilter ▸ List.mem_cons_self
    obtain ⟨hac, hkey⟩ := List.mem_filter.mp ha
    refine ⟨a, hac, of_decide_eq_true hkey, fun b hb hbk => ?_⟩
    rw [← hflat] at hb
    rcases List.mem_append.mp hb with hb | hb
    · obtain ⟨d, hd, hb⟩ := List.mem_flatten.mp hb
      exact absurd hbk (hpre d hd b hb)
    rcases List.mem_append.mp hb with hb | hb
    · have hmem : b ∈ c.filter fun b => decide (key b = k) :=
        List.mem_filter.mpr ⟨hb, decide_eq_true hbk⟩
      have hascending := hc.1.filter fun b => decide (key b = k)
      rw [hfilter] at hmem hascending
      rcases List.mem_cons.mp hmem with rfl | hmem
      · exact le_refl _
      · exact (List.pairwise_cons.mp hascending).1 b hmem
    · exact hc.2.2 a hac b hb
  refine ⟨hfirst, ?_⟩
  rintro ⟨c, hc, a, ha, hkey, hleast⟩
  have hca : c ∈ clusters := List.mem_of_getElem? hc
  have hal : a ∈ l := h.flatten ▸ List.mem_flatten.mpr ⟨c, hca, ha⟩
  cases hj : holder key clusters k with
  | none =>
      have hnone := List.findIdx?_eq_none_iff.mp hj c hca
      rw [List.any_eq_true.mpr ⟨a, ha, decide_eq_true hkey⟩] at hnone
      cases hnone
  | some j =>
      obtain ⟨c', hc', a', ha', hkey', hleast'⟩ := hfirst hj
      have hca' : c' ∈ clusters := List.mem_of_getElem? hc'
      have hal' : a' ∈ l := h.flatten ▸ List.mem_flatten.mpr ⟨c', hca', ha'⟩
      -- Both hold the least value, and an earlier leader leads no later element of that value.
      have hvalue : value a = value a' := le_antisymm (hleast a' hal' hkey') (hleast' a hal hkey)
      have hsame : ∀ d : List α, leads value close d a = leads value close d a' := by
        intro d
        rw [leads, leads, hvalue]
      obtain ⟨hi, rfl⟩ := List.getElem?_eq_some_iff.mp hc
      obtain ⟨hj', rfl⟩ := List.getElem?_eq_some_iff.mp hc'
      have hapart := List.pairwise_iff_getElem.mp h.apart
      rcases Nat.lt_trichotomy i j with hij | rfl | hij
      · have hfalse := hapart i j hi hj' hij a' ha'
        rw [← hsame, h.led _ hca a ha] at hfalse
        cases hfalse
      · rfl
      · have hfalse := hapart j i hj' hi hij a ha
        rw [hsame, h.led _ hca' a' ha'] at hfalse
        cases hfalse

/-! ### Counting the keys -/

instance (l c : List α) (k : κ) : Decidable (HoldsLeast value key l c k) :=
  inferInstanceAs (Decidable (∃ a ∈ c, key a = k ∧ ∀ b ∈ l, key b = k → value a ≤ value b))

omit [LinearOrder β] in
theorem holder_isSome_iff (h : Clustered value close clusters l) (k : κ) :
    (holder key clusters k).isSome ↔ k ∈ l.map key := by
  rw [holder, List.findIdx?_isSome, List.any_eq_true, ← h.flatten, List.mem_map]
  constructor
  · rintro ⟨c, hc, hany⟩
    obtain ⟨a, ha, hkey⟩ := List.any_eq_true.mp hany
    exact ⟨a, List.mem_flatten.mpr ⟨c, hc, ha⟩, of_decide_eq_true hkey⟩
  · rintro ⟨a, ha, hkey⟩
    obtain ⟨c, hc, ha⟩ := List.mem_flatten.mp ha
    exact ⟨c, hc, List.any_eq_true.mpr ⟨a, ha, decide_eq_true hkey⟩⟩

/-- A cluster is counted by the keys whose least value it holds. -/
theorem count_values_clusterBy (hclose : Convex close)
    (hsorted : l.Pairwise fun x y => value x ≤ value y) {i : Nat} {c : List α}
    (hc : (clusterBy value close key l).1[i]? = some c) {s : Finset κ}
    (hs : ∀ k, k ∈ s ↔ HoldsLeast value key l c k) :
    (clusterBy value close key l).2.values.count i = s.card := by
  obtain ⟨hclustered, hfirsts⟩ := clusterBy_spec key hclose l hsorted
  refine OrdMap.count_values fun k => ?_
  rw [hs, hfirsts, holder_eq_some_iff hclustered hsorted]
  constructor
  · exact fun hleast => ⟨c, hc, hleast⟩
  · rintro ⟨c', hc', hleast⟩
    rw [hc, Option.some.injEq] at hc'
    rwa [hc']

/-- Every key is counted once. -/
theorem sum_counts (hclose : Convex close) (hsorted : l.Pairwise fun x y => value x ≤ value y)
    {s : Finset κ} (hs : ∀ k, k ∈ s ↔ k ∈ l.map key) :
    ((List.range (clusterBy value close key l).1.length).map fun i =>
        (clusterBy value close key l).2.values.count i).sum = s.card := by
  obtain ⟨hclustered, hfirsts⟩ := clusterBy_spec key hclose l hsorted
  have hbound : ∀ i ∈ (clusterBy value close key l).2.values,
      i ∈ Finset.range (clusterBy value close key l).1.length := by
    intro i hi
    obtain ⟨⟨k, i⟩, he, rfl⟩ := List.mem_map.mp hi
    have hfind := OrdMap.find?_eq_some_iff.mpr he
    rw [hfirsts] at hfind
    exact Finset.mem_range.mpr (List.findIdx?_eq_some_iff_getElem.mp hfind).1
  have hkeys : ∀ k, k ∈ s ↔ k ∈ (clusterBy value close key l).2.keys := by
    intro k
    rw [hs, ← holder_isSome_iff hclustered, ← hfirsts, Option.isSome_iff_ne_none, ne_eq,
      OrdMap.find?_eq_none_iff_keys, not_not]
  have hlength : (clusterBy value close key l).2.values.length
      = (clusterBy value close key l).2.size := List.length_map _
  rw [← OrdMap.size_eq_card hkeys, ← hlength]
  have hsum := Multiset.sum_count_eq_card
    (m := ((clusterBy value close key l).2.values : Multiset Nat)) hbound
  rw [Finset.sum_eq_multiset_sum, Finset.range_val, Multiset.range, Multiset.map_coe,
    Multiset.sum_coe, Multiset.coe_card] at hsum
  simpa only [Multiset.coe_count] using hsum

end Keys

end Leader

end Lib
