import CongestionObservatory.Lib.OrdMap
import CongestionObservatory.Lib.Sort

/-!
# `CongestionObservatory.Lib.Multimap`: maps from a key to a list

A map whose values are lists is filled by pushing one value at a time behind the list of a key
(`filed`). The list of a key then holds the values that were pushed for it, in the order they were
pushed (`listAt_filed`).

Values that are pushed in ascending order leave ascending lists. From such a list adjacent
duplicates can be dropped before it is sorted: the result is the same as sorting first
(`unique_eq_sortUnique`), so it is strictly ascending and loses no value.
-/

set_option autoImplicit false

namespace Lib

namespace OrdMap

variable {κ ν : Type} [LinearOrder κ]

/-- The list of a key, empty for a key that is not there. -/
def listAt (m : OrdMap κ (List ν)) (k : κ) : List ν := (m.find? k).getD []

/-- The value behind the list of the key. -/
def push (m : OrdMap κ (List ν)) (k : κ) (v : ν) : OrdMap κ (List ν) := m.insert k (m.listAt k ++ [v])

/-- The pairs pushed one after the other. -/
def filed (pairs : List (κ × ν)) : OrdMap κ (List ν) :=
  pairs.foldl (fun m p => m.push p.1 p.2) empty

theorem listAt_push (m : OrdMap κ (List ν)) (k n : κ) (v : ν) :
    (m.push k v).listAt n = m.listAt n ++ if k = n then [v] else [] := by
  unfold push listAt
  rw [find?_insert]
  by_cases h : n = k
  · rw [if_pos h, if_pos h.symm, h]
    rfl
  · rw [if_neg h, if_neg (Ne.symm h), List.append_nil]

/-- The list of a key holds the values that were pushed for it. -/
theorem listAt_filed (pairs : List (κ × ν)) (n : κ) :
    (filed pairs).listAt n = (pairs.filter fun p => p.1 = n).map Prod.snd := by
  -- The map that the pairs are pushed to is arbitrary: it changes with every pair.
  have hgen : ∀ m : OrdMap κ (List ν), (pairs.foldl (fun m p => m.push p.1 p.2) m).listAt n
      = m.listAt n ++ (pairs.filter fun p => p.1 = n).map Prod.snd := by
    induction pairs with
    | nil => intro m; simp
    | cons p rest ih =>
        intro m
        rw [List.foldl_cons, ih, listAt_push, List.append_assoc]
        by_cases h : p.1 = n
        · rw [if_pos h, List.filter_cons_of_pos (by simpa using h)]
          rfl
        · rw [if_neg h, List.filter_cons_of_neg (by simpa using h)]
          rfl
  exact hgen empty

theorem mem_listAt_filed {pairs : List (κ × ν)} {n : κ} {v : ν} :
    v ∈ (filed pairs).listAt n ↔ (n, v) ∈ pairs := by
  rw [listAt_filed]
  simp only [List.mem_map, List.mem_filter, decide_eq_true_eq]
  constructor
  · rintro ⟨⟨k, w⟩, ⟨hmem, rfl⟩, rfl⟩
    exact hmem
  · intro hmem
    exact ⟨(n, v), ⟨hmem, rfl⟩, rfl⟩

/-- Pushing in an order leaves every list in this order. -/
theorem pairwise_listAt_filed {R : ν → ν → Prop} {pairs : List (κ × ν)}
    (h : pairs.Pairwise fun p q => R p.2 q.2) (n : κ) : ((filed pairs).listAt n).Pairwise R := by
  rw [listAt_filed, List.pairwise_map]
  exact h.sublist List.filter_sublist

theorem listAt_mapValues (f : List ν → List ν) (hf : f [] = []) (m : OrdMap κ (List ν)) (n : κ) :
    (m.mapValues fun _ l => f l).listAt n = f (m.listAt n) := by
  unfold listAt
  rw [find?_mapValues]
  cases m.find? n with
  | none => exact hf.symm
  | some l => rfl

end OrdMap

variable {ν : Type} [LinearOrder ν]

/-- Of an ascending list the duplicates are adjacent. -/
theorem unique_eq_sortUnique [inst : DecidableRel fun a b : ν => a ≠ b] {l : List ν}
    (h : l.Pairwise (· ≤ ·)) :
    (l.destutter (· ≠ ·)).insertionSort (· ≤ ·) = sortUnique l := by
  -- How equality is decided makes no difference.
  obtain rfl : inst = fun a b => instDecidableNot := Subsingleton.elim _ _
  have hsorted : (l.destutter (· ≠ ·)).Pairwise (· ≤ ·) := h.sublist (List.destutter_sublist _ _)
  rw [hsorted.insertionSort_eq, sortUnique, h.insertionSort_eq]

end Lib
