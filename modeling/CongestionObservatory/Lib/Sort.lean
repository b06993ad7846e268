import Mathlib.Data.List.Sort
import Mathlib.Data.List.Destutter
import Mathlib.Data.Finset.Card

/-!
# `CongestionObservatory.Lib.Sort`: sorting forgets the order of the input

`sortUnique` sorts a list and drops adjacent duplicates, which leaves the elements in strictly
ascending order. Sorting by a linear order gives the same list for every permutation of the
input (`insertionSort_eq_of_perm`), so whatever is computed from a sorted list does not depend
on the order the elements came in.

Of the sorted list the first elements may be taken: `mem_take_iff_of_ascending` says which ones
those are, and `filter_take_of_pairwise` which of them have a property that only first elements
have. A list may also be cut before it is sorted. `insertionSort_take_iff` says when that gives the
first elements of the sorted list.
-/

set_option autoImplicit false

namespace Lib

variable {α : Type} [LinearOrder α]

/-- The elements in ascending order, each once. -/
def sortUnique (l : List α) : List α := (l.insertionSort (· ≤ ·)).destutter (· ≠ ·)

theorem insertionSort_eq_of_perm {l l' : List α} (h : l.Perm l') :
    l.insertionSort (· ≤ ·) = l'.insertionSort (· ≤ ·) := by
  have hperm : (l.insertionSort (· ≤ ·)).Perm (l'.insertionSort (· ≤ ·)) :=
    ((List.perm_insertionSort _ l).trans h).trans (List.perm_insertionSort _ l').symm
  exact hperm.eq_of_pairwise (fun _ _ _ _ => le_antisymm)
    (List.pairwise_insertionSort _ l) (List.pairwise_insertionSort _ l')

theorem sortUnique_eq_of_perm {l l' : List α} (h : l.Perm l') : sortUnique l = sortUnique l' := by
  rw [sortUnique, sortUnique, insertionSort_eq_of_perm h]

theorem sortUnique_ne_nil {l : List α} (h : l ≠ []) : sortUnique l ≠ [] := by
  intro hnil
  have hsorted : l.insertionSort (· ≤ ·) = [] := (List.destutter_eq_nil (· ≠ ·)).mp hnil
  have hlength := congrArg List.length hsorted
  rw [List.length_insertionSort, List.length_nil] at hlength
  exact h (List.eq_nil_of_length_eq_zero hlength)

theorem sortUnique_ascending (l : List α) : (sortUnique l).Pairwise (· < ·) := by
  have hle : (sortUnique l).IsChain (· ≤ ·) :=
    ((List.pairwise_insertionSort _ l).sublist (List.destutter_sublist _ _)).isChain
  have hne : (sortUnique l).IsChain (· ≠ ·) := List.isChain_destutter _ _
  refine List.isChain_iff_pairwise.mp (List.isChain_iff_getElem.mpr fun i hi => ?_)
  exact lt_of_le_of_ne (List.isChain_iff_getElem.mp hle i hi) (List.isChain_iff_getElem.mp hne i hi)

theorem sortUnique_perm_of_nodup {l : List α} (h : l.Nodup) : (sortUnique l).Perm l := by
  have hperm := List.perm_insertionSort (· ≤ ·) l
  rw [sortUnique, List.destutter_of_isChain _ _ (hperm.nodup_iff.mpr h).isChain]
  exact hperm

/-! ### Cutting a list without duplicates -/

theorem mem_destutter'_ne {a b : α} {l : List α} :
    b ∈ l.destutter' (· ≠ ·) a ↔ b = a ∨ b ∈ l := by
  induction l generalizing a with
  | nil => simp
  | cons c l ih =>
      by_cases hne : a ≠ c
      · rw [List.destutter'_cons_pos _ hne, List.mem_cons, ih, List.mem_cons]
      · rw [List.destutter'_cons_neg _ hne, ih, List.mem_cons, not_not.mp hne]
        tauto

theorem mem_sortUnique {l : List α} {a : α} : a ∈ sortUnique l ↔ a ∈ l := by
  rw [sortUnique, ← List.mem_insertionSort (· ≤ ·) (l := l)]
  cases l.insertionSort (· ≤ ·) with
  | nil => exact Iff.rfl
  | cons b rest => rw [List.destutter_cons', mem_destutter'_ne, List.mem_cons]

theorem length_sortUnique_le (l : List α) : (sortUnique l).length ≤ l.length :=
  (List.destutter_sublist _ _).length_le.trans (List.length_insertionSort _ _).le

/-- The same elements, in whatever order and however often, give the same ascending list. -/
theorem sortUnique_eq_iff {l l' : List α} : sortUnique l = sortUnique l' ↔ ∀ a, a ∈ l ↔ a ∈ l' := by
  constructor
  · intro h a
    rw [← mem_sortUnique, h, mem_sortUnique]
  · intro h
    have hl := sortUnique_ascending l
    have hl' := sortUnique_ascending l'
    have hperm : (sortUnique l).Perm (sortUnique l') := by
      rw [List.perm_ext_iff_of_nodup (hl.imp ne_of_lt) (hl'.imp ne_of_lt)]
      intro a
      rw [mem_sortUnique, mem_sortUnique]
      exact h a
    exact hperm.eq_of_pairwise (fun _ _ _ _ hab hba => absurd hba hab.not_gt) hl hl'

/-- An element of an ascending list is among the first ones when there are few enough below. -/
theorem mem_take_iff_of_ascending {l : List α} (h : l.Pairwise (· < ·)) {a : α} (ha : a ∈ l)
    (n : Nat) : a ∈ l.take n ↔ l.countP (fun b => decide (b < a)) < n := by
  induction l generalizing n with
  | nil => exact absurd ha List.not_mem_nil
  | cons b l ih =>
      obtain ⟨hb, hl⟩ := List.pairwise_cons.mp h
      cases n with
      | zero => simp
      | succ n =>
          rw [List.take_succ_cons, List.mem_cons]
          rcases List.mem_cons.mp ha with rfl | ha
          · -- Nothing is below the first element.
            have hnone : (a :: l).countP (fun c => decide (c < a)) = 0 := by
              rw [List.countP_eq_zero]
              intro c hc
              rw [decide_eq_true_eq, not_lt]
              rcases List.mem_cons.mp hc with rfl | hc
              · exact le_refl _
              · exact (hb c hc).le
            rw [hnone]
            exact iff_of_true (Or.inl rfl) (Nat.succ_pos n)
          · have hlt := hb a ha
            rw [List.countP_cons_of_pos (by simpa using hlt), Nat.add_lt_add_iff_right,
              ← ih hl ha n]
            exact ⟨fun h => h.resolve_left (ne_of_gt hlt), Or.inr⟩

/-- What is below an element, counted without duplicates. -/
theorem countP_sortUnique {l : List α} {a : α} {s : Finset α}
    (hs : ∀ b, b ∈ s ↔ b ∈ l ∧ b < a) :
    (sortUnique l).countP (fun b => decide (b < a)) = s.card := by
  have hnodup : ((sortUnique l).filter fun b => decide (b < a)).Nodup :=
    ((sortUnique_ascending l).imp ne_of_lt).sublist List.filter_sublist
  have hset : ((sortUnique l).filter fun b => decide (b < a)).toFinset = s := by
    ext b
    simp [hs, mem_sortUnique]
  rw [List.countP_eq_length_filter, ← hset, List.toFinset_card_of_nodup hnodup]

/-- Of a property that holds of the first elements only, those among the first `n` are the first `n`
that have it. -/
theorem filter_take_of_pairwise {β : Type} {p : β → Bool} {l : List β}
    (h : l.Pairwise fun a b => p b = true → p a = true) (n : Nat) :
    (l.take n).filter p = (l.filter p).take n := by
  induction l generalizing n with
  | nil => simp
  | cons a rest ih =>
      obtain ⟨hhead, hrest⟩ := List.pairwise_cons.mp h
      cases n with
      | zero => simp
      | succ n =>
          rw [List.take_succ_cons]
          cases ha : p a with
          | true =>
              rw [List.filter_cons_of_pos ha, List.filter_cons_of_pos ha, List.take_succ_cons,
                ih hrest n]
          | false =>
              -- No later element has the property.
              have hnone : rest.filter p = [] := by
                refine List.filter_eq_nil_iff.mpr fun b hb hpb => ?_
                rw [hhead b hb hpb] at ha
                cases ha
              have hfalse : ¬ p a = true := by simp [ha]
              rw [List.filter_cons_of_neg hfalse, List.filter_cons_of_neg hfalse, ih hrest n, hnone,
                List.take_nil, List.take_nil]

section Key

variable {β : Type} {key : β → α}

theorem pairwise_insertionSort_key (key : β → α) (l : List β) :
    (l.insertionSort fun a b => key a ≤ key b).Pairwise fun a b => key a ≤ key b := by
  have : Std.Total fun a b : β => key a ≤ key b := ⟨fun a b => le_total (key a) (key b)⟩
  have : IsTrans β fun a b => key a ≤ key b := ⟨fun _ _ _ => le_trans⟩
  exact List.pairwise_insertionSort _ l

variable (key) in
/-- Elements whose keys are distinct have one ascending order. -/
theorem eq_of_perm_of_ascending {l l' : List β} (h : l.Perm l') (hkey : (l.map key).Nodup)
    (hl : l.Pairwise fun a b => key a ≤ key b) (hl' : l'.Pairwise fun a b => key a ≤ key b) :
    l = l' := by
  refine h.eq_of_pairwise (fun a b ha hb hab hba => ?_) hl hl'
  exact List.inj_on_of_nodup_map hkey ha (h.mem_iff.mpr hb) (le_antisymm hab hba)

/-- Elements whose keys are distinct come out in the same order whatever order they came in. -/
theorem insertionSort_key_eq_of_perm {l l' : List β} (h : l.Perm l') (hkey : (l.map key).Nodup) :
    l.insertionSort (fun a b => key a ≤ key b) = l'.insertionSort (fun a b => key a ≤ key b) := by
  have hperm := List.perm_insertionSort (fun a b => key a ≤ key b) l
  refine eq_of_perm_of_ascending key ((hperm.trans h).trans (List.perm_insertionSort _ l').symm)
    ((hperm.map key).nodup_iff.mpr hkey) ?_ ?_
  · exact pairwise_insertionSort_key key l
  · exact pairwise_insertionSort_key key l'

/-- When no element of the first list is above one of the second, the sorted lists follow each
other. -/
theorem insertionSort_key_append {l l' : List β} (hkey : ((l ++ l').map key).Nodup)
    (h : ∀ a ∈ l, ∀ b ∈ l', key a ≤ key b) :
    (l ++ l').insertionSort (fun a b => key a ≤ key b)
      = l.insertionSort (fun a b => key a ≤ key b)
        ++ l'.insertionSort (fun a b => key a ≤ key b) := by
  have hperm := List.perm_insertionSort (fun a b => key a ≤ key b) (l ++ l')
  have hparts := (List.perm_insertionSort (fun a b => key a ≤ key b) l).append
    (List.perm_insertionSort (fun a b => key a ≤ key b) l')
  refine eq_of_perm_of_ascending key (hperm.trans hparts.symm) ((hperm.map key).nodup_iff.mpr hkey)
    (pairwise_insertionSort_key key _) ?_
  refine List.pairwise_append.mpr ⟨pairwise_insertionSort_key key l,
    pairwise_insertionSort_key key l', fun a ha b hb => ?_⟩
  exact h a ((List.mem_insertionSort _).mp ha) b ((List.mem_insertionSort _).mp hb)

variable (key) in
/-- Cutting a list and then sorting it gives the least elements in order exactly when none of
those cut off is below one that is left. -/
theorem insertionSort_take_iff {l : List β} (hkey : (l.map key).Nodup) (n : Nat) :
    (l.take n).insertionSort (fun a b => key a ≤ key b)
        = (l.insertionSort fun a b => key a ≤ key b).take n ↔
      ∀ a ∈ l.take n, ∀ b ∈ l.drop n, key a ≤ key b := by
  constructor
  · intro heq a ha b hb
    generalize hs : l.insertionSort (fun a b => key a ≤ key b) = sorted at heq
    have hperm : sorted.Perm l := hs ▸ List.perm_insertionSort _ l
    have htake : (sorted.take n).Perm (l.take n) := heq ▸ List.perm_insertionSort _ _
    -- The parts kept are the same elements, so the parts cut off are the same as well.
    have hdrop : (sorted.drop n).Perm (l.drop n) := by
      have hall : (sorted.take n ++ sorted.drop n).Perm (l.take n ++ l.drop n) := by
        rw [List.take_append_drop, List.take_append_drop]
        exact hperm
      exact (List.perm_append_left_iff _).mp (hall.trans (htake.symm.append_right _))
    have hsorted : (sorted.take n ++ sorted.drop n).Pairwise fun a b => key a ≤ key b := by
      rw [List.take_append_drop, ← hs]
      exact pairwise_insertionSort_key key l
    exact (List.pairwise_append.mp hsorted).2.2 a (htake.mem_iff.mpr ha) b (hdrop.mem_iff.mpr hb)
  · intro h
    have hsplit : l.insertionSort (fun a b => key a ≤ key b)
        = (l.take n).insertionSort (fun a b => key a ≤ key b)
          ++ (l.drop n).insertionSort (fun a b => key a ≤ key b) := by
      have hparts : ((l.take n ++ l.drop n).map key).Nodup := by
        rw [List.take_append_drop]
        exact hkey
      have happend := insertionSort_key_append hparts h
      rwa [List.take_append_drop] at happend
    rcases Nat.le_total n l.length with hle | hle
    · have hlength : ((l.take n).insertionSort fun a b => key a ≤ key b).length = n := by
        rw [List.length_insertionSort, List.length_take]
        omega
      rw [hsplit]
      exact (List.take_left' hlength).symm
    · -- Nothing is cut off.
      have hlength : (l.insertionSort fun a b => key a ≤ key b).length ≤ n := by
        rw [List.length_insertionSort]
        exact hle
      rw [List.take_of_length_le hle, List.take_of_length_le hlength]

/-- In the opposite order the sorted list is reversed. -/
theorem insertionSort_key_reverse {l : List β} (hkey : (l.map key).Nodup) :
    (l.insertionSort fun a b => key a ≤ key b).reverse
      = l.insertionSort fun a b => OrderDual.toDual (key a) ≤ OrderDual.toDual (key b) := by
  have hperm := (List.reverse_perm _).trans
    (List.perm_insertionSort (fun a b => key a ≤ key b) l)
  refine eq_of_perm_of_ascending (fun b => OrderDual.toDual (key b))
    (hperm.trans (List.perm_insertionSort _ l).symm) ((hperm.map key).nodup_iff.mpr hkey) ?_
    (pairwise_insertionSort_key (fun b => OrderDual.toDual (key b)) l)
  exact List.pairwise_reverse.mpr (pairwise_insertionSort_key key l)

end Key

end Lib
