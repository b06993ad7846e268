import Mathlib.Data.List.Sort
import Mathlib.Order.Lattice

/-!
# `Lib.NumberOrder`: orders in which some elements are no numbers

A floating point type has elements that compare with nothing, themselves included. A
`NumberOrder` is a total preorder on the elements that compare with themselves (`IsNumber`).
The others are below nothing and above nothing, so every comparison with one of them is false,
and `a ≤ b` is no longer the negation of `b < a`. A sort by such comparisons orders a list whose
elements are all numbers: `pairwise_insertionSort`.
-/

set_option autoImplicit false

namespace Lib

/-- A total preorder on the elements that compare with themselves. -/
class NumberOrder (α : Type) extends LE α, LT α where
  lt_iff_le_not_le : ∀ a b : α, a < b ↔ a ≤ b ∧ ¬ b ≤ a
  trans : ∀ a b c : α, a ≤ b → b ≤ c → a ≤ c
  refl_left : ∀ a b : α, a ≤ b → a ≤ a
  refl_right : ∀ a b : α, a ≤ b → b ≤ b
  total : ∀ a b : α, a ≤ a → b ≤ b → a ≤ b ∨ b ≤ a

namespace NumberOrder

variable {α : Type}

/-- In a linear order every element is a number. -/
@[reducible] def ofLinearOrder (α : Type) [LinearOrder α] : NumberOrder α where
  lt_iff_le_not_le _ _ := lt_iff_le_not_ge
  trans _ _ _ := le_trans
  refl_left _ _ _ := le_refl _
  refl_right _ _ _ := le_refl _
  total a b _ _ := le_total a b

variable [NumberOrder α] {a b c : α}

/-- The element compares with itself. -/
def IsNumber (a : α) : Prop := a ≤ a

theorem le_of_lt (h : a < b) : a ≤ b := ((lt_iff_le_not_le a b).mp h).1

theorem not_le_of_lt (h : a < b) : ¬ b ≤ a := ((lt_iff_le_not_le a b).mp h).2

theorem lt_irrefl (a : α) : ¬ a < a := fun h => not_le_of_lt h (le_of_lt h)

theorem isNumber_of_le (h : a ≤ b) : IsNumber b := refl_right a b h

theorem isNumber_of_lt (h : a < b) : IsNumber b := refl_right a b (le_of_lt h)

theorem lt_of_lt_of_le (hab : a < b) (hbc : b ≤ c) : a < c := by
  refine (lt_iff_le_not_le a c).mpr ⟨trans a b c (le_of_lt hab) hbc, fun hca => ?_⟩
  exact not_le_of_lt hab (trans b c a hbc hca)

/-- Between numbers, what is not below is above. -/
theorem le_of_not_lt (ha : IsNumber a) (hb : IsNumber b) (h : ¬ a < b) : b ≤ a := by
  by_contra hnot
  rcases total a b ha hb with hab | hba
  · exact h ((lt_iff_le_not_le a b).mpr ⟨hab, hnot⟩)
  · exact hnot hba

/-! ### Sorting -/

section Sorting

variable {β : Type} {r : β → β → Prop} [DecidableRel r] {f : β → α}

theorem pairwise_orderedInsert {b : β} {l : List β} (hl : l.Pairwise fun x y => f x ≤ f y)
    (hle : ∀ c ∈ l, r b c → f b ≤ f c) (hge : ∀ c ∈ l, ¬ r b c → f c ≤ f b) :
    (l.orderedInsert r b).Pairwise fun x y => f x ≤ f y := by
  induction l with
  | nil => exact List.pairwise_singleton _ _
  | cons c l ih =>
      obtain ⟨hc, hl'⟩ := List.pairwise_cons.mp hl
      by_cases hbc : r b c
      · rw [List.orderedInsert_cons_of_le _ _ hbc, List.pairwise_cons]
        have hfirst := hle c List.mem_cons_self hbc
        refine ⟨fun d hd => ?_, hl⟩
        rcases List.mem_cons.mp hd with rfl | hd
        · exact hfirst
        · exact trans _ _ _ hfirst (hc d hd)
      · rw [List.orderedInsert_of_not_le _ _ hbc, List.pairwise_cons]
        refine ⟨fun d hd => ?_, ih hl' (fun d hd => hle d (List.mem_cons_of_mem _ hd))
          fun d hd => hge d (List.mem_cons_of_mem _ hd)⟩
        rcases (List.mem_orderedInsert r).mp hd with rfl | hd
        · exact hge c List.mem_cons_self hbc
        · exact hc d hd

/-- A sort whose comparison orders the numbers leaves elements that are numbers in ascending
order. -/
theorem pairwise_insertionSort {l : List β} (h : ∀ b ∈ l, IsNumber (f b))
    (hle : ∀ b c, IsNumber (f b) → IsNumber (f c) → r b c → f b ≤ f c)
    (hge : ∀ b c, IsNumber (f b) → IsNumber (f c) → ¬ r b c → f c ≤ f b) :
    (l.insertionSort r).Pairwise fun x y => f x ≤ f y := by
  induction l with
  | nil => exact List.Pairwise.nil
  | cons b l ih =>
      have hb := h b List.mem_cons_self
      have hl : ∀ c ∈ l.insertionSort r, IsNumber (f c) := fun c hc =>
        h c (List.mem_cons_of_mem _ ((List.mem_insertionSort r).mp hc))
      rw [List.insertionSort_cons]
      exact pairwise_orderedInsert (ih fun c hc => h c (List.mem_cons_of_mem _ hc))
        (fun c hc => hle b c hb (hl c hc)) fun c hc => hge b c hb (hl c hc)

end Sorting

end NumberOrder

end Lib
