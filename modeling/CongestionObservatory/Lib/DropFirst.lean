import Mathlib.Data.List.Basic

/-!
# `CongestionObservatory.Lib.DropFirst`: a bounded number of removals

A pass over a list with a budget removes the elements that match, in order, until the budget is
used up. `dropFirst p n` is what is left when the first `n` matches are gone, and `takeFirst p n`
is what went. A pass that goes through a list piece by piece is a pass over the whole when each
piece was finished before the next one lost anything (`dropFirst_append`).
-/

set_option autoImplicit false

namespace Lib

variable {α : Type} (p : α → Bool)

/-- The list without its first `n` elements that satisfy `p`. -/
def dropFirst : Nat → List α → List α
  | 0, l => l
  | _ + 1, [] => []
  | n + 1, a :: l => if p a then dropFirst n l else a :: dropFirst (n + 1) l

/-- The first `n` elements that satisfy `p`. -/
def takeFirst (n : Nat) (l : List α) : List α := (l.filter p).take n

@[simp] theorem dropFirst_zero (l : List α) : dropFirst p 0 l = l := by
  rw [dropFirst]

@[simp] theorem dropFirst_nil (n : Nat) : dropFirst p n [] = [] := by
  cases n with
  | zero => rw [dropFirst]
  | succ n => rw [dropFirst]

variable {p}

theorem dropFirst_cons_of_pos {a : α} (h : p a = true) (n : Nat) (l : List α) :
    dropFirst p (n + 1) (a :: l) = dropFirst p n l := by
  rw [dropFirst, if_pos h]

theorem dropFirst_cons_of_neg {a : α} (h : p a = false) (n : Nat) (l : List α) :
    dropFirst p n (a :: l) = a :: dropFirst p n l := by
  cases n with
  | zero => rw [dropFirst_zero, dropFirst_zero]
  | succ n => rw [dropFirst, if_neg (by simp [h])]

theorem dropFirst_sublist (n : Nat) (l : List α) : (dropFirst p n l).Sublist l := by
  induction l generalizing n with
  | nil =>
      rw [dropFirst_nil]
  | cons a l ih =>
      cases h : p a with
      | false =>
          rw [dropFirst_cons_of_neg h]
          exact (ih n).cons_cons a
      | true =>
          cases n with
          | zero =>
              rw [dropFirst_zero]
          | succ n =>
              rw [dropFirst_cons_of_pos h]
              exact (ih n).cons a

/-- Two pieces in a row are one list when the first loses all its matches or the second loses
nothing. -/
theorem dropFirst_append {l : List α} {n : Nat} (hle : n ≤ l.countP p) (l' : List α) {n' : Nat}
    (h : n' = 0 ∨ n = l.countP p) :
    dropFirst p (n + n') (l ++ l') = dropFirst p n l ++ dropFirst p n' l' := by
  induction l generalizing n with
  | nil =>
      rw [List.countP_nil] at hle
      have hzero : n = 0 := by omega
      subst hzero
      rw [dropFirst_zero, List.nil_append, List.nil_append, Nat.zero_add]
  | cons a l ih =>
      rw [List.countP_cons] at hle h
      rw [List.cons_append]
      cases hp : p a with
      | false =>
          simp only [hp, Bool.false_eq_true, if_false, Nat.add_zero] at hle h
          rw [dropFirst_cons_of_neg hp, dropFirst_cons_of_neg hp, ih hle h, List.cons_append]
      | true =>
          simp only [hp, if_true] at hle h
          cases n with
          | zero =>
              -- Nothing is removed from the first piece, so nothing is from the second.
              have hzero : n' = 0 := by omega
              subst hzero
              simp
          | succ n =>
              have hnext : n + 1 + n' = n + n' + 1 := by omega
              rw [hnext, dropFirst_cons_of_pos hp, dropFirst_cons_of_pos hp]
              exact ih (by omega) (by omega)

/-- Elements that match under a map before and after it are dropped alike. -/
theorem dropFirst_map {β : Type} {q : β → Bool} (f : α → β) (h : ∀ a, q (f a) = p a) (n : Nat)
    (l : List α) : (dropFirst p n l).map f = dropFirst q n (l.map f) := by
  induction l generalizing n with
  | nil => rw [dropFirst_nil, List.map_nil, dropFirst_nil]
  | cons a l ih =>
      rw [List.map_cons]
      cases hp : p a with
      | false =>
          rw [dropFirst_cons_of_neg hp, dropFirst_cons_of_neg ((h a).trans hp), List.map_cons, ih]
      | true =>
          cases n with
          | zero => rw [dropFirst_zero, dropFirst_zero, List.map_cons]
          | succ n =>
              rw [dropFirst_cons_of_pos hp, dropFirst_cons_of_pos ((h a).trans hp), ih]

/-- When only a part of the list is looked at, the matches taken are the first of that part. -/
theorem takeFirst_of_isPrefix (n : Nat) {l l' : List α} (h : l' <+: l) :
    takeFirst p (min n (l'.countP p)) l = takeFirst p n l' := by
  obtain ⟨rest, rfl⟩ := h
  rw [takeFirst, takeFirst, List.countP_eq_length_filter, List.filter_append,
    List.take_append_of_le_length (Nat.min_le_right _ _)]
  rcases Nat.le_total n (l'.filter p).length with hle | hle
  · rw [Nat.min_eq_left hle]
  · rw [Nat.min_eq_right hle, List.take_length, List.take_of_length_le hle]

/-- What is left and what went are the whole list. -/
theorem dropFirst_append_takeFirst_perm (n : Nat) (l : List α) :
    (dropFirst p n l ++ takeFirst p n l).Perm l := by
  induction l generalizing n with
  | nil =>
      rw [dropFirst_nil]
      exact List.Perm.of_eq (by simp [takeFirst])
  | cons a l ih =>
      unfold takeFirst at ih ⊢
      cases h : p a with
      | false =>
          rw [dropFirst_cons_of_neg h, List.filter_cons_of_neg (by simp [h]), List.cons_append]
          exact (ih n).cons a
      | true =>
          cases n with
          | zero => simp
          | succ n =>
              rw [dropFirst_cons_of_pos h, List.filter_cons_of_pos h, List.take_succ_cons]
              exact List.perm_middle.trans ((ih n).cons a)

end Lib
