import Mathlib.Data.List.Basic
import Mathlib.Logic.Function.Basic

/-!
# `CongestionObservatory.Lib.Difference`: lists that differ in one place

`DiffersInOne l l'` says that the two lists differ in exactly one element. A difference in a list
that is put together from parts is a difference in one of the parts (`DiffersInOne.append`,
`DiffersInOne.flatMap`). A fold whose step is injective in the state and in the element separates
two such lists (`foldl_ne`), which is why a checksum of that kind detects every single error.

`DiffersWithin n l l'` is about bursts: the lists differ, but only within `n` consecutive places.
-/

set_option autoImplicit false

namespace Lib

variable {α β σ : Type}

/-- The lists differ in exactly one element. -/
def DiffersInOne (l l' : List α) : Prop :=
  ∃ before a a' after, a ≠ a' ∧ l = before ++ a :: after ∧ l' = before ++ a' :: after

namespace DiffersInOne

theorem length_eq {l l' : List α} (h : DiffersInOne l l') : l'.length = l.length := by
  obtain ⟨before, a, a', after, -, rfl, rfl⟩ := h
  simp

theorem ne {l l' : List α} (h : DiffersInOne l l') : l ≠ l' := by
  obtain ⟨before, a, a', after, hne, rfl, rfl⟩ := h
  intro heq
  have hcons := List.append_cancel_left heq
  exact hne (List.cons.inj hcons).1

/-- Another value in one place. -/
theorem set {l : List α} {i : Nat} {a a' : α} (h : l[i]? = some a) (hne : a ≠ a') :
    DiffersInOne l (l.set i a') := by
  obtain ⟨hi, rfl⟩ := List.getElem?_eq_some_iff.mp h
  exact ⟨l.take i, l[i], a', l.drop (i + 1), hne, by simp, List.set_eq_take_append_cons_drop ▸ by simp [hi]⟩

/-- A difference in two parts is a difference in the first or in the second. -/
theorem append {x y z : List α} (h : DiffersInOne (x ++ y) z) :
    (∃ x', z = x' ++ y ∧ DiffersInOne x x') ∨ ∃ y', z = x ++ y' ∧ DiffersInOne y y' := by
  obtain ⟨before, a, a', after, hne, hsplit, rfl⟩ := h
  rcases List.append_eq_append_iff.mp hsplit with ⟨mid, rfl, rfl⟩ | ⟨mid, rfl, hmid⟩
  · refine Or.inr ⟨mid ++ a' :: after, by simp, ?_⟩
    exact ⟨mid, a, a', after, hne, rfl, rfl⟩
  · cases mid with
    | nil =>
        -- The first part ends right before the changed element.
        rw [List.nil_append] at hmid
        refine Or.inr ⟨a' :: after, by simp, ?_⟩
        exact ⟨[], a, a', after, hne, hmid.symm, rfl⟩
    | cons m mid =>
        obtain ⟨rfl, rfl⟩ := List.cons.inj hmid
        refine Or.inl ⟨before ++ a' :: mid, by simp, ?_⟩
        exact ⟨before, a, a', mid, hne, rfl, rfl⟩

/-- A difference in the parts that are listed for the elements of a list is a difference in the
part of one element. -/
theorem flatMap {f : β → List α} {l : List β} {z : List α} (h : DiffersInOne (l.flatMap f) z) :
    ∃ before b after part, l = before ++ b :: after ∧
      z = before.flatMap f ++ (part ++ after.flatMap f) ∧ DiffersInOne (f b) part := by
  induction l generalizing z with
  | nil =>
      obtain ⟨before, a, a', after, -, hnil, -⟩ := h
      simp at hnil
  | cons b rest ih =>
      rw [List.flatMap_cons] at h
      rcases h.append with ⟨part, rfl, hpart⟩ | ⟨z', rfl, hrest⟩
      · exact ⟨[], b, rest, part, rfl, rfl, hpart⟩
      · obtain ⟨before, c, after, part, rfl, rfl, hpart⟩ := ih hrest
        exact ⟨b :: before, c, after, part, rfl, by simp, hpart⟩

end DiffersInOne

/-! ### Folds -/

/-- A fold over more elements does not bring two states together. -/
theorem foldl_injective {step : σ → α → σ} (hstate : ∀ a, Function.Injective fun s => step s a)
    (rest : List α) : Function.Injective fun s => rest.foldl step s := by
  induction rest with
  | nil => exact fun _ _ heq => heq
  | cons a rest ih => exact fun s s' heq => hstate a (ih heq)

/-- A fold that loses neither its state nor its element separates the lists. -/
theorem DiffersInOne.foldl_ne {step : σ → α → σ}
    (hstate : ∀ a, Function.Injective fun s => step s a)
    (helement : ∀ s, Function.Injective (step s)) {l l' : List α} (h : DiffersInOne l l') (s : σ) :
    l.foldl step s ≠ l'.foldl step s := by
  obtain ⟨before, a, a', after, hne, rfl, rfl⟩ := h
  rw [List.foldl_append, List.foldl_append, List.foldl_cons, List.foldl_cons]
  intro heq
  exact hne (helement _ (foldl_injective hstate after heq))

/-! ### Bursts -/

/-- The lists have one length and differ, but only within some `n` consecutive places. -/
def DiffersWithin (n : Nat) (l l' : List α) : Prop :=
  l.length = l'.length ∧ l ≠ l' ∧ ∃ i, ∀ j, j < i ∨ i + n ≤ j → l[j]? = l'[j]?

namespace DiffersWithin

/-- The lists share what stands before the window and what stands behind it. -/
theorem split {n : Nat} {l l' : List α} (h : DiffersWithin n l l') :
    ∃ before w w' after, w.length = w'.length ∧ w.length ≤ n ∧ w ≠ w' ∧
      l = before ++ (w ++ after) ∧ l' = before ++ (w' ++ after) := by
  obtain ⟨hlength, hne, i, hsame⟩ := h
  have hbefore : l.take i = l'.take i := by
    apply List.ext_getElem?
    intro j
    by_cases hj : j < i
    · rw [List.getElem?_take_of_lt hj, List.getElem?_take_of_lt hj]
      exact hsame j (Or.inl hj)
    · rw [List.getElem?_take_eq_none (by omega), List.getElem?_take_eq_none (by omega)]
  have hafter : (l.drop i).drop n = (l'.drop i).drop n := by
    apply List.ext_getElem?
    intro j
    simp only [List.getElem?_drop]
    exact hsame _ (Or.inr (by omega))
  have hl : l = l.take i ++ ((l.drop i).take n ++ (l.drop i).drop n) := by
    rw [List.take_append_drop, List.take_append_drop]
  have hl' : l' = l.take i ++ ((l'.drop i).take n ++ (l.drop i).drop n) := by
    rw [hbefore, hafter, List.take_append_drop, List.take_append_drop]
  refine ⟨l.take i, (l.drop i).take n, (l'.drop i).take n, (l.drop i).drop n, ?_, ?_, ?_, hl, hl'⟩
  · simp [hlength]
  · rw [List.length_take]
    exact Nat.min_le_left n _
  · intro hwindow
    rw [hwindow] at hl
    exact hne (hl.trans hl'.symm)

/-- A fold that loses neither its state nor a window separates the lists. -/
theorem foldl_ne {n : Nat} {step : σ → α → σ}
    (hstate : ∀ a, Function.Injective fun s => step s a)
    (hwindow : ∀ s (w w' : List α), w.length = w'.length → w.length ≤ n →
      w.foldl step s = w'.foldl step s → w = w')
    {l l' : List α} (h : DiffersWithin n l l') (s : σ) : l.foldl step s ≠ l'.foldl step s := by
  obtain ⟨before, w, w', after, hlength, hn, hne, rfl, rfl⟩ := h.split
  simp only [List.foldl_append]
  intro heq
  exact hne (hwindow _ w w' hlength hn (foldl_injective hstate after heq))

end DiffersWithin

end Lib
