import Mathlib.Data.List.Basic
import Mathlib.Data.List.Flatten
import Mathlib.Logic.Function.Basic

/-!
# `CongestionObservatory.Lib.PrefixCode`: encodings whose end can be told

An encoding is `SelfDelimiting` when no encoded value is followed by anything that could be taken
for a part of it: what comes behind it plays no part in reading it. A fixed length makes an encoding
self-delimiting (`of_length`). Self-delimiting encodings can be put one after the other
(`append_inj`), also for every value of a list (`flatMap_injective`).
-/

set_option autoImplicit false

namespace Lib

variable {α σ : Type}

/-- Whatever follows an encoded value, the value and what follows can be told from the text. -/
def SelfDelimiting (enc : α → List σ) : Prop :=
  ∀ ⦃a b : α⦄ ⦃x y : List σ⦄, enc a ++ x = enc b ++ y → a = b ∧ x = y

/-- Two texts with a delimiter that neither beginning has. -/
theorem append_cons_inj {a b x y : List σ} {d : σ} (ha : d ∉ a) (hb : d ∉ b) :
    a ++ d :: x = b ++ d :: y ↔ a = b ∧ x = y := by
  constructor
  · intro h
    induction a generalizing b with
    | nil =>
        cases b with
        | nil => exact ⟨rfl, List.tail_eq_of_cons_eq h⟩
        | cons c b => exact absurd (List.head_eq_of_cons_eq h) (List.ne_of_not_mem_cons hb)
    | cons c a ih =>
        cases b with
        | nil => exact absurd (List.head_eq_of_cons_eq h).symm (List.ne_of_not_mem_cons ha)
        | cons c' b =>
            obtain ⟨hab, hxy⟩ := ih (List.not_mem_of_not_mem_cons ha)
              (List.not_mem_of_not_mem_cons hb) (List.tail_eq_of_cons_eq h)
            exact ⟨by rw [List.head_eq_of_cons_eq h, hab], hxy⟩
  · rintro ⟨rfl, rfl⟩
    rfl

namespace SelfDelimiting

variable {enc : α → List σ}

theorem append_inj (h : SelfDelimiting enc) {a b : α} {x y : List σ} :
    enc a ++ x = enc b ++ y ↔ a = b ∧ x = y := by
  refine ⟨fun heq => h heq, ?_⟩
  rintro ⟨rfl, rfl⟩
  rfl

/-- Texts of one length need no delimiter. -/
theorem of_length (hinj : Function.Injective enc) {n : Nat} (hlength : ∀ a, (enc a).length = n) :
    SelfDelimiting enc := by
  intro a b x y h
  obtain ⟨hab, hxy⟩ := List.append_inj h ((hlength a).trans (hlength b).symm)
  exact ⟨hinj hab, hxy⟩

/-- A list of values can be told from its encodings put together. -/
theorem flatMap_injective (h : SelfDelimiting enc) (hne : ∀ a, enc a ≠ []) :
    Function.Injective fun l : List α => l.flatMap enc := by
  intro l m heq
  simp only at heq
  induction l generalizing m with
  | nil =>
      cases m with
      | nil => rfl
      | cons b m =>
          rw [List.flatMap_nil, List.flatMap_cons] at heq
          exact absurd (List.append_eq_nil_iff.mp heq.symm).1 (hne b)
  | cons a l ih =>
      cases m with
      | nil =>
          rw [List.flatMap_nil, List.flatMap_cons] at heq
          exact absurd (List.append_eq_nil_iff.mp heq).1 (hne a)
      | cons b m =>
          rw [List.flatMap_cons, List.flatMap_cons] at heq
          obtain ⟨rfl, hrest⟩ := h heq
          rw [ih hrest]

end SelfDelimiting

end Lib
