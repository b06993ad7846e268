import CongestionObservatory.Lib.OrdMap
import Mathlib.Data.Finset.Card

/-!
# `CongestionObservatory.Lib.Room`: filling a bounded table

A table with a bound takes keys one by one. A key it knows always goes in, and a new key only while
the table is below its bound. `Room` says in one formula when a whole list of keys goes in: either
none of them is new, or the table has room for all the different new ones. `room_cons` is the step:
the first key goes in, and the others go into the table that knows it.
-/

set_option autoImplicit false

namespace Lib

namespace OrdMap

variable {κ ν : Type} [LinearOrder κ]

/-- The different keys of the list that the table does not know. -/
def newKeys (m : OrdMap κ ν) (keys : List κ) : Finset κ :=
  keys.toFinset.filter fun k => m.find? k = none

/-- There is room for the keys: none is new, or all the new ones fit. -/
def Room (m : OrdMap κ ν) (bound : Nat) (keys : List κ) : Prop :=
  m.newKeys keys = ∅ ∨ m.size + (m.newKeys keys).card ≤ bound

/-- A key goes in alone: it is known, or the table is below its bound. -/
def Takes (m : OrdMap κ ν) (bound : Nat) (k : κ) : Prop := m.find? k ≠ none ∨ m.size < bound

/-- The second table knows the keys of the first and one more. -/
structure Learns (m m' : OrdMap κ ν) (k : κ) : Prop where
  knows : ∀ k', m'.find? k' = none ↔ k' ≠ k ∧ m.find? k' = none
  size_new : m.find? k = none → m'.size = m.size + 1
  size_known : m.find? k ≠ none → m'.size = m.size

theorem learns_insert (m : OrdMap κ ν) (k : κ) (v : ν) : Learns m (m.insert k v) k := by
  refine ⟨fun k' => ?_, fun hnew => size_insert_of_none hnew v, fun hknown => ?_⟩
  · rw [find?_insert]
    split
    · rename_i heq
      simp [heq]
    · rename_i hne
      simp [hne]
  · obtain ⟨old, hold⟩ := Option.ne_none_iff_exists'.mp hknown
    exact size_insert_of_some hold v

theorem learns_self {m : OrdMap κ ν} {k : κ} (h : m.find? k ≠ none) : Learns m m k := by
  refine ⟨fun k' => ⟨fun hnew => ⟨fun heq => h (heq ▸ hnew), hnew⟩, And.right⟩, fun hnew => ?_,
    fun _ => rfl⟩
  exact absurd hnew h

theorem learns_emplace (m : OrdMap κ ν) (k : κ) (v : ν) : Learns m (m.emplace k v) k := by
  unfold emplace
  split
  · rename_i hknown
    exact learns_self (Option.isSome_iff_ne_none.mp hknown)
  · exact learns_insert m k v

@[simp] theorem room_nil (m : OrdMap κ ν) (bound : Nat) : m.Room bound [] :=
  Or.inl (by simp [newKeys])

/-- An empty table has room for as many different keys as its bound. -/
theorem room_empty [DecidableEq κ] (bound : Nat) (keys : List κ) :
    (empty : OrdMap κ ν).Room bound keys ↔ keys.toFinset.card ≤ bound := by
  have hall : (empty : OrdMap κ ν).newKeys keys = keys.toFinset := by
    ext k
    simp [newKeys]
  unfold Room
  rw [hall, size_empty, Nat.zero_add, ← Finset.card_eq_zero]
  omega

theorem room_cons {m m' : OrdMap κ ν} {k : κ} (h : Learns m m' k) (bound : Nat) (keys : List κ) :
    m.Room bound (k :: keys) ↔ m.Takes bound k ∧ m'.Room bound keys := by
  have hrest : m'.newKeys keys = (m.newKeys keys).erase k := by
    ext k'
    simp only [newKeys, Finset.mem_filter, List.mem_toFinset, h.knows, Finset.mem_erase]
    tauto
  unfold Room Takes
  by_cases hnew : m.find? k = none
  · -- A new key takes one place, and the others are counted without it.
    have hall : m.newKeys (k :: keys) = Insert.insert k ((m.newKeys keys).erase k) := by
      ext k'
      by_cases heq : k' = k
      · simp [newKeys, heq, hnew]
      · simp [newKeys, heq]
    have hcard : (m.newKeys (k :: keys)).card = ((m.newKeys keys).erase k).card + 1 := by
      rw [hall, Finset.card_insert_of_notMem (Finset.notMem_erase _ _)]
    have hne : m.newKeys (k :: keys) ≠ ∅ := by
      rw [hall]
      exact Finset.insert_ne_empty _ _
    rw [hrest, h.size_new hnew, hcard]
    simp only [hne, hnew, false_or, ne_eq, not_true_eq_false]
    rw [← Finset.card_eq_zero]
    omega
  · have hall : m.newKeys (k :: keys) = m.newKeys keys := by
      ext k'
      by_cases heq : k' = k
      · simp [newKeys, heq, hnew]
      · simp [newKeys, heq]
    have hsame : (m.newKeys keys).erase k = m.newKeys keys := by
      refine Finset.erase_eq_of_notMem fun hmem => ?_
      exact hnew (Finset.mem_filter.mp hmem).2
    rw [hrest, hsame, hall, h.size_known hnew]
    simp [hnew]

end OrdMap

end Lib
