import Mathlib.Data.List.Sort
import Mathlib.Data.List.Perm.Basic
import Mathlib.Data.List.Nodup
import Mathlib.Data.List.Induction
import Mathlib.Data.List.TakeWhile

/-!
# `CongestionObservatory.Lib.OrdMap`: a finite map in key order

`OrdMap κ ν` is the ordered map of a program that iterates in ascending key order: a list of
entries whose keys are strictly ascending. The order is a field of the structure, so two
entries for one key and an entry out of place cannot be built.

The operations are the ones an ordered map offers: `find?`, `insert` (which replaces),
`erase`, `front?`, a map over the values, and `mapAccum`, the loop that visits the entries in
key order, threads a state and rewrites each value in place. The lemmas come in two forms:

* by lookup: `find?_insert`, `find?_erase` and `ext`, which makes two maps with equal lookups
  equal;
* by entries: `insert_entries_perm` and `entries_perm_cons_erase` split one key off the entry
  list up to permutation, which is how sums and flattenings over all values are updated.
-/

set_option autoImplicit false

namespace Lib

/-- A finite map as its entries in strictly ascending key order. -/
structure OrdMap (κ ν : Type) [LinearOrder κ] where
  entries : List (κ × ν)
  sorted : entries.Pairwise (fun a b => a.1 < b.1)

namespace OrdMap

variable {κ ν : Type} [LinearOrder κ]

instance [DecidableEq ν] : DecidableEq (OrdMap κ ν) := fun a b =>
  decidable_of_iff (a.entries = b.entries)
    ⟨fun h => by cases a; cases b; cases h; rfl, fun h => by rw [h]⟩

theorem eq_of_entries_eq {m n : OrdMap κ ν} (h : m.entries = n.entries) : m = n := by
  cases m
  cases n
  cases h
  rfl

/-- The map with no entries. -/
def empty : OrdMap κ ν := ⟨[], List.Pairwise.nil⟩

instance : Inhabited (OrdMap κ ν) := ⟨empty⟩

/-- The number of entries. -/
def size (m : OrdMap κ ν) : Nat := m.entries.length

/-- The keys, ascending. -/
def keys (m : OrdMap κ ν) : List κ := m.entries.map Prod.fst

/-- The values, in ascending key order. -/
def values (m : OrdMap κ ν) : List ν := m.entries.map Prod.snd

/-- The value in an entry list under a key. -/
def lookupList (k : κ) : List (κ × ν) → Option ν
  | [] => none
  | (k', v) :: rest => if k = k' then some v else lookupList k rest

/-- The value under a key. -/
def find? (m : OrdMap κ ν) (k : κ) : Option ν := lookupList k m.entries

/-- Whether a key has an entry. -/
def contains (m : OrdMap κ ν) (k : κ) : Bool := (m.find? k).isSome

/-- The entry with the least key. -/
def front? (m : OrdMap κ ν) : Option (κ × ν) := m.entries.head?

/-- The entries from the first one whose key is not below the key, as `std::map::lower_bound`
finds it. -/
def lowerBound (m : OrdMap κ ν) (k : κ) : List (κ × ν) := m.entries.dropWhile fun e => e.1 < k

/-- Insertion into an entry list at the place of the key. An entry for the key is replaced. -/
def insertList (k : κ) (v : ν) : List (κ × ν) → List (κ × ν)
  | [] => [(k, v)]
  | (k', v') :: rest =>
    if k < k' then (k, v) :: (k', v') :: rest
    else if k = k' then (k, v) :: rest
    else (k', v') :: insertList k v rest

theorem mem_insertList {k : κ} {v : ν} {a : κ × ν} {l : List (κ × ν)}
    (h : a ∈ insertList k v l) : a = (k, v) ∨ a ∈ l := by
  induction l with
  | nil => simpa [insertList] using h
  | cons e rest ih =>
      obtain ⟨k', v'⟩ := e
      rw [insertList] at h
      split at h
      · simpa using h
      · split at h
        · rcases List.mem_cons.mp h with h | h
          · exact Or.inl h
          · exact Or.inr (List.mem_cons_of_mem _ h)
        · rcases List.mem_cons.mp h with h | h
          · exact Or.inr (by simp [h])
          · rcases ih h with h | h
            · exact Or.inl h
            · exact Or.inr (List.mem_cons_of_mem _ h)

theorem insertList_sorted (k : κ) (v : ν) {l : List (κ × ν)}
    (h : l.Pairwise (fun a b => a.1 < b.1)) :
    (insertList k v l).Pairwise (fun a b => a.1 < b.1) := by
  induction l with
  | nil => simp [insertList]
  | cons e rest ih =>
      obtain ⟨k', v'⟩ := e
      obtain ⟨hhead, htail⟩ := List.pairwise_cons.mp h
      rw [insertList]
      split
      · rename_i hlt
        refine List.pairwise_cons.mpr ⟨fun a ha => ?_, h⟩
        rcases List.mem_cons.mp ha with rfl | ha
        · exact hlt
        · exact hlt.trans (hhead a ha)
      · split
        · rename_i heq
          subst heq
          exact List.pairwise_cons.mpr ⟨fun a ha => hhead a ha, htail⟩
        · rename_i hnlt hne
          refine List.pairwise_cons.mpr ⟨fun a ha => ?_, ih htail⟩
          rcases mem_insertList ha with rfl | ha
          · exact lt_of_le_of_ne (not_lt.mp hnlt) (Ne.symm hne)
          · exact hhead a ha

/-- The map with the value stored under the key, in place of any earlier value. -/
def insert (m : OrdMap κ ν) (k : κ) (v : ν) : OrdMap κ ν :=
  ⟨insertList k v m.entries, insertList_sorted k v m.sorted⟩

/-- The map without the key. -/
def erase (m : OrdMap κ ν) (k : κ) : OrdMap κ ν :=
  ⟨m.entries.filter (fun e => e.1 ≠ k), m.sorted.filter _⟩

/-- Insertion that keeps an earlier value, as `std::map::emplace` does. -/
def emplace (m : OrdMap κ ν) (k : κ) (v : ν) : OrdMap κ ν :=
  if m.contains k then m else m.insert k v

theorem mem_insert {m : OrdMap κ ν} {k : κ} {v : ν} {a : κ × ν}
    (h : a ∈ (m.insert k v).entries) : a = (k, v) ∨ a ∈ m.entries :=
  mem_insertList h

/-! ### Lookup -/

theorem lookupList_eq_none {k : κ} {l : List (κ × ν)} (h : ∀ e ∈ l, e.1 ≠ k) :
    lookupList k l = none := by
  induction l with
  | nil => rfl
  | cons e rest ih =>
      rw [lookupList, if_neg (Ne.symm (h e List.mem_cons_self))]
      exact ih fun a ha => h a (List.mem_cons_of_mem _ ha)

theorem mem_of_lookupList {k : κ} {v : ν} {l : List (κ × ν)} (h : lookupList k l = some v) :
    (k, v) ∈ l := by
  induction l with
  | nil => simp [lookupList] at h
  | cons e rest ih =>
      obtain ⟨k', v'⟩ := e
      rw [lookupList] at h
      split at h
      · rename_i heq
        cases h
        rw [heq]
        exact List.mem_cons_self
      · exact List.mem_cons_of_mem _ (ih h)

theorem lookupList_of_mem {k : κ} {v : ν} {l : List (κ × ν)}
    (hs : l.Pairwise (fun a b => a.1 < b.1)) (h : (k, v) ∈ l) : lookupList k l = some v := by
  induction l with
  | nil => simp at h
  | cons e rest ih =>
      obtain ⟨k', v'⟩ := e
      obtain ⟨hhead, htail⟩ := List.pairwise_cons.mp hs
      rw [lookupList]
      rcases List.mem_cons.mp h with heq | h
      · cases heq
        simp
      · rw [if_neg (ne_of_gt (hhead _ h))]
        exact ih htail h

/-- A key finds a value exactly when the pair is an entry. -/
theorem find?_eq_some_iff {m : OrdMap κ ν} {k : κ} {v : ν} :
    m.find? k = some v ↔ (k, v) ∈ m.entries :=
  ⟨mem_of_lookupList, lookupList_of_mem m.sorted⟩

theorem find?_eq_none_iff {m : OrdMap κ ν} {k : κ} :
    m.find? k = none ↔ ∀ e ∈ m.entries, e.1 ≠ k := by
  constructor
  · rintro h ⟨k', v⟩ he rfl
    rw [find?_eq_some_iff.mpr he] at h
    cases h
  · exact lookupList_eq_none

theorem find?_eq_none_iff_keys {m : OrdMap κ ν} {k : κ} : m.find? k = none ↔ k ∉ m.keys := by
  rw [find?_eq_none_iff, keys, List.mem_map]
  simp only [not_exists, not_and]

@[simp] theorem find?_empty (k : κ) : (empty : OrdMap κ ν).find? k = none := rfl

theorem lookupList_insertList (k k' : κ) (v : ν) (l : List (κ × ν)) :
    lookupList k' (insertList k v l) = if k' = k then some v else lookupList k' l := by
  induction l with
  | nil => simp [insertList, lookupList]
  | cons e rest ih =>
      obtain ⟨k₀, v₀⟩ := e
      rw [insertList]
      split
      · rw [lookupList]
      · split
        · rename_i heq
          subst heq
          simp only [lookupList]
          split <;> rfl
        · rename_i hne
          simp only [lookupList, ih]
          by_cases h1 : k' = k₀
          · subst h1
            simp [Ne.symm hne]
          · simp [h1]

@[simp] theorem find?_insert (m : OrdMap κ ν) (k k' : κ) (v : ν) :
    (m.insert k v).find? k' = if k' = k then some v else m.find? k' :=
  lookupList_insertList k k' v m.entries

theorem find?_insert_self (m : OrdMap κ ν) (k : κ) (v : ν) :
    (m.insert k v).find? k = some v := by
  simp

@[simp] theorem find?_erase (m : OrdMap κ ν) (k k' : κ) :
    (m.erase k).find? k' = if k' = k then none else m.find? k' := by
  split
  · rename_i heq
    subst heq
    refine find?_eq_none_iff.mpr fun e he => ?_
    simpa using (List.mem_filter.mp he).2
  · rename_i hne
    cases h : m.find? k' with
    | none =>
        refine find?_eq_none_iff.mpr fun e he => ?_
        exact find?_eq_none_iff.mp h e (List.mem_filter.mp he).1
    | some v =>
        refine find?_eq_some_iff.mpr (List.mem_filter.mpr ⟨find?_eq_some_iff.mp h, ?_⟩)
        simpa using hne

theorem find?_emplace (m : OrdMap κ ν) (k k' : κ) (v : ν) :
    (m.emplace k v).find? k' = if k' = k then some ((m.find? k).getD v) else m.find? k' := by
  unfold emplace contains
  cases h : m.find? k with
  | none => simp
  | some v' =>
      simp only [Option.isSome_some, if_true, Option.getD_some]
      split
      · rename_i heq
        rw [heq, h]
      · rfl

/-- Maps with the same entries in some order are equal. -/
theorem eq_of_entries_perm {m n : OrdMap κ ν} (h : m.entries.Perm n.entries) : m = n := by
  refine eq_of_entries_eq (List.Perm.eq_of_pairwise ?_ m.sorted n.sorted h)
  exact fun a b _ _ hab hba => absurd hab (not_lt.mpr hba.le)

/-- Maps with equal lookups are equal. -/
theorem ext {m n : OrdMap κ ν} (h : ∀ k, m.find? k = n.find? k) : m = n := by
  have hmem : ∀ e, e ∈ m.entries ↔ e ∈ n.entries := by
    rintro ⟨k, v⟩
    rw [← find?_eq_some_iff, ← find?_eq_some_iff, h]
  have hirrefl : ∀ a : κ × ν, ¬ a.1 < a.1 := fun a => lt_irrefl _
  have hnodup : ∀ m : OrdMap κ ν, m.entries.Nodup := fun m =>
    m.sorted.imp (fun {a b} hab => by
      intro heq
      subst heq
      exact hirrefl a hab)
  exact eq_of_entries_perm ((List.perm_ext_iff_of_nodup (hnodup m) (hnodup n)).mpr hmem)

/-! ### Scans -/

/-- In an ascending list, what stands from the first value that is not below `n` on and equals `n`
is everything that equals `n`. -/
theorem takeWhile_dropWhile_eq_filter {α β : Type} [LinearOrder β] [DecidableEq β] {f : α → β}
    {l : List α}
    (h : l.Pairwise fun a b => f a ≤ f b) (n : β) :
    (l.dropWhile fun a => f a < n).takeWhile (fun a => f a = n) = l.filter fun a => f a = n := by
  induction l with
  | nil => rfl
  | cons a rest ih =>
      obtain ⟨hhead, hrest⟩ := List.pairwise_cons.mp h
      by_cases hlt : f a < n
      · rw [List.dropWhile_cons_of_pos (by simpa using hlt),
          List.filter_cons_of_neg (by simpa using hlt.ne)]
        exact ih hrest
      · have hstay : (rest.dropWhile fun b => f b < n) = rest := by
          refine List.dropWhile_eq_self_iff.mpr fun hpos => ?_
          have hle := hhead _ (List.getElem_mem hpos)
          simpa using (not_lt.mp hlt).trans hle
        rw [List.dropWhile_cons_of_neg (by simpa using hlt)]
        by_cases heq : f a = n
        · have hsame := ih hrest
          rw [hstay] at hsame
          rw [List.takeWhile_cons_of_pos (by simpa using heq),
            List.filter_cons_of_pos (by simpa using heq), hsame]
        · -- Every later value is above `n` as well.
          have habove : n < f a := lt_of_le_of_ne (not_lt.mp hlt) (Ne.symm heq)
          rw [List.takeWhile_cons_of_neg (by simpa using heq),
            List.filter_cons_of_neg (by simpa using heq)]
          refine (List.filter_eq_nil_iff.mpr fun b hb => ?_).symm
          simpa using (habove.trans_le (hhead b hb)).ne'

/-- A scan from the least key of a group of neighbouring keys finds the entries of the group. -/
theorem lowerBound_takeWhile {α : Type} [LinearOrder α] [DecidableEq α] {f : κ → α} (hmono : Monotone f)
    {lower : κ} {n : α} (hlower : ∀ k, k < lower ↔ f k < n) (m : OrdMap κ ν) :
    (m.lowerBound lower).takeWhile (fun e => f e.1 = n) = m.entries.filter fun e => f e.1 = n := by
  have hdrop : m.lowerBound lower = m.entries.dropWhile fun e => f e.1 < n := by
    unfold lowerBound
    simp only [hlower]
  rw [hdrop]
  have hsorted : m.entries.Pairwise fun a b => f a.1 ≤ f b.1 :=
    m.sorted.imp fun hab => hmono hab.le
  exact takeWhile_dropWhile_eq_filter hsorted n

/-! ### Entries up to permutation -/

theorem nodup_keys (m : OrdMap κ ν) : m.keys.Nodup := by
  unfold keys
  rw [List.Nodup, List.pairwise_map]
  exact m.sorted.imp fun h => ne_of_lt h

theorem erase_of_find?_none {m : OrdMap κ ν} {k : κ} (h : m.find? k = none) : m.erase k = m := by
  apply ext
  intro k'
  rw [find?_erase]
  split
  · rename_i heq
    rw [heq, h]
  · rfl

@[simp] theorem erase_insert (m : OrdMap κ ν) (k : κ) (v : ν) :
    (m.insert k v).erase k = m.erase k := by
  apply ext
  intro k'
  rw [find?_erase, find?_erase, find?_insert]
  split
  · rfl
  · rfl

theorem insertList_perm (k : κ) (v : ν) {l : List (κ × ν)}
    (h : l.Pairwise (fun a b => a.1 < b.1)) :
    (insertList k v l).Perm ((k, v) :: l.filter (fun e => e.1 ≠ k)) := by
  induction l with
  | nil => simp [insertList]
  | cons e rest ih =>
      obtain ⟨k', v'⟩ := e
      obtain ⟨hhead, htail⟩ := List.pairwise_cons.mp h
      rw [insertList]
      split
      · rename_i hlt
        have hkeep : List.filter (fun e => decide (e.1 ≠ k)) ((k', v') :: rest) = (k', v') :: rest := by
          refine List.filter_eq_self.mpr fun a ha => ?_
          have hk : k < a.1 := by
            rcases List.mem_cons.mp ha with rfl | ha
            · exact hlt
            · exact hlt.trans (hhead a ha)
          simpa using ne_of_gt hk
        rw [hkeep]
      · split
        · rename_i heq
          subst heq
          have hkeep : List.filter (fun e => decide (e.1 ≠ k)) rest = rest := by
            refine List.filter_eq_self.mpr fun a ha => ?_
            simpa using ne_of_gt (hhead a ha)
          rw [List.filter_cons_of_neg (by simp), hkeep]
        · rename_i hne
          rw [List.filter_cons_of_pos (by simpa using Ne.symm hne)]
          exact ((ih htail).cons _).trans (List.Perm.swap _ _ _)

/-- After an insertion the entries are the new one and the entries of the other keys. -/
theorem insert_entries_perm (m : OrdMap κ ν) (k : κ) (v : ν) :
    (m.insert k v).entries.Perm ((k, v) :: (m.erase k).entries) :=
  insertList_perm k v m.sorted

/-- An entry splits off the entry list. -/
theorem entries_perm_cons_erase {m : OrdMap κ ν} {k : κ} {v : ν} (h : m.find? k = some v) :
    m.entries.Perm ((k, v) :: (m.erase k).entries) := by
  have hself : m.insert k v = m := by
    apply ext
    intro k'
    rw [find?_insert]
    split
    · rename_i heq
      rw [heq, h]
    · rfl
  have hp := insert_entries_perm m k v
  rwa [hself] at hp

theorem insert_entries_perm_of_none {m : OrdMap κ ν} {k : κ} (h : m.find? k = none) (v : ν) :
    (m.insert k v).entries.Perm ((k, v) :: m.entries) := by
  have hp := insert_entries_perm m k v
  rwa [erase_of_find?_none h] at hp

/-- An entry in the middle of a permuted entry list is erased from there. -/
theorem erase_entries_perm {m : OrdMap κ ν} {k : κ} {v : ν} {before after : List (κ × ν)}
    (h : m.entries.Perm (before ++ (k, v) :: after)) :
    (m.erase k).entries.Perm (before ++ after) := by
  have hmem : (k, v) ∈ m.entries := h.mem_iff.mpr (by simp)
  have hsplit := entries_perm_cons_erase (find?_eq_some_iff.mpr hmem)
  exact ((hsplit.symm.trans h).trans List.perm_middle).cons_inv

section

variable {β : Type} (f : κ × ν → List β)

/-- What is listed over all entries after an insertion: the new entry's part and the parts of
the other keys. -/
theorem flatMap_insert_perm (m : OrdMap κ ν) (k : κ) (v : ν) :
    ((m.insert k v).entries.flatMap f).Perm (f (k, v) ++ (m.erase k).entries.flatMap f) := by
  have h := (insert_entries_perm m k v).flatMap_right f
  rwa [List.flatMap_cons] at h

/-- The part of one key splits off, when the key has an entry. -/
theorem flatMap_perm_of_some {m : OrdMap κ ν} {k : κ} {v : ν} (h : m.find? k = some v) :
    (m.entries.flatMap f).Perm (f (k, v) ++ (m.erase k).entries.flatMap f) := by
  have hp := (entries_perm_cons_erase h).flatMap_right f
  rwa [List.flatMap_cons] at hp

end

@[simp] theorem size_empty : (empty : OrdMap κ ν).size = 0 := rfl

theorem size_erase_of_some {m : OrdMap κ ν} {k : κ} {v : ν} (h : m.find? k = some v) :
    (m.erase k).size + 1 = m.size := by
  have hp := (entries_perm_cons_erase h).length_eq
  simpa [size] using hp.symm

theorem size_insert_of_none {m : OrdMap κ ν} {k : κ} (h : m.find? k = none) (v : ν) :
    (m.insert k v).size = m.size + 1 := by
  have hp := (insert_entries_perm_of_none h v).length_eq
  simpa [size] using hp

theorem size_insert_of_some {m : OrdMap κ ν} {k : κ} {v : ν} (h : m.find? k = some v) (v' : ν) :
    (m.insert k v').size = m.size := by
  have h1 := (insert_entries_perm m k v').length_eq
  have h2 := (entries_perm_cons_erase h).length_eq
  simp only [List.length_cons] at h1 h2
  simp only [size]
  omega

/-- An insertion adds at most one entry. -/
theorem size_insert_le (m : OrdMap κ ν) (k : κ) (v : ν) : (m.insert k v).size ≤ m.size + 1 := by
  cases h : m.find? k with
  | none => exact le_of_eq (size_insert_of_none h v)
  | some w => exact (size_insert_of_some h v).le.trans (Nat.le_succ _)

theorem size_emplace_le {m : OrdMap κ ν} {k : κ} {v : ν} {bound : Nat} (h : m.size < bound) :
    (m.emplace k v).size ≤ bound := by
  unfold emplace
  split
  · exact h.le
  · exact (size_insert_le m k v).trans h

theorem emplace_of_new {m : OrdMap κ ν} {k : κ} {v : ν} (h : m.find? k = none) :
    m.emplace k v = m.insert k v := by
  unfold emplace contains
  rw [h]
  rfl

theorem mem_values_emplace {m : OrdMap κ ν} {k : κ} {v w : ν}
    (h : w ∈ (m.emplace k v).values) : w = v ∨ w ∈ m.values := by
  obtain ⟨e, he, rfl⟩ := List.mem_map.mp h
  unfold emplace at he
  split at he
  · exact Or.inr (List.mem_map_of_mem he)
  · rcases mem_insert he with rfl | he
    · exact Or.inl rfl
    · exact Or.inr (List.mem_map_of_mem he)

theorem values_insert_perm {m : OrdMap κ ν} {k : κ} {v : ν} (h : m.find? k = none) :
    (m.insert k v).values.Perm (v :: m.values) :=
  (insert_entries_perm_of_none h v).map Prod.snd

/-- The least key comes first: no entry has a smaller key than the front entry. -/
theorem front?_le {m : OrdMap κ ν} {k : κ} {v : ν} (h : m.front? = some (k, v)) :
    (k, v) ∈ m.entries ∧ ∀ e ∈ m.entries, k ≤ e.1 := by
  unfold front? at h
  cases hm : m.entries with
  | nil => rw [hm] at h; simp at h
  | cons e rest =>
      rw [hm] at h
      simp only [List.head?_cons, Option.some.injEq] at h
      subst h
      have hs := m.sorted
      rw [hm] at hs
      refine ⟨List.mem_cons_self, fun a ha => ?_⟩
      rcases List.mem_cons.mp ha with rfl | ha
      · exact le_refl _
      · exact ((List.pairwise_cons.mp hs).1 a ha).le

theorem front?_isSome_of_size_pos {m : OrdMap κ ν} (h : 0 < m.size) : ∃ e, m.front? = some e := by
  unfold front?
  cases hm : m.entries with
  | nil => simp [size, hm] at h
  | cons e rest => exact ⟨e, rfl⟩

/-! ### Loops over the entries -/

/-- The loop over the entries in key order. Each step sees the state the earlier steps left
and gives the new state and the new value of its entry. -/
def mapAccumList {σ : Type} (f : σ → κ → ν → σ × ν) : σ → List (κ × ν) → σ × List (κ × ν)
  | s, [] => (s, [])
  | s, (k, v) :: rest =>
    let (s', v') := f s k v
    let (s'', rest') := mapAccumList f s' rest
    (s'', (k, v') :: rest')

omit [LinearOrder κ] in
theorem mapAccumList_cons {σ : Type} (f : σ → κ → ν → σ × ν) (s : σ) (k : κ) (v : ν)
    (rest : List (κ × ν)) :
    mapAccumList f s ((k, v) :: rest)
      = ((mapAccumList f (f s k v).1 rest).1,
         (k, (f s k v).2) :: (mapAccumList f (f s k v).1 rest).2) := rfl

omit [LinearOrder κ] in
theorem mapAccumList_keys {σ : Type} (f : σ → κ → ν → σ × ν) (s : σ) (l : List (κ × ν)) :
    (mapAccumList f s l).2.map Prod.fst = l.map Prod.fst := by
  induction l generalizing s with
  | nil => rfl
  | cons e rest ih =>
      obtain ⟨k, v⟩ := e
      simp [mapAccumList_cons, ih]

omit [LinearOrder κ] in
/-- A relation between each value and its replacement holds between the entries of the loop. -/
theorem mapAccumList_related {σ : Type} {f : σ → κ → ν → σ × ν} {R : ν → ν → Prop}
    (h : ∀ s k v, R v (f s k v).2) (s : σ) (l : List (κ × ν)) :
    ∀ e ∈ (mapAccumList f s l).2, ∃ v, (e.1, v) ∈ l ∧ R v e.2 := by
  induction l generalizing s with
  | nil =>
      intro e he
      cases he
  | cons entry rest ih =>
      obtain ⟨k, v⟩ := entry
      intro e he
      rw [mapAccumList_cons] at he
      rcases List.mem_cons.mp he with rfl | he
      · exact ⟨v, List.mem_cons_self, h s k v⟩
      · obtain ⟨v', hv', hR⟩ := ih _ e he
        exact ⟨v', List.mem_cons_of_mem _ hv', hR⟩

omit [LinearOrder κ] in
/-- What each step keeps holds of the state at the end of the loop. -/
theorem mapAccumList_keeps {σ : Type} {f : σ → κ → ν → σ × ν} {P : σ → Prop}
    (h : ∀ s k v, P s → P (f s k v).1) {s : σ} (hs : P s) (l : List (κ × ν)) :
    P (mapAccumList f s l).1 := by
  induction l generalizing s with
  | nil => exact hs
  | cons entry rest ih => exact ih (h s entry.1 entry.2 hs)

theorem pairwise_fst_iff {l : List (κ × ν)} :
    l.Pairwise (fun a b => a.1 < b.1) ↔ (l.map Prod.fst).Pairwise (· < ·) := by
  rw [List.pairwise_map]

/-- `mapAccumList` on a map: the keys and their order stay. -/
def mapAccum {σ : Type} (f : σ → κ → ν → σ × ν) (s : σ) (m : OrdMap κ ν) : σ × OrdMap κ ν :=
  ((mapAccumList f s m.entries).1,
   ⟨(mapAccumList f s m.entries).2, by
      rw [pairwise_fst_iff, mapAccumList_keys]
      exact pairwise_fst_iff.mp m.sorted⟩)

theorem mapAccum_keys {σ : Type} (f : σ → κ → ν → σ × ν) (s : σ) (m : OrdMap κ ν) :
    (mapAccum f s m).2.keys = m.keys :=
  mapAccumList_keys f s m.entries

theorem mapAccum_size {σ : Type} (f : σ → κ → ν → σ × ν) (s : σ) (m : OrdMap κ ν) :
    (mapAccum f s m).2.size = m.size := by
  have h := congrArg List.length (mapAccum_keys f s m)
  simpa [keys, size] using h

/-- The map with each value rewritten. -/
def mapValues {ν' : Type} (f : κ → ν → ν') (m : OrdMap κ ν) : OrdMap κ ν' :=
  ⟨m.entries.map (fun e => (e.1, f e.1 e.2)), by
    rw [pairwise_fst_iff, List.map_map]
    exact pairwise_fst_iff.mp m.sorted⟩

/-- A loop whose values do not depend on the state it threads rewrites each value. -/
theorem mapAccum_values {σ : Type} {f : σ → κ → ν → σ × ν} {g : κ → ν → ν}
    (h : ∀ s k v, (f s k v).2 = g k v) (s : σ) (m : OrdMap κ ν) :
    (mapAccum f s m).2 = m.mapValues g := by
  refine eq_of_entries_eq ?_
  show (mapAccumList f s m.entries).2 = m.entries.map fun e => (e.1, g e.1 e.2)
  induction m.entries generalizing s with
  | nil => rfl
  | cons e rest ih =>
      obtain ⟨k, v⟩ := e
      rw [mapAccumList_cons, ih, h]
      rfl

theorem lookupList_map {ν' : Type} (f : κ → ν → ν') (k : κ) (l : List (κ × ν)) :
    lookupList k (l.map (fun e => (e.1, f e.1 e.2))) = (lookupList k l).map (f k) := by
  induction l with
  | nil => rfl
  | cons e rest ih =>
      obtain ⟨k', v⟩ := e
      simp only [List.map_cons, lookupList]
      split
      · rename_i heq
        simp [heq]
      · exact ih

theorem find?_mapValues {ν' : Type} (f : κ → ν → ν') (m : OrdMap κ ν) (k : κ) :
    (m.mapValues f).find? k = (m.find? k).map (f k) :=
  lookupList_map f k m.entries

theorem mapValues_emplace (f : κ → ν → ν) (m : OrdMap κ ν) (k : κ) (v : ν) :
    (m.emplace k v).mapValues f = (m.mapValues f).emplace k (f k v) := by
  apply ext
  intro n
  rw [find?_mapValues, find?_emplace, find?_emplace, find?_mapValues, find?_mapValues]
  by_cases h : n = k
  · rw [if_pos h, if_pos h, h]
    cases m.find? k <;> rfl
  · rw [if_neg h, if_neg h]

theorem mapValues_insert {ν' : Type} (f : κ → ν → ν') (m : OrdMap κ ν) (k : κ) (v : ν) :
    (m.insert k v).mapValues f = (m.mapValues f).insert k (f k v) := by
  apply ext
  intro n
  rw [find?_mapValues, find?_insert, find?_insert, find?_mapValues]
  by_cases h : n = k
  · rw [if_pos h, if_pos h, h]
    rfl
  · rw [if_neg h, if_neg h]

theorem contains_mapValues {ν' : Type} (f : κ → ν → ν') (m : OrdMap κ ν) (k : κ) :
    (m.mapValues f).contains k = m.contains k := by
  simp [contains, find?_mapValues]

@[simp] theorem size_mapValues {ν' : Type} (f : κ → ν → ν') (m : OrdMap κ ν) :
    (m.mapValues f).size = m.size := by
  simp [size, mapValues]

/-- Mapping the values changes nothing exactly when it changes no value. -/
theorem mapValues_eq_self_iff (f : κ → ν → ν) (m : OrdMap κ ν) :
    m.mapValues f = m ↔ ∀ e ∈ m.entries, f e.1 e.2 = e.2 := by
  constructor
  · intro h e he
    have hentries : m.entries.map (fun e => (e.1, f e.1 e.2)) = m.entries.map id := by
      rw [List.map_id]
      exact congrArg OrdMap.entries h
    exact congrArg Prod.snd (List.map_inj_left.mp hentries e he)
  · intro h
    apply eq_of_entries_eq
    show m.entries.map (fun e => (e.1, f e.1 e.2)) = m.entries
    conv => rhs; rw [← List.map_id m.entries]
    exact List.map_congr_left fun e he => Prod.ext rfl (h e he)

/-! ### The map of a list of values -/

section

variable (key : ν → κ)

/-- The listed values, each under its own key. -/
def ofValues (l : List ν) : OrdMap κ ν := l.foldl (fun m v => m.emplace (key v) v) empty

theorem ofValues_append (l : List ν) (v : ν) :
    ofValues key (l ++ [v]) = (ofValues key l).emplace (key v) v := by
  rw [ofValues, List.foldl_append]
  rfl

theorem mem_entries_ofValues {l : List ν} {e : κ × ν} (h : e ∈ (ofValues key l).entries) :
    key e.2 = e.1 ∧ e.2 ∈ l := by
  induction l using List.reverseRecOn with
  | nil => cases h
  | append_singleton l v ih =>
      rw [ofValues_append] at h
      unfold emplace at h
      split at h
      · exact ⟨(ih h).1, List.mem_append_left _ (ih h).2⟩
      · rcases mem_insert h with rfl | h
        · exact ⟨rfl, by simp⟩
        · exact ⟨(ih h).1, List.mem_append_left _ (ih h).2⟩

/-- The values come out in the order of their keys. -/
theorem pairwise_values_ofValues (l : List ν) :
    (ofValues key l).values.Pairwise fun v w => key v < key w := by
  rw [values, List.pairwise_map]
  refine (ofValues key l).sorted.imp_of_mem fun {e f} he hf hlt => ?_
  rwa [(mem_entries_ofValues key he).1, (mem_entries_ofValues key hf).1]

/-- The map of a list of values has the keys of the list. -/
theorem mem_keys_ofValues (l : List ν) (k : κ) :
    k ∈ (ofValues key l).keys ↔ k ∈ l.map key := by
  induction l using List.reverseRecOn with
  | nil => exact Iff.rfl
  | append_singleton l v ih =>
      rw [← not_iff_not, ← find?_eq_none_iff_keys] at ih ⊢
      rw [ofValues_append, find?_emplace, List.map_append, List.mem_append]
      by_cases hkey : k = key v
      · simp [hkey]
      · rw [if_neg hkey, ih]
        simp [hkey]

/-- No value is lost when the key tells them apart. -/
theorem mem_values_ofValues_iff (hkey : Function.Injective key) {l : List ν} {v : ν} :
    v ∈ (ofValues key l).values ↔ v ∈ l := by
  constructor
  · intro h
    obtain ⟨e, he, rfl⟩ := List.mem_map.mp h
    exact (mem_entries_ofValues key he).2
  · intro h
    have hmem := (mem_keys_ofValues key l (key v)).mpr (List.mem_map_of_mem h)
    obtain ⟨e, he, hname⟩ := List.mem_map.mp hmem
    have hsame : e.2 = v := hkey ((mem_entries_ofValues key he).1.trans hname)
    exact List.mem_map.mpr ⟨e, he, hsame⟩

theorem ofValues_entries_perm {l : List ν} (h : (l.map key).Nodup) :
    (ofValues key l).entries.Perm (l.map fun v => (key v, v)) := by
  -- The induction takes the last value off, as the fold does.
  induction l using List.reverseRecOn with
  | nil => exact List.Perm.refl _
  | append_singleton l v ih =>
      rw [List.map_append, List.nodup_append] at h
      have hnew : (ofValues key l).find? (key v) = none := by
        rw [find?_eq_none_iff]
        intro e he
        obtain ⟨w, hw, rfl⟩ := List.mem_map.mp ((ih h.1).mem_iff.mp he)
        exact h.2.2 _ (List.mem_map_of_mem hw) _ (by simp)
      have hemplace : (ofValues key l).emplace (key v) v = (ofValues key l).insert (key v) v := by
        simp [emplace, contains, hnew]
      rw [ofValues_append, hemplace, List.map_append]
      have hperm := (insert_entries_perm_of_none hnew v).trans ((ih h.1).cons _)
      exact hperm.trans (List.perm_append_singleton _ _).symm

/-- A map whose values know their keys is the map of its values. -/
theorem ofValues_values {m : OrdMap κ ν} (h : ∀ e ∈ m.entries, key e.2 = e.1) :
    ofValues key m.values = m := by
  have hentries : (m.values.map fun v => (key v, v)) = m.entries := by
    rw [values, List.map_map]
    refine (List.map_congr_left fun e he => ?_).trans (List.map_id _)
    show (key e.2, e.2) = e
    rw [h e he]
  have hkeys : m.values.map key = m.keys := by
    rw [values, keys, List.map_map]
    exact List.map_congr_left h
  have hperm := ofValues_entries_perm key (hkeys ▸ m.nodup_keys)
  rw [hentries] at hperm
  exact eq_of_entries_perm hperm

end

end OrdMap

end Lib
