import Mathlib.Data.List.Induction
import Mathlib.Data.List.Perm.Basic
import CongestionObservatory.Lib.Run

/-!
# `CongestionObservatory.Lib.FirstFit`: first-fit placement

Elements arrive one by one. Each goes to the end of the first group that accepts it, or opens a
group of its own while there are fewer than `bound` groups, or is left out. A group accepts an
element by a test on what the group holds at that moment, so a group is `Formed` by a test when
each element but the first passed it against the elements before.

`place_cases` says what one placement can do and everything else follows from it: every group
is formed by the test that placed its elements (`formed_run`), the groups and what was left out
are the input (`exists_left`), and the groups are never too many.

A test may be weaker than it should be. `formed_run_iff` says when the groups of the weak test
are formed by the strong property: exactly when, in the placement that tests the property as
well, the group the weak test would pick has it at every step.
-/

set_option autoImplicit false

namespace Lib.FirstFit

variable {α : Type} (accepts : List α → α → Bool) (bound : Nat)

/-- The groups after the first one that accepts the element has taken it, if one does. -/
def offer (a : α) : List (List α) → Option (List (List α))
  | [] => none
  | g :: rest => if accepts g a then some ((g ++ [a]) :: rest) else (offer a rest).map (g :: ·)

/-- One placement. -/
def place (groups : List (List α)) (a : α) : List (List α) :=
  match offer accepts a groups with
  | some groups' => groups'
  | none => if groups.length < bound then groups ++ [[a]] else groups

/-- Placement as a step of a run. -/
def step (groups : List (List α)) (a : α) : Unit × List (List α) :=
  ((), place accepts bound groups a)

/-- Each element of the group but the first passed the test against the elements before it. -/
def Formed (test : List α → α → Prop) (g : List α) : Prop :=
  g ≠ [] ∧ ∀ before a after, g = before ++ a :: after → before ≠ [] → test before a

/-- The group the test picks for the element has the property. -/
def Picks (good : List α → α → Prop) (groups : List (List α)) (a : α) : Prop :=
  ∀ g, groups.find? (fun g => accepts g a) = some g → good g a

variable {accepts bound} {groups : List (List α)} {a : α}

/-! ### One placement -/

theorem offer_eq_none (h : offer accepts a groups = none) : ∀ g ∈ groups, accepts g a = false := by
  induction groups with
  | nil => simp
  | cons g rest ih =>
      cases hg : accepts g a with
      | true => simp [offer, hg] at h
      | false =>
          simp only [offer, hg, Bool.false_eq_true, if_false, Option.map_eq_none_iff] at h
          exact List.forall_mem_cons.mpr ⟨hg, ih h⟩

theorem offer_eq_some {groups' : List (List α)} (h : offer accepts a groups = some groups') :
    ∃ pre g post, groups = pre ++ g :: post ∧ (∀ g' ∈ pre, accepts g' a = false) ∧
      accepts g a = true ∧ groups' = pre ++ (g ++ [a]) :: post := by
  induction groups generalizing groups' with
  | nil => simp [offer] at h
  | cons g rest ih =>
      cases hg : accepts g a with
      | true =>
          simp only [offer, hg, if_true, Option.some.injEq] at h
          exact ⟨[], g, rest, rfl, by simp, hg, h.symm⟩
      | false =>
          simp only [offer, hg, Bool.false_eq_true, if_false, Option.map_eq_some_iff] at h
          obtain ⟨rest', hrest, rfl⟩ := h
          obtain ⟨pre, g', post, rfl, hpre, hg', rfl⟩ := ih hrest
          exact ⟨g :: pre, g', post, rfl, List.forall_mem_cons.mpr ⟨hg, hpre⟩, hg', rfl⟩

/-- What one placement can do. -/
theorem place_cases (accepts : List α → α → Bool) (bound : Nat) (groups : List (List α)) (a : α) :
    (∃ pre g post, groups = pre ++ g :: post ∧ (∀ g' ∈ pre, accepts g' a = false) ∧
      accepts g a = true ∧ place accepts bound groups a = pre ++ (g ++ [a]) :: post) ∨
    ((∀ g ∈ groups, accepts g a = false) ∧ groups.length < bound ∧
      place accepts bound groups a = groups ++ [[a]]) ∨
    ((∀ g ∈ groups, accepts g a = false) ∧ bound ≤ groups.length ∧
      place accepts bound groups a = groups) := by
  cases hoffer : offer accepts a groups with
  | some groups' =>
      obtain ⟨pre, g, post, hgroups, hpre, hg, rfl⟩ := offer_eq_some hoffer
      exact .inl ⟨pre, g, post, hgroups, hpre, hg, by simp only [place, hoffer]⟩
  | none =>
      have hnone := offer_eq_none hoffer
      by_cases hlength : groups.length < bound
      · exact .inr (.inl ⟨hnone, hlength, by simp only [place, hoffer, if_pos hlength]⟩)
      · exact .inr (.inr ⟨hnone, Nat.le_of_not_lt hlength,
          by simp only [place, hoffer, if_neg hlength]⟩)

/-- The group a test picks, from the place where it stands. -/
theorem find?_eq_some_of_split {pre post : List (List α)} {g : List α}
    (hpre : ∀ g' ∈ pre, accepts g' a = false) (hg : accepts g a = true) :
    (pre ++ g :: post).find? (fun g => accepts g a) = some g := by
  have hnone : pre.find? (fun g => accepts g a) = none :=
    List.find?_eq_none.mpr fun g' hg' => by simp [hpre g' hg']
  rw [List.find?_append, hnone, Option.none_or, List.find?_cons, hg]

/-! ### Formed groups -/

section Formed

variable {test : List α → α → Prop} {g : List α}

theorem formed_singleton (test : List α → α → Prop) (a : α) : Formed test [a] := by
  refine ⟨by simp, fun before b after hsplit hbefore => ?_⟩
  cases before with
  | nil => exact absurd rfl hbefore
  | cons c rest => simp at hsplit

theorem formed_append_iff (hg : g ≠ []) : Formed test (g ++ [a]) ↔ Formed test g ∧ test g a := by
  constructor
  · rintro ⟨-, hall⟩
    refine ⟨⟨hg, fun before b after hsplit hbefore => ?_⟩, hall g a [] rfl hg⟩
    exact hall before b (after ++ [a]) (by rw [hsplit]; simp) hbefore
  · rintro ⟨⟨-, hall⟩, hlast⟩
    refine ⟨by simp, fun before b after hsplit hbefore => ?_⟩
    -- The element at the split is either the new one or one of the old group.
    rcases List.eq_nil_or_concat after with rfl | ⟨after', c, rfl⟩
    · obtain ⟨rfl, hab⟩ := List.append_inj' hsplit rfl
      cases hab
      exact hlast
    · have hsplit' : g ++ [a] = (before ++ b :: after') ++ [c] := by
        rw [hsplit]
        simp
      obtain ⟨hold, -⟩ := List.append_inj' hsplit' rfl
      exact hall before b after' hold hbefore

/-- A test that compares with the first element says the same of every later element. -/
theorem Formed.of_head {first : α} {rest : List α} (h : Formed test (first :: rest)) {b : α}
    (hb : b ∈ rest) : ∃ before, test (first :: before) b := by
  obtain ⟨before, after, rfl⟩ := List.append_of_mem hb
  exact ⟨before, h.2 (first :: before) b after rfl (by simp)⟩

/-- A test that bounds the length of what an element joins bounds the group. -/
theorem Formed.length_le {cap : Nat} (hcap : 1 ≤ cap)
    (htest : ∀ before a, test before a → before.length < cap) (h : Formed test g) :
    g.length ≤ cap := by
  rcases List.eq_nil_or_concat g with rfl | ⟨before, b, rfl⟩
  · simp
  · by_cases hbefore : before = []
    · simpa [hbefore] using hcap
    · have hlt := htest before b (h.2 before b [] (by simp) hbefore)
      simp only [List.concat_eq_append, List.length_append, List.length_singleton]
      omega

/-- A test that looks at the first element only compares it with every later element. -/
theorem formed_head_iff {R : α → α → Prop} {first : α} {rest : List α} :
    Formed (fun before a => ∀ b ∈ before.head?, R b a) (first :: rest) ↔ ∀ a ∈ rest, R first a := by
  constructor
  · intro hformed a ha
    obtain ⟨before, htest⟩ := hformed.of_head ha
    exact htest first rfl
  · intro hall
    refine ⟨List.cons_ne_nil _ _, fun before a after hsplit hbefore b hb => ?_⟩
    cases before with
    | nil => exact absurd rfl hbefore
    | cons c before' =>
        obtain ⟨rfl, hrest⟩ := List.cons.inj hsplit
        cases hb
        exact hall a (by simp [hrest])

/-- A test that compares with every element before compares every two elements of the group, when
the comparison is reflexive and symmetric there. -/
theorem formed_forall_iff {R : α → α → Prop} (hrefl : ∀ a ∈ g, R a a)
    (hsymm : ∀ a ∈ g, ∀ b ∈ g, R a b → R b a) (hg : g ≠ []) :
    Formed (fun before a => ∀ b ∈ before, R b a) g ↔ ∀ a ∈ g, ∀ b ∈ g, R a b := by
  constructor
  · rintro ⟨-, hall⟩ a ha b hb
    obtain ⟨before, after, hsplit⟩ := List.append_of_mem ha
    have hb' := hb
    rw [hsplit] at hb'
    -- The second element stands before the first one, is the first one, or stands after it.
    rcases List.mem_append.mp hb' with hbefore | hafter
    · exact hsymm b hb a ha (hall before a after hsplit (List.ne_nil_of_mem hbefore) b hbefore)
    · rcases List.mem_cons.mp hafter with rfl | hafter
      · exact hrefl b hb
      · obtain ⟨between, after', rfl⟩ := List.append_of_mem hafter
        exact hall (before ++ a :: between) b after' (by simp [hsplit]) (by simp) a (by simp)
  · intro hall
    refine ⟨hg, fun before a after hsplit _ b hb => ?_⟩
    exact hall b (by simp [hsplit, hb]) a (by simp [hsplit])

/-- Two properties that say the same wherever the elements before have both form the same
groups. -/
theorem Formed.congr {good good' : List α → α → Prop}
    (h : ∀ before a after, g = before ++ a :: after → Formed good' before →
      (good before a ↔ good' before a)) : Formed good g ↔ Formed good' g := by
  induction g using List.reverseRecOn with
  | nil => exact ⟨fun hformed => absurd rfl hformed.1, fun hformed => absurd rfl hformed.1⟩
  | append_singleton g b ih =>
      by_cases hg : g = []
      · rw [hg]
        exact ⟨fun _ => formed_singleton good' b, fun _ => formed_singleton good b⟩
      · have hprefix : Formed good g ↔ Formed good' g :=
          ih fun before a after hsplit => h before a (after ++ [b]) (by rw [hsplit]; simp)
        rw [formed_append_iff hg, formed_append_iff hg, hprefix]
        exact and_congr_right fun hformed => h g b [] rfl hformed

end Formed

/-- A placement keeps the groups formed exactly when the group it picks has the property. -/
theorem formed_place_iff {good : List α → α → Prop} (hne : ∀ g ∈ groups, g ≠ []) :
    (∀ g ∈ place accepts bound groups a, Formed good g) ↔
      (∀ g ∈ groups, Formed good g) ∧ Picks accepts good groups a := by
  rcases place_cases accepts bound groups a with
    ⟨pre, g, post, rfl, hpre, hg, hplace⟩ | ⟨hnone, -, hplace⟩ | ⟨hnone, -, hplace⟩
  · have hfind := @find?_eq_some_of_split α accepts a pre post g hpre hg
    have hpick : Picks accepts good (pre ++ g :: post) a ↔ good g a :=
      ⟨fun h => h g hfind, fun h g' hg' => by
        rw [hfind] at hg'
        cases hg'
        exact h⟩
    rw [hplace, hpick]
    simp only [List.forall_mem_append, List.forall_mem_cons,
      formed_append_iff (hne g (by simp))]
    tauto
  all_goals
    have hpick : Picks accepts good groups a := by
      intro g hfind
      have hfalse := hnone g (List.mem_of_find?_eq_some hfind)
      have htrue := List.find?_some hfind
      simp only [hfalse, Bool.false_eq_true] at htrue
    rw [hplace]
    simp only [hpick, and_true, List.forall_mem_append, List.forall_mem_singleton, formed_singleton]

theorem ne_nil_place (h : ∀ g ∈ groups, g ≠ []) : ∀ g ∈ place accepts bound groups a, g ≠ [] := by
  rcases place_cases accepts bound groups a with
    ⟨pre, g, post, rfl, -, -, hplace⟩ | ⟨-, -, hplace⟩ | ⟨-, -, hplace⟩ <;> rw [hplace]
  · simp only [List.forall_mem_append, List.forall_mem_cons] at h ⊢
    exact ⟨h.1, by simp, h.2.2⟩
  · exact List.forall_mem_append.mpr ⟨h, by simp⟩
  · exact h

/-! ### Whole runs -/

variable {items : List α}

theorem length_run_le (h : groups.length ≤ bound) :
    (run (step accepts bound) groups items).length ≤ bound := by
  refine run_induction (step accepts bound) (fun groups => groups.length ≤ bound) h ?_ items
  intro groups a h
  show (place accepts bound groups a).length ≤ bound
  rcases place_cases accepts bound groups a with
    ⟨pre, g, post, rfl, -, -, hplace⟩ | ⟨-, hlength, hplace⟩ | ⟨-, -, hplace⟩ <;>
    rw [hplace]
  · simpa using h
  · rw [List.length_append, List.length_singleton]
    exact hlength
  · exact h

/-- Every group is formed by the test that placed its elements. -/
theorem formed_run {g : List α} (hg : g ∈ run (step accepts bound) [] items) :
    Formed (fun before a => accepts before a = true) g := by
  refine run_induction (step accepts bound)
    (fun groups => ∀ g ∈ groups, Formed (fun before a => accepts before a = true) g) (by simp) ?_
    items g hg
  intro groups a h
  refine (formed_place_iff fun g hg => (h g hg).1).mpr ⟨h, fun g hfind => ?_⟩
  exact @List.find?_some _ (fun g => accepts g a) g groups hfind

/-- A group holds its elements in the order of the input. -/
theorem sublist_run {g : List α} (hg : g ∈ run (step accepts bound) [] items) :
    g.Sublist items := by
  have h := @history_induction _ _ _ (step accepts bound) (fun _ _ => True)
    (fun history groups => ∀ g ∈ groups, g.Sublist (history.map Prod.fst)) [] (by simp) ?_ items
    (guarded_true _ _ _)
  · rw [trace_calls] at h
    exact h g hg
  · intro history groups a h _
    show ∀ g ∈ place accepts bound groups a, g.Sublist ((history ++ [(a, ())]).map Prod.fst)
    rw [List.map_append, List.map_singleton]
    have hold : ∀ g ∈ groups, g.Sublist (history.map Prod.fst ++ [a]) :=
      fun g hg => (h g hg).trans (List.sublist_append_left _ _)
    rcases place_cases accepts bound groups a with
      ⟨pre, g, post, rfl, -, -, hplace⟩ | ⟨-, -, hplace⟩ | ⟨-, -, hplace⟩ <;> rw [hplace]
    · simp only [List.forall_mem_append, List.forall_mem_cons] at h hold ⊢
      exact ⟨hold.1, h.2.1.append_right [a], hold.2.2⟩
    · refine List.forall_mem_append.mpr ⟨hold, List.forall_mem_singleton.mpr ?_⟩
      exact List.sublist_append_right _ _
    · exact hold

/-- The groups and the elements left out are the input. Elements are left out only when there
are as many groups as there may be. -/
theorem exists_left (accepts : List α → α → Bool) (bound : Nat) (items : List α) :
    ∃ left, ((run (step accepts bound) [] items).flatten ++ left).Perm items ∧
      (left ≠ [] → bound ≤ (run (step accepts bound) [] items).length) := by
  have h := @history_induction _ _ _ (step accepts bound) (fun _ _ => True)
    (fun history groups => ∃ left, (groups.flatten ++ left).Perm (history.map Prod.fst) ∧
      (left ≠ [] → bound ≤ groups.length)) [] ⟨[], by simp⟩ ?_ items
    (guarded_true _ _ _)
  · rwa [trace_calls] at h
  · rintro history groups a ⟨left, hperm, hfull⟩ -
    show ∃ left, ((place accepts bound groups a).flatten ++ left).Perm
      ((history ++ [(a, ())]).map Prod.fst) ∧
      (left ≠ [] → bound ≤ (place accepts bound groups a).length)
    have hlast : (history.map Prod.fst ++ [a]).Perm ((groups.flatten ++ left) ++ [a]) :=
      (hperm.append_right [a]).symm
    simp only [List.map_append, List.map_cons, List.map_nil]
    rcases place_cases accepts bound groups a with
      ⟨pre, g, post, rfl, -, -, hplace⟩ | ⟨-, -, hplace⟩ | ⟨-, hlength, hplace⟩ <;> rw [hplace]
    · refine ⟨left, List.Perm.trans ?_ hlast.symm, fun hne => by simpa using hfull hne⟩
      simp only [List.flatten_append, List.flatten_cons, List.append_assoc]
      refine List.Perm.append_left _ (List.Perm.append_left _ ?_)
      rw [← List.append_assoc post.flatten]
      exact List.perm_append_comm
    · refine ⟨left, List.Perm.trans ?_ hlast.symm, fun hne => ?_⟩
      · simp only [List.flatten_append, List.flatten_cons, List.flatten_nil, List.append_assoc,
          List.append_nil]
        exact List.Perm.append_left _ List.perm_append_comm
      · have := hfull hne
        rw [List.length_append]
        omega
    · refine ⟨left ++ [a], ?_, fun _ => hlength⟩
      rw [← List.append_assoc]
      exact hlast.symm

/-! ### A test that is too weak -/

section Weak

variable {good : List α → α → Prop} [∀ g a, Decidable (good g a)]

/-- The test that asks for the property as well. -/
def strict (accepts : List α → α → Bool) (good : List α → α → Prop)
    [∀ g a, Decidable (good g a)] (g : List α) (a : α) : Bool :=
  accepts g a && decide (good g a)

/-- Where the picked group has the property, both tests place the element alike. -/
theorem place_strict_eq (h : Picks accepts good groups a) :
    place (strict accepts good) bound groups a = place accepts bound groups a := by
  have hoffer : offer (strict accepts good) a groups = offer accepts a groups := by
    induction groups with
    | nil => rfl
    | cons g rest ih =>
        cases hg : accepts g a with
        | true =>
            have hgood : good g a := h g (List.find?_cons_of_pos hg)
            simp [offer, strict, hg, hgood]
        | false =>
            have hrest : Picks accepts good rest a := fun g' hfind => h g' (by
              rw [List.find?_cons_of_neg (by simp [hg])]
              exact hfind)
            simp [offer, strict, hg, ← ih hrest]
  rw [place, place, hoffer]

/-- Of two elements only the second meets a group, that of the first. -/
theorem guarded_pair {b : α} (h : good [a] b) :
    Guarded (step (strict accepts good) bound) (Picks accepts good) [] [a, b] := by
  refine ⟨fun g hg => ?_, fun g hg => ?_, trivial⟩
  · cases hg
  · have hfirst : place (strict accepts good) bound [] a = if 0 < bound then [[a]] else [] := rfl
    have hmem : g ∈ place (strict accepts good) bound [] a := List.mem_of_find?_eq_some hg
    rw [hfirst] at hmem
    split at hmem
    · rw [List.mem_singleton.mp hmem]
      exact h
    · cases hmem

omit [∀ g a, Decidable (good g a)] in
/-- A group only grows at its end, so what formed it at the end of a run formed it before. -/
theorem formed_of_formed_run (hne : ∀ g ∈ groups, g ≠ [])
    (h : ∀ g ∈ run (step accepts bound) groups items, Formed good g) :
    ∀ g ∈ groups, Formed good g := by
  induction items generalizing groups with
  | nil => exact h
  | cons a rest ih => exact ((formed_place_iff hne).mp (ih (ne_nil_place hne) h)).1

/-- The groups of a test are formed by a property exactly when the placement that asks for the
property meets, at every step, a picked group that has it. -/
theorem formed_run_iff (items : List α) :
    (∀ g ∈ run (step accepts bound) [] items, Formed good g) ↔
      Guarded (step (strict accepts good) bound) (Picks accepts good) [] items := by
  have hgen : ∀ (items : List α) (groups : List (List α)), (∀ g ∈ groups, Formed good g) →
      ((∀ g ∈ run (step accepts bound) groups items, Formed good g) ↔
        Guarded (step (strict accepts good) bound) (Picks accepts good) groups items) := by
    intro items
    induction items with
    | nil => exact fun groups h => ⟨fun _ => trivial, fun _ => h⟩
    | cons a rest ih =>
        intro groups h
        have hne : ∀ g ∈ groups, g ≠ [] := fun g hg => (h g hg).1
        have hplace := @formed_place_iff α accepts bound groups a good hne
        constructor
        · intro hall
          have hnext : ∀ g ∈ place accepts bound groups a, Formed good g :=
            formed_of_formed_run (ne_nil_place hne) hall
          have hpick := (hplace.mp hnext).2
          refine ⟨hpick, ?_⟩
          show Guarded _ _ (place (strict accepts good) bound groups a) rest
          rw [place_strict_eq hpick]
          exact (ih _ hnext).mp hall
        · rintro ⟨hpick, hrest⟩
          have hnext := hplace.mpr ⟨h, hpick⟩
          have hsame : Guarded (step (strict accepts good) bound) (Picks accepts good)
              (place (strict accepts good) bound groups a) rest := hrest
          rw [place_strict_eq hpick] at hsame
          exact (ih _ hnext).mpr hsame
  exact hgen items [] (by simp)

end Weak

end Lib.FirstFit
