import CongestionObservatory.Lib.Run
import Mathlib.Logic.Function.Basic

/-!
# `CongestionObservatory.Lib.Interleaving`: parties around a shared state

Each party has a state of its own, and all of them work on a shared state. In a turn of a party its
own state and the shared state change; in any other turn the shared state alone. A run is a list of
turns, so a statement about every list of turns is one about every interleaving. What happens to the
shared state is kept in a history, with the party that did it.

`own_run` is the invariant rule for one party: a property of its state and of its part of the
history holds in every run, when each turn of the party keeps it. `own_eventually` is the rule for
infinite runs: a party that descends, and is not left where it is forever, arrives.
-/

set_option autoImplicit false

namespace Lib

/-- The parties, the shared state, and what happened to it. -/
structure Parties (ι τ σ ε : Type) where
  own : ι → τ
  shared : σ
  history : List (Option ι × ε) := []

/-- A turn of a party, or something else that happens to the shared state. -/
inductive Turn (ι α β : Type) where
  | party (i : ι) (action : α)
  | other (action : β)

namespace Parties

variable {ι τ σ ε α β : Type} [DecidableEq ι] (act : τ → σ → α → τ × σ × List ε)
  (other : σ → β → σ × List ε)

/-- One turn. -/
def step (m : Parties ι τ σ ε) : Turn ι α β → Unit × Parties ι τ σ ε
  | .party i action =>
    let (own, shared, events) := act (m.own i) m.shared action
    ((), { own := Function.update m.own i own
           shared := shared
           history := m.history ++ events.map fun event => (some i, event) })
  | .other action =>
    let (shared, events) := other m.shared action
    ((), { m with
           shared := shared
           history := m.history ++ events.map fun event => (none, event) })

/-- The part of a party in the history. -/
def eventsOf (m : Parties ι τ σ ε) (i : ι) : List ε :=
  m.history.filterMap fun entry => if entry.1 = some i then some entry.2 else none

theorem eventsOf_append (history events : List (Option ι × ε)) (own : ι → τ) (shared : σ) (i : ι) :
    (⟨own, shared, history ++ events⟩ : Parties ι τ σ ε).eventsOf i
      = (⟨own, shared, history⟩ : Parties ι τ σ ε).eventsOf i
        ++ (⟨own, shared, events⟩ : Parties ι τ σ ε).eventsOf i := List.filterMap_append

/-- The events of a turn belong to the party whose turn it is. -/
theorem eventsOf_turn (events : List ε) (own : ι → τ) (shared : σ) (j : Option ι) (i : ι) :
    (⟨own, shared, events.map fun event => (j, event)⟩ : Parties ι τ σ ε).eventsOf i
      = if j = some i then events else [] := by
  rw [eventsOf, List.filterMap_map]
  by_cases h : j = some i
  · simp [h]
  · simp [h]

/-- The invariant rule for each party alone, with an invariant of the shared state that holds
throughout. -/
theorem own_run {Q : σ → Prop} (P : ι → τ → List ε → Prop)
    (hact : ∀ i t s action events, Q s → P i t events →
      P i (act t s action).1 (events ++ (act t s action).2.2))
    (hactQ : ∀ t s action, Q s → Q (act t s action).2.1)
    (hotherQ : ∀ s action, Q s → Q (other s action).1)
    {m : Parties ι τ σ ε} (hshared : Q m.shared) (hinit : ∀ i, P i (m.own i) (m.eventsOf i))
    (turns : List (Turn ι α β)) :
    Q (run (step act other) m turns).shared ∧
      ∀ i, P i ((run (step act other) m turns).own i)
        ((run (step act other) m turns).eventsOf i) := by
  refine run_induction (step act other)
    (fun m => Q m.shared ∧ ∀ i, P i (m.own i) (m.eventsOf i)) ⟨hshared, hinit⟩ ?_ turns
  rintro m turn ⟨hQ, h⟩
  cases turn with
  | party j action =>
      refine ⟨hactQ _ _ action hQ, fun i => ?_⟩
      have hevents : (step act other m (.party j action)).2.eventsOf i
          = m.eventsOf i ++ if some j = some i then (act (m.own j) m.shared action).2.2 else [] := by
        show (⟨_, _, m.history ++ _⟩ : Parties ι τ σ ε).eventsOf i = _
        rw [eventsOf_append, eventsOf_turn]
        rfl
      rw [hevents]
      by_cases hij : j = i
      · subst hij
        show P j (Function.update m.own j _ j) _
        rw [Function.update_self, if_pos rfl]
        exact hact j _ _ action _ hQ (h j)
      · show P i (Function.update m.own j _ i) _
        rw [Function.update_of_ne (Ne.symm hij), if_neg fun heq => hij (Option.some.inj heq),
          List.append_nil]
        exact h i
  | other action =>
      refine ⟨hotherQ _ action hQ, fun i => ?_⟩
      have hevents : (step act other m (.other action)).2.eventsOf i = m.eventsOf i := by
        show (⟨_, _, m.history ++ _⟩ : Parties ι τ σ ε).eventsOf i = _
        rw [eventsOf_append, eventsOf_turn, if_neg (by simp), List.append_nil]
        rfl
      rw [hevents]
      exact h i

/-! ### Infinite runs -/

/-- The state after some turns of an infinite run. -/
def upTo (m : Parties ι τ σ ε) (turns : Nat → Turn ι α β) (n : Nat) : Parties ι τ σ ε :=
  run (step act other) m ((List.range n).map turns)

theorem upTo_succ (m : Parties ι τ σ ε) (turns : Nat → Turn ι α β) (n : Nat) :
    upTo act other m turns (n + 1) = (step act other (upTo act other m turns n) (turns n)).2 := by
  rw [upTo, List.range_succ, List.map_append, run_append]
  rfl

/-- A sequence that stays where it is or descends, and does not stay forever before it has a
property, gets it. -/
theorem eventually_of_descends {r : τ → τ → Prop} (hwf : WellFounded r) {P : τ → Prop}
    {x : Nat → τ} (hstep : ∀ n, x (n + 1) = x n ∨ r (x (n + 1)) (x n))
    (hfair : ∀ n, ¬ P (x n) → ∃ k, n ≤ k ∧ x (k + 1) ≠ x k) : ∃ n, P (x n) := by
  -- Up to any later place the sequence stayed or descended.
  have hlater : ∀ n d, x (n + d) = x n ∨ ∃ m, r (x m) (x n) := by
    intro n d
    induction d with
    | zero => exact Or.inl rfl
    | succ d ih =>
        rcases ih with hsame | hbelow
        · rcases hstep (n + d) with hstays | hdescends
          · exact Or.inl (hstays.trans hsame)
          · exact Or.inr ⟨n + d + 1, hsame ▸ hdescends⟩
        · exact Or.inr hbelow
  have hdescend : ∀ t n, x n = t → ∃ n, P (x n) := by
    intro t
    induction t using hwf.induction with
    | h t ih =>
        rintro n rfl
        by_cases hP : P (x n)
        · exact ⟨n, hP⟩
        · obtain ⟨k, hk, hmoves⟩ := hfair n hP
          obtain ⟨d, rfl⟩ := Nat.exists_eq_add_of_le hk
          obtain ⟨m, hm⟩ : ∃ m, r (x m) (x n) := by
            rcases hlater n d with hsame | hbelow
            · rcases hstep (n + d) with hstays | hdescends
              · exact absurd hstays hmoves
              · exact ⟨_, hsame ▸ hdescends⟩
            · exact hbelow
          exact ih (x m) hm m rfl
  exact hdescend (x 0) 0 rfl

/-- A party whose turns leave its state or descend, in any run, gets the property in an infinite run
that does not leave it where it is. -/
theorem own_eventually {r : τ → τ → Prop} (hwf : WellFounded r) {P : τ → Prop}
    (m : Parties ι τ σ ε) (i : ι)
    (hact : ∀ (turns : List (Turn ι α β)) action,
      let m' := run (step act other) m turns
      (act (m'.own i) m'.shared action).1 = m'.own i ∨
        r (act (m'.own i) m'.shared action).1 (m'.own i))
    (turns : Nat → Turn ι α β)
    (hfair : ∀ n, ¬ P ((upTo act other m turns n).own i) →
      ∃ k, n ≤ k ∧ (upTo act other m turns (k + 1)).own i ≠ (upTo act other m turns k).own i) :
    ∃ n, P ((upTo act other m turns n).own i) := by
  refine @eventually_of_descends τ r hwf P (fun n => (upTo act other m turns n).own i) ?_ hfair
  intro n
  rw [upTo_succ]
  cases turns n with
  | other action => exact Or.inl rfl
  | party j action =>
      have hown : (step act other (upTo act other m turns n) (.party j action)).2.own
          = Function.update (upTo act other m turns n).own j
            (act ((upTo act other m turns n).own j) (upTo act other m turns n).shared action).1 :=
        rfl
      rw [hown]
      by_cases hij : j = i
      · subst hij
        rw [Function.update_self]
        exact hact ((List.range n).map turns) action
      · rw [Function.update_of_ne (Ne.symm hij)]
        exact Or.inl rfl

end Parties

end Lib
