import Mathlib.Logic.Basic
import Mathlib.Data.List.Basic

/-!
# `CongestionObservatory.Lib.Run`: runs of a component

A component with a state is a step function `σ → ι → ο × σ`: a call on a state gives a reply
and the next state. `run` is the state after a list of calls and `trace` pairs each call with
its reply. `Guarded` says that every call of a run meets a condition on the state it meets.

`history_induction` is the invariant rule the proofs use: a property of the history and the
state that holds at the start, and that each guarded call keeps, holds after every guarded run.
`run_induction` is the same rule for a property of the state alone. When a guarded call is
exactly one that keeps the property, `always_iff_guarded` says that the property holds in every
state of a run exactly when the run is guarded. `guarded_iff_guarded` compares two guards under an
invariant.

A component that models another one gives the same replies when their states stay related
(`trace_simulates`). A system of several components makes calls on each of them.
`exists_component_run` turns a run of the system into a run of one component, so the invariants of
the component hold in the system.

Some calls are meant to have no influence: their reply says so, and a run without them should go
the same way. `remaining` are the calls of a run without these. Two runs are compared through a
relation `R` between their states. When a guarded call keeps `R`, alone or in both runs, and a
call that is not guarded has another reply without its predecessors, the replies
are the same exactly when the run is guarded (`Erases.run` and `Erases.guarded`).
-/

set_option autoImplicit false

namespace Lib

section

variable {σ ι ο : Type} (step : σ → ι → ο × σ)

/-- The state after the calls. -/
def run : σ → List ι → σ
  | s, [] => s
  | s, i :: rest => run (step s i).2 rest

/-- The calls with their replies, in order. -/
def trace : σ → List ι → List (ι × ο)
  | _, [] => []
  | s, i :: rest => (i, (step s i).1) :: trace (step s i).2 rest

/-- Every call of the run meets the condition in the state it is made in. -/
def Guarded (guard : σ → ι → Prop) : σ → List ι → Prop
  | _, [] => True
  | s, i :: rest => guard s i ∧ Guarded guard (step s i).2 rest

/-- The invariant rule over histories. -/
theorem history_induction {guard : σ → ι → Prop} (P : List (ι × ο) → σ → Prop) {s₀ : σ}
    (hinit : P [] s₀)
    (hstep : ∀ h s i, P h s → guard s i → P (h ++ [(i, (step s i).1)]) (step s i).2)
    (calls : List ι) (hg : Guarded step guard s₀ calls) :
    P (trace step s₀ calls) (run step s₀ calls) := by
  -- The induction is on the remaining calls, for an arbitrary history already made.
  have hgen : ∀ (calls : List ι) (h : List (ι × ο)) (s : σ), P h s →
      Guarded step guard s calls → P (h ++ trace step s calls) (run step s calls) := by
    intro calls
    induction calls with
    | nil =>
        intro h s hP _
        rw [trace, List.append_nil]
        exact hP
    | cons i rest ih =>
        intro h s hP hguard
        have hnext := ih _ _ (hstep h s i hP hguard.1) hguard.2
        rw [List.append_assoc] at hnext
        exact hnext
  have h := hgen calls [] s₀ hinit hg
  rwa [List.nil_append] at h

theorem guarded_true (s : σ) (calls : List ι) : Guarded step (fun _ _ => True) s calls := by
  induction calls generalizing s with
  | nil => trivial
  | cons i rest ih => exact ⟨trivial, ih _⟩

/-- A condition on the call alone guards every run of such calls. -/
theorem guarded_of_forall {P : ι → Prop} (s : σ) {calls : List ι} (h : ∀ i ∈ calls, P i) :
    Guarded step (fun _ i => P i) s calls := by
  induction calls generalizing s with
  | nil => trivial
  | cons i rest ih =>
      exact ⟨h i List.mem_cons_self, ih _ fun j hj => h j (List.mem_cons_of_mem _ hj)⟩

/-- The invariant rule for a property of the state, over guarded runs. -/
theorem guarded_run_induction {guard : σ → ι → Prop} (P : σ → Prop) {s₀ : σ} (hinit : P s₀)
    (hstep : ∀ s i, P s → guard s i → P (step s i).2) (calls : List ι)
    (hg : Guarded step guard s₀ calls) : P (run step s₀ calls) :=
  history_induction step (fun _ s => P s) hinit (fun _ s i => hstep s i) calls hg

/-- The invariant rule for a property of the state. -/
theorem run_induction (P : σ → Prop) {s₀ : σ} (hinit : P s₀)
    (hstep : ∀ s i, P s → P (step s i).2) (calls : List ι) : P (run step s₀ calls) :=
  guarded_run_induction step P hinit (fun s i h _ => hstep s i h) calls (guarded_true step s₀ calls)

/-- Suppose a call keeps the property exactly when it meets the guard. Then the property holds
in every state of a run from a state that has it exactly when the run is guarded. -/
theorem always_iff_guarded {guard : σ → ι → Prop} (P : σ → Prop) (calls : List ι)
    (hstep : ∀ s, ∀ i ∈ calls, P s → (P (step s i).2 ↔ guard s i)) {s₀ : σ} (hinit : P s₀) :
    (∀ n, P (run step s₀ (calls.take n))) ↔ Guarded step guard s₀ calls := by
  induction calls generalizing s₀ with
  | nil =>
      refine ⟨fun _ => trivial, fun _ n => ?_⟩
      rw [List.take_nil]
      exact hinit
  | cons i rest ih =>
      have hhead := hstep s₀ i List.mem_cons_self hinit
      have hrest := fun s j hj => hstep s j (List.mem_cons_of_mem _ hj)
      constructor
      · intro halways
        have hnext : P (step s₀ i).2 := halways 1
        exact ⟨hhead.mp hnext, (ih hrest hnext).mp fun n => halways (n + 1)⟩
      · rintro ⟨hguard, htail⟩ n
        cases n with
        | zero => exact hinit
        | succ n => exact (ih hrest (hhead.mpr hguard)).mpr htail n

/-- Suppose that where the property holds two guards agree, and that a call they let pass keeps the
property. Then a run from a state that has it is guarded by both or by neither. -/
theorem guarded_iff_guarded {safe fits : σ → ι → Prop} (P : σ → Prop) (calls : List ι)
    (hagree : ∀ s, ∀ i ∈ calls, P s → (safe s i ↔ fits s i))
    (hkeep : ∀ s, ∀ i ∈ calls, P s → safe s i → P (step s i).2) {s₀ : σ} (hinit : P s₀) :
    Guarded step safe s₀ calls ↔ Guarded step fits s₀ calls := by
  induction calls generalizing s₀ with
  | nil => exact Iff.rfl
  | cons i rest ih =>
      have hhead := hagree s₀ i List.mem_cons_self hinit
      have htail := fun hsafe => @ih (fun s j hj => hagree s j (List.mem_cons_of_mem _ hj))
        (fun s j hj => hkeep s j (List.mem_cons_of_mem _ hj)) (step s₀ i).2
        (hkeep s₀ i List.mem_cons_self hinit hsafe)
      constructor
      · rintro ⟨hsafe, hrest⟩
        exact ⟨hhead.mp hsafe, (htail hsafe).mp hrest⟩
      · rintro ⟨hfits, hrest⟩
        exact ⟨hhead.mpr hfits, (htail (hhead.mpr hfits)).mpr hrest⟩

theorem run_append (s : σ) (calls calls' : List ι) :
    run step s (calls ++ calls') = run step (run step s calls) calls' := by
  induction calls generalizing s with
  | nil => rfl
  | cons i rest ih => exact ih (step s i).2

theorem trace_append (s : σ) (calls calls' : List ι) :
    trace step s (calls ++ calls') = trace step s calls ++ trace step (run step s calls) calls' := by
  induction calls generalizing s with
  | nil => rfl
  | cons i rest ih =>
      show (i, (step s i).1) :: trace step (step s i).2 (rest ++ calls') = _
      rw [ih]
      rfl

theorem trace_calls (s : σ) (calls : List ι) : (trace step s calls).map Prod.fst = calls := by
  induction calls generalizing s with
  | nil => rfl
  | cons i rest ih => rw [trace, List.map_cons, ih]

/-- The calls made early are among all calls. -/
theorem mem_trace_of_mem_take {s : σ} {calls : List ι} {n : Nat} {entry : ι × ο}
    (h : entry ∈ trace step s (calls.take n)) : entry ∈ trace step s calls := by
  rw [← List.take_append_drop n calls, trace_append]
  exact List.mem_append_left _ h

/-! ### Simulation -/

/-- Two components whose states are related step by step give the same replies, up to the words
they say them in. -/
theorem trace_simulates {τ μ : Type} {cstep : τ → ι → μ × τ} {R : σ → τ → Prop} {f : ο → μ}
    (h : ∀ s t i, R s t → f (step s i).1 = (cstep t i).1 ∧ R (step s i).2 (cstep t i).2)
    {s : σ} {t : τ} (hR : R s t) (calls : List ι) :
    (trace step s calls).map (fun entry => (entry.1, f entry.2)) = trace cstep t calls ∧
      R (run step s calls) (run cstep t calls) := by
  induction calls generalizing s t with
  | nil => exact ⟨rfl, hR⟩
  | cons i rest ih =>
      obtain ⟨hreply, hnext⟩ := h s t i hR
      obtain ⟨htrace, hrun⟩ := ih hnext
      refine ⟨?_, hrun⟩
      rw [trace, trace, List.map_cons, htrace, hreply]

/-! ### Components -/

/-- A component sees a run of the whole as a run of its own. Each call of the whole makes some
calls on the component, and `f` and `g` read the same observations off both histories. -/
theorem exists_component_run {τ κ μ α : Type} {cstep : τ → κ → μ × τ} {part : σ → τ}
    {f : ι × ο → Option α} {g : κ × μ → Option α} {P : κ → Prop}
    (h : ∀ s i, ∃ own, part (step s i).2 = run cstep (part s) own ∧
      (trace cstep (part s) own).filterMap g = (f (i, (step s i).1)).toList ∧ ∀ c ∈ own, P c)
    (s : σ) (calls : List ι) :
    ∃ own, part (run step s calls) = run cstep (part s) own ∧
      (trace cstep (part s) own).filterMap g = (trace step s calls).filterMap f ∧
      ∀ c ∈ own, P c := by
  induction calls generalizing s with
  | nil => exact ⟨[], rfl, rfl, fun c hc => absurd hc List.not_mem_nil⟩
  | cons i rest ih =>
      obtain ⟨first, hrun, htrace, hfirst⟩ := h s i
      obtain ⟨later, hrun', htrace', hlater⟩ := ih (step s i).2
      refine ⟨first ++ later, ?_, ?_, ?_⟩
      · rw [run_append, ← hrun]
        exact hrun'
      · rw [trace_append, List.filterMap_append, ← hrun, htrace, htrace']
        simp only [trace, List.filterMap_cons]
        cases f (i, (step s i).1) <;> rfl
      · intro c hc
        rcases List.mem_append.mp hc with hc | hc
        · exact hfirst c hc
        · exact hlater c hc

/-! ### Calls without influence -/

variable (silent : ο → Bool)

/-- The calls of a run whose replies are not silent. -/
def remaining (s : σ) (calls : List ι) : List ι :=
  ((trace step s calls).filter fun entry => !silent entry.2).map Prod.fst

theorem remaining_cons_silent {s : σ} {i : ι} (h : silent (step s i).1 = true) (rest : List ι) :
    remaining step silent s (i :: rest) = remaining step silent (step s i).2 rest := by
  simp [remaining, trace, h]

theorem remaining_cons_loud {s : σ} {i : ι} (h : silent (step s i).1 = false) (rest : List ι) :
    remaining step silent s (i :: rest) = i :: remaining step silent (step s i).2 rest := by
  simp [remaining, trace, h]

/-- How a guarded call acts on two states in the relation: a silent one keeps it alone, any other
one has the same reply on both and keeps it. -/
structure Erases (guard : σ → ι → Prop) (R : σ → σ → Prop) : Prop where
  alone : ∀ s t i, R s t → guard s i → silent (step s i).1 = true → R (step s i).2 t
  both : ∀ s t i, R s t → guard s i → silent (step s i).1 = false →
    (step t i).1 = (step s i).1 ∧ R (step s i).2 (step t i).2

variable {step silent} {guard : σ → ι → Prop} {R : σ → σ → Prop}

/-- Without its silent calls, a guarded run goes the same way. -/
theorem Erases.run (h : Erases step silent guard R) {s t : σ} (hR : R s t) (calls : List ι)
    (hg : Guarded step guard s calls) :
    trace step t (remaining step silent s calls)
        = (trace step s calls).filter (fun entry => !silent entry.2) ∧
      R (Lib.run step s calls) (Lib.run step t (remaining step silent s calls)) := by
  induction calls generalizing s t with
  | nil => exact ⟨rfl, hR⟩
  | cons i rest ih =>
      obtain ⟨hguard, hrest⟩ := hg
      cases hsilent : silent (step s i).1 with
      | true =>
          obtain ⟨htrace, hfinal⟩ := ih (h.alone s t i hR hguard hsilent) hrest
          rw [remaining_cons_silent step silent hsilent]
          exact ⟨by simp [htrace, trace, hsilent], hfinal⟩
      | false =>
          obtain ⟨hreply, hnext⟩ := h.both s t i hR hguard hsilent
          obtain ⟨htrace, hfinal⟩ := ih hnext hrest
          rw [remaining_cons_loud step silent hsilent]
          exact ⟨by simp [htrace, trace, hsilent, hreply], hfinal⟩

/-- When a call that is not guarded has another reply, a run with the same replies is guarded. -/
theorem Erases.guarded (h : Erases step silent guard R)
    (hdiffers : ∀ s t i, R s t → ¬ guard s i →
      silent (step s i).1 = false ∧ (step t i).1 ≠ (step s i).1)
    {s t : σ} (hR : R s t) (calls : List ι)
    (htrace : trace step t (remaining step silent s calls)
      = (trace step s calls).filter (fun entry => !silent entry.2)) :
    Guarded step guard s calls := by
  induction calls generalizing s t with
  | nil => trivial
  | cons i rest ih =>
      by_cases hguard : guard s i
      · cases hsilent : silent (step s i).1 with
        | true =>
            rw [remaining_cons_silent step silent hsilent] at htrace
            have hrest := ih (h.alone s t i hR hguard hsilent) (by simpa [trace, hsilent] using htrace)
            exact ⟨hguard, hrest⟩
        | false =>
            obtain ⟨-, hnext⟩ := h.both s t i hR hguard hsilent
            rw [remaining_cons_loud step silent hsilent] at htrace
            have hrest := ih hnext (by
              have hcons := htrace
              simp only [trace, List.filter_cons, hsilent] at hcons
              exact (List.cons.inj hcons).2)
            exact ⟨hguard, hrest⟩
      · obtain ⟨hsilent, hreply⟩ := hdiffers s t i hR hguard
        rw [remaining_cons_loud step silent hsilent] at htrace
        simp only [trace, List.filter_cons, hsilent] at htrace
        exact absurd (Prod.mk.inj (List.cons.inj htrace).1).2 hreply

end

end Lib
