import Mathlib.Logic.Basic
import Mathlib.Data.List.Basic

/-!
# `CongestionObservatory.Lib.Dialogue`: programs that wait for replies

A `Dialogue κ μ α` is a sequential program that makes calls. It is `done` with a value, or it makes
a `call` and goes on with the reply. `do` blocks are written with `ask`.

`after` is the program once some replies have arrived, and `asked` are the calls that these replies
answered. A program that waits has asked once for each reply (`length_asked`), and one more reply
answers the call it waits for (`after_concat`, `asked_concat`). `Quits final` says that the program
returns at once on a reply that is final for its call. `Follows` relates a program with what it goes
on with, and no program goes on forever (`wf_follows`).
-/

set_option autoImplicit false

namespace Lib

/-- A program that makes calls `κ`, gets replies `μ` and returns an `α`. -/
inductive Dialogue (κ μ α : Type) where
  | done (a : α)
  | call (request : κ) (rest : μ → Dialogue κ μ α)

namespace Dialogue

variable {κ μ α β : Type}

/-- The second program goes on with what the first one returns. -/
def bind : Dialogue κ μ α → (α → Dialogue κ μ β) → Dialogue κ μ β
  | done a, f => f a
  | call request rest, f => call request fun reply => (rest reply).bind f

instance : Monad (Dialogue κ μ) where
  pure := done
  bind := bind

/-- One call, and its reply. -/
def ask (request : κ) : Dialogue κ μ μ := call request done

/-- The program after some replies. One that is done takes no more. -/
def after : Dialogue κ μ α → List μ → Dialogue κ μ α
  | p, [] => p
  | done a, _ :: _ => done a
  | call _ rest, reply :: replies => (rest reply).after replies
termination_by structural _ replies => replies

/-- The calls that the replies answer. -/
def asked : Dialogue κ μ α → List μ → List κ
  | _, [] => []
  | done _, _ :: _ => []
  | call request rest, reply :: replies => request :: (rest reply).asked replies
termination_by structural _ replies => replies

@[simp] theorem after_done (a : α) (replies : List μ) :
    (done a : Dialogue κ μ α).after replies = done a := by
  cases replies <;> rfl

@[simp] theorem asked_done (a : α) (replies : List μ) :
    (done a : Dialogue κ μ α).asked replies = [] := by
  cases replies <;> rfl

/-- What the program has returned. -/
def returned : Dialogue κ μ α → Option α
  | done a => some a
  | call _ _ => none

theorem returned_eq_some {p : Dialogue κ μ α} {a : α} : p.returned = some a ↔ p = done a := by
  cases p with
  | done b => simp [returned]
  | call request rest => simp [returned]

section

variable {p : Dialogue κ μ α} {replies : List μ} {request : κ} {rest : μ → Dialogue κ μ α}

/-- One more reply. -/
theorem after_concat (h : p.after replies = call request rest) (reply : μ) :
    p.after (replies ++ [reply]) = rest reply := by
  induction replies generalizing p with
  | nil =>
      rw [after] at h
      rw [h]
      rfl
  | cons first replies ih =>
      cases p with
      | done a => cases h
      | call request₀ rest₀ => exact ih h

/-- One more reply answers the call the program waits for. -/
theorem asked_concat (h : p.after replies = call request rest) (reply : μ) :
    p.asked (replies ++ [reply]) = p.asked replies ++ [request] := by
  induction replies generalizing p with
  | nil =>
      rw [after] at h
      rw [h]
      rfl
  | cons first replies ih =>
      cases p with
      | done a => cases h
      | call request₀ rest₀ =>
          show request₀ :: (rest₀ first).asked (replies ++ [reply]) = _
          rw [ih h]
          rfl

/-- A program that waits has used every reply. -/
theorem length_asked (h : p.after replies = call request rest) :
    (p.asked replies).length = replies.length := by
  induction replies generalizing p with
  | nil => rfl
  | cons first replies ih =>
      cases p with
      | done a => cases h
      | call request₀ rest₀ => exact congrArg Nat.succ (ih h)

end

/-! ### What is left of a program -/

/-- The first program is what the second one, which waits, goes on with at some reply. -/
inductive Follows : Dialogue κ μ α → Dialogue κ μ α → Prop where
  | reply (request : κ) (rest : μ → Dialogue κ μ α) (reply : μ) :
      Follows (rest reply) (call request rest)

/-- A program cannot go on forever. -/
theorem wf_follows : WellFounded (Follows : Dialogue κ μ α → Dialogue κ μ α → Prop) := by
  refine ⟨fun p => ?_⟩
  induction p with
  | done a => exact ⟨_, fun q h => by cases h⟩
  | call request rest ih =>
      refine ⟨_, fun q h => ?_⟩
      cases h with
      | reply _ _ reply => exact ih reply

/-! ### Programs that quit -/

/-- The program returns at once on a reply that is final for its call. -/
def Quits (final : κ → μ → Prop) : Dialogue κ μ α → Prop
  | done _ => True
  | call request rest =>
    ∀ reply, (final request reply → ∃ a, rest reply = done a) ∧ (rest reply).Quits final

variable {final : κ → μ → Prop}

theorem Quits.after {p : Dialogue κ μ α} (h : p.Quits final) (replies : List μ) :
    (p.after replies).Quits final := by
  induction replies generalizing p with
  | nil => exact h
  | cons first replies ih =>
      cases p with
      | done a => exact h
      | call request rest => exact ih (h first).2

/-- A program that waits quits on a reply that is final for the call. -/
theorem Quits.done {p : Dialogue κ μ α} (h : p.Quits final) {replies : List μ} {request : κ}
    {rest : μ → Dialogue κ μ α} (hafter : p.after replies = call request rest) {reply : μ}
    (hfinal : final request reply) : ∃ a, rest reply = Dialogue.done a := by
  have hrest := h.after replies
  rw [hafter] at hrest
  exact (hrest reply).1 hfinal

end Dialogue

end Lib
