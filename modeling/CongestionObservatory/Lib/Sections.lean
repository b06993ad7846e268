import CongestionObservatory.Lib.Interleaving
import Mathlib.Algebra.BigOperators.Group.List.Basic
import Mathlib.Algebra.GroupWithZero.Nat
import Mathlib.Data.List.Induction

/-!
# `CongestionObservatory.Lib.Sections`: threads that work in critical sections

A `Program Answer α` is a sequential program that enters critical sections. A section `k : κ` acts
on a shared state at once and gives an answer of type `Answer k`. `alone` runs a program without
interruption, and `Goes` relates it with what is left of it after some sections.

A thread makes calls, and each call is a program. In a turn a thread starts a call, enters the next
section, or returns. `Parties` interleaves the threads, and the history of a run keeps every step.
`runAll_played` says that the sections of all threads are one sequential run, so what every section
keeps holds throughout. `returned_path` says that a call that has returned went through its
program, and `performed_path` that a section which has acted is on the path of a call.

A program `Owes` when some of its sections incur what others pay off. `runAll_total_le` and
`runAll_total_eq` carry such a balance from one program to all threads.
-/

set_option autoImplicit false

namespace Lib

/-- A program that enters critical sections and returns an `α`. -/
inductive Program {κ : Type} (Answer : κ → Type) (α : Type) where
  | done (a : α)
  | enter (k : κ) (rest : Answer k → Program Answer α)

namespace Program

variable {κ α β : Type} {Answer : κ → Type}

/-- The second program goes on with what the first one returns. -/
def bind : Program Answer α → (α → Program Answer β) → Program Answer β
  | done a, f => f a
  | enter k rest, f => enter k fun answer => (rest answer).bind f

instance : Monad (Program Answer) where
  pure := done
  bind := bind

/-- One section. -/
def ask (k : κ) : Program Answer (Answer k) := enter k done

/-! ### Without interruption -/

section

variable {σ : Type} (perform : (k : κ) → σ → Answer k × σ)

/-- The program runs through its sections at once. -/
def alone : Program Answer α → σ → α × σ
  | done a, s => (a, s)
  | enter k rest, s => (rest (perform k s).1).alone (perform k s).2

@[simp] theorem alone_pure (a : α) (s : σ) :
    alone perform (pure a : Program Answer α) s = (a, s) := rfl

@[simp] theorem alone_ask (k : κ) (s : σ) : alone perform (ask k : Program Answer _) s = perform k s :=
  rfl

@[simp] theorem alone_bind (p : Program Answer α) (f : α → Program Answer β) (s : σ) :
    alone perform (p >>= f) s
      = alone perform (f (alone perform p s).1) (alone perform p s).2 := by
  show alone perform (p.bind f) s = _
  induction p generalizing s with
  | done a => rfl
  | enter k rest ih => exact ih (perform k s).1 (perform k s).2

end

/-! ### Paths -/

/-- A section that has acted, and its answer. -/
abbrev Entry (Answer : κ → Type) : Type := (k : κ) × Answer k

/-- The second program is left of the first one after the sections. -/
inductive Goes : Program Answer α → List (Entry Answer) → Program Answer α → Prop where
  | refl (p : Program Answer α) : Goes p [] p
  | step {k : κ} {rest : Answer k → Program Answer α} (answer : Answer k)
      {entries : List (Entry Answer)} {q : Program Answer α} :
      Goes (rest answer) entries q → Goes (enter k rest) (⟨k, answer⟩ :: entries) q

theorem Goes.concat {p : Program Answer α} {entries : List (Entry Answer)} {k : κ}
    {rest : Answer k → Program Answer α} (h : Goes p entries (enter k rest)) (answer : Answer k) :
    Goes p (entries ++ [⟨k, answer⟩]) (rest answer) := by
  generalize hq : enter k rest = q at h
  induction h with
  | refl p =>
      rw [← hq]
      exact Goes.step answer (Goes.refl _)
  | step answer' _ ih => exact Goes.step answer' (ih hq)

theorem Goes.done {a : α} {entries : List (Entry Answer)} {q : Program Answer α}
    (h : Goes (done a) entries q) : entries = [] ∧ q = Program.done a := by
  cases h with
  | refl => exact ⟨rfl, rfl⟩

/-- A path through a program that waits begins with the section it waits for. -/
theorem Goes.enter {k : κ} {rest : Answer k → Program Answer α} {entries : List (Entry Answer)}
    {a : α} (h : Goes (enter k rest) entries (Program.done a)) :
    ∃ answer later, entries = ⟨k, answer⟩ :: later ∧ Goes (rest answer) later (Program.done a) := by
  cases h with
  | step answer h => exact ⟨answer, _, rfl, h⟩

/-- A path through two programs is a path through the first one and one through the second. -/
theorem Goes.bind {p : Program Answer α} {f : α → Program Answer β} {entries : List (Entry Answer)}
    {b : β} (h : Goes (p >>= f) entries (Program.done b)) :
    ∃ a first second, entries = first ++ second ∧ Goes p first (Program.done a) ∧
      Goes (f a) second (Program.done b) := by
  induction p generalizing entries with
  | done a => exact ⟨a, [], entries, rfl, Goes.refl _, h⟩
  | enter k rest ih =>
      obtain ⟨answer, later, rfl, hlater⟩ := Goes.enter h
      obtain ⟨a, first, second, rfl, hfirst, hsecond⟩ := ih answer hlater
      exact ⟨a, ⟨k, answer⟩ :: first, second, rfl, Goes.step answer hfirst, hsecond⟩

/-- A path through two programs up to a section ends in the first one, or it goes through it. -/
theorem Goes.bind_enter {p : Program Answer α} {f : α → Program Answer β}
    {entries : List (Entry Answer)} {k : κ} {rest : Answer k → Program Answer β}
    (h : Goes (p >>= f) entries (Program.enter k rest)) :
    (∃ rest', Goes p entries (Program.enter k rest')) ∨
      ∃ a first second, entries = first ++ second ∧ Goes p first (Program.done a) ∧
        Goes (f a) second (Program.enter k rest) := by
  induction p generalizing entries with
  | done a => exact Or.inr ⟨a, [], entries, rfl, Goes.refl _, h⟩
  | enter k' rest' ih =>
      generalize hq : Program.enter k rest = q at h
      cases h with
      | refl p =>
          cases hq
          exact Or.inl ⟨rest', Goes.refl _⟩
      | step answer h =>
          subst hq
          rcases ih answer h with ⟨rest'', hgoes⟩ | ⟨a, first, second, rfl, hfirst, hsecond⟩
          · exact Or.inl ⟨rest'', Goes.step answer hgoes⟩
          · exact Or.inr ⟨a, ⟨k', answer⟩ :: first, second, rfl, Goes.step answer hfirst, hsecond⟩

/-- Every section of the program has the property. -/
def Only (P : κ → Prop) : Program Answer α → Prop
  | done _ => True
  | enter k rest => P k ∧ ∀ answer, (rest answer).Only P

theorem Only.pure {P : κ → Prop} (a : α) : (Pure.pure a : Program Answer α).Only P := trivial

theorem Only.ask {P : κ → Prop} {k : κ} (h : P k) : (Program.ask k : Program Answer _).Only P :=
  ⟨h, fun _ => trivial⟩

theorem Only.bind {P : κ → Prop} {p : Program Answer α} {f : α → Program Answer β} (h : p.Only P)
    (hf : ∀ a, (f a).Only P) : (p >>= f).Only P := by
  induction p with
  | done a => exact hf a
  | enter k rest ih => exact ⟨h.1, fun answer => ih answer (h.2 answer)⟩

theorem Only.mono {P Q : κ → Prop} {p : Program Answer α} (h : p.Only P) (hPQ : ∀ k, P k → Q k) :
    p.Only Q := by
  induction p with
  | done a => trivial
  | enter k rest ih => exact ⟨hPQ k h.1, fun answer => ih answer (h.2 answer)⟩

/-- A program enters its own sections alone. -/
theorem Only.entered {P : κ → Prop} {p : Program Answer α} (h : p.Only P)
    {entries : List (Entry Answer)} {k : κ} {rest : Answer k → Program Answer α}
    (hgoes : Goes p entries (Program.enter k rest)) : P k := by
  generalize hq : Program.enter k rest = q at hgoes
  induction hgoes with
  | refl p =>
      rw [← hq] at h
      exact h.1
  | step answer _ ih => exact ih (h.2 answer) hq

/-- A section that the first program never enters is entered by the second one. -/
theorem Only.enter_second {P : κ → Prop} {p : Program Answer α} (h : p.Only P)
    {f : α → Program Answer β} {entries : List (Entry Answer)} {k : κ}
    {rest : Answer k → Program Answer β} (hk : ¬ P k)
    (hgoes : Goes (p >>= f) entries (Program.enter k rest)) :
    ∃ a first second, entries = first ++ second ∧ Goes p first (Program.done a) ∧
      Goes (f a) second (Program.enter k rest) := by
  rcases hgoes.bind_enter with ⟨rest', hfirst⟩ | hsecond
  · exact absurd (h.entered hfirst) hk
  · exact hsecond

/-- A section that the second program never enters is entered by the first one. -/
theorem Only.enter_first {P : κ → Prop} {p : Program Answer α} {f : α → Program Answer β}
    (h : ∀ a, (f a).Only P) {entries : List (Entry Answer)} {k : κ}
    {rest : Answer k → Program Answer β} (hk : ¬ P k)
    (hgoes : Goes (p >>= f) entries (Program.enter k rest)) :
    ∃ rest', Goes p entries (Program.enter k rest') := by
  rcases hgoes.bind_enter with hfirst | ⟨a, _, _, _, _, hsecond⟩
  · exact hfirst
  · exact absurd ((h a).entered hsecond) hk

/-- A single section is entered at once. -/
theorem Goes.ask_enter {k k' : κ} {entries : List (Entry Answer)}
    {rest : Answer k' → Program Answer (Answer k)}
    (h : Goes (Program.ask k) entries (Program.enter k' rest)) : entries = [] ∧ k = k' := by
  cases h with
  | refl => exact ⟨rfl, rfl⟩
  | step answer h => cases h.done.2

theorem Goes.ask {k : κ} {entries : List (Entry Answer)} {a : Answer k}
    (h : Goes (Program.ask k) entries (Program.done a)) : entries = [⟨k, a⟩] := by
  obtain ⟨answer, later, rfl, hlater⟩ := Goes.enter h
  obtain ⟨rfl, hdone⟩ := hlater.done
  cases hdone
  rfl

end Program

/-! ### Debts -/

namespace Program

section

variable {κ α β : Type} {Answer : κ → Type} {f g : Entry Answer → Nat}

/-- The sections incur debts `f` and pay them off with `g`. The program begins with a debt, never
pays more than it owes, and ends with the debt that belongs to its result. -/
def Owes (f g : Entry Answer → Nat) (d : α → Nat) : Nat → Program Answer α → Prop
  | owed, done a => owed = d a
  | owed, enter k rest => ∀ answer, ∃ owed', owed + f ⟨k, answer⟩ = owed' + g ⟨k, answer⟩ ∧
      (rest answer).Owes f g d owed'
termination_by structural _ p => p

theorem Owes.pure {d : α → Nat} (a : α) : (Pure.pure a : Program Answer α).Owes f g d (d a) :=
  rfl

theorem Owes.ask {k : κ} {owed : Nat} {d : Answer k → Nat}
    (h : ∀ answer, owed + f ⟨k, answer⟩ = d answer + g ⟨k, answer⟩) :
    (Program.ask k : Program Answer _).Owes f g d owed := fun answer => ⟨_, h answer, rfl⟩

theorem Owes.bind {d : α → Nat} {d' : β → Nat} {owed : Nat} {p : Program Answer α}
    {q : α → Program Answer β} (h : p.Owes f g d owed)
    (hq : ∀ a, (q a).Owes f g d' (d a)) : (p >>= q).Owes f g d' owed := by
  induction p generalizing owed with
  | done a =>
      have howed : owed = d a := h
      rw [howed]
      exact hq a
  | enter k rest ih =>
      intro answer
      obtain ⟨owed', hsum, hrest⟩ := h answer
      exact ⟨owed', hsum, ih answer hrest⟩

/-- Sections that neither incur nor pay leave the debt. -/
theorem Only.owes {P : κ → Prop} {p : Program Answer α} (h : p.Only P)
    (hP : ∀ k answer, P k → f ⟨k, answer⟩ = 0 ∧ g ⟨k, answer⟩ = 0) :
    p.Owes f g (fun _ => 0) 0 := by
  induction p with
  | done a => rfl
  | enter k rest ih =>
      intro answer
      obtain ⟨hf, hg⟩ := hP k answer h.1
      exact ⟨0, by rw [hf, hg], ih answer (h.2 answer)⟩

/-- What is owed along a path. -/
theorem Owes.goes {d : α → Nat} {owed : Nat} {p q : Program Answer α}
    {entries : List (Entry Answer)} (h : p.Owes f g d owed) (hgoes : Goes p entries q) :
    ∃ owed', owed + (entries.map f).sum = owed' + (entries.map g).sum ∧ q.Owes f g d owed' := by
  induction hgoes generalizing owed with
  | refl p => exact ⟨owed, rfl, h⟩
  | step answer _ ih =>
      obtain ⟨middle, hsum, hrest⟩ := h answer
      obtain ⟨owed', hsum', hq⟩ := ih hrest
      refine ⟨owed', ?_, hq⟩
      rw [List.map_cons, List.map_cons, List.sum_cons, List.sum_cons]
      omega

/-- A program without debts at its ends has paid at most what it owed, and all of it at the end. -/
theorem Owes.sum_le {p q : Program Answer α} {entries : List (Entry Answer)}
    (h : p.Owes f g (fun _ => 0) 0) (hgoes : Goes p entries q) :
    (entries.map g).sum ≤ (entries.map f).sum := by
  obtain ⟨owed, hsum, -⟩ := h.goes hgoes
  omega

theorem Owes.sum_eq {p : Program Answer α} {a : α} {entries : List (Entry Answer)}
    (h : p.Owes f g (fun _ => 0) 0) (hgoes : Goes p entries (done a)) :
    (entries.map g).sum = (entries.map f).sum := by
  obtain ⟨owed, hsum, hdone⟩ := h.goes hgoes
  have hzero : owed = 0 := hdone
  omega

end

end Program

/-! ### Threads -/

section

variable {ι κ ν μ σ : Type} {Answer : κ → Type}

/-- A thread is idle or within a call, with the rest of its program. -/
inductive Thread {κ : Type} (Answer : κ → Type) (ν μ : Type) where
  | idle
  | within (call : ν) (left : Program Answer μ)

/-- What a thread does in its turn: it starts a call when it is idle, and otherwise it goes on. -/
inductive ThreadMove (ν : Type) where
  | invoke (call : ν)
  | goOn

/-- What happened in a turn. -/
inductive ThreadEvent {κ : Type} (Answer : κ → Type) (ν μ : Type) where
  | invoked (call : ν)
  | performed (entry : Program.Entry Answer)
  | returned (call : ν) (reply : μ)

namespace Thread

/-- The thread has no call. -/
def isIdle : Thread Answer ν μ → Bool
  | idle => true
  | within _ _ => false

theorem isIdle_iff {t : Thread Answer ν μ} : t.isIdle = true ↔ t = idle := by
  cases t with
  | idle => exact ⟨fun _ => rfl, fun _ => rfl⟩
  | within call left => exact iff_of_false Bool.false_ne_true fun h => by cases h

/-- The sections among some events. -/
def entries (events : List (ThreadEvent Answer ν μ)) : List (Program.Entry Answer) :=
  events.filterMap fun
    | .performed entry => some entry
    | _ => none

@[simp] theorem entries_append (first second : List (ThreadEvent Answer ν μ)) :
    entries (first ++ second) = entries first ++ entries second := List.filterMap_append

@[simp] theorem entries_performed (es : List (Program.Entry Answer)) :
    entries (es.map (ThreadEvent.performed : _ → ThreadEvent Answer ν μ)) = es := by
  induction es with
  | nil => rfl
  | cons e rest ih => exact congrArg (e :: ·) ih

variable (program : ν → Program Answer μ) (perform : (k : κ) → σ → Answer k × σ)

/-- One turn of a thread. -/
def act (t : Thread Answer ν μ) (s : σ) (move : ThreadMove ν) :
    Thread Answer ν μ × σ × List (ThreadEvent Answer ν μ) :=
  match t, move with
  | idle, .invoke call => (within call (program call), s, [.invoked call])
  | idle, .goOn => (idle, s, [])
  | within call (.done reply), _ => (idle, s, [.returned call reply])
  | within call (.enter k rest), _ =>
    (within call (rest (perform k s).1), (perform k s).2, [.performed ⟨k, (perform k s).1⟩])

/-- Nothing but the threads acts on the shared state. -/
def noOther (_ : σ) (action : Empty) : σ × List (ThreadEvent Answer ν μ) := action.elim

/-- The threads, none of which has started a call. -/
def start (s : σ) : Parties ι (Thread Answer ν μ) σ (ThreadEvent Answer ν μ) :=
  { own := fun _ => idle, shared := s }

/-- A run of the threads, one turn after the other. -/
def runAll [DecidableEq ι] (s : σ) (turns : List (Turn ι (ThreadMove ν) Empty)) :
    Parties ι (Thread Answer ν μ) σ (ThreadEvent Answer ν μ) :=
  run (Parties.step (act program perform) noOther) (start s) turns

/-! ### The calls of one thread -/

/-- What a thread has done: calls that went through their programs, and the sections of the call it
is within. -/
inductive Did : Thread Answer ν μ → List (ThreadEvent Answer ν μ) → Prop where
  | nothing : Did idle []
  | invoke {events : List (ThreadEvent Answer ν μ)} (call : ν) :
      Did idle events → Did (within call (program call)) (events ++ [.invoked call])
  | perform {events : List (ThreadEvent Answer ν μ)} {call : ν} {k : κ}
      {rest : Answer k → Program Answer μ} (answer : Answer k) :
      Did (within call (.enter k rest)) events →
        Did (within call (rest answer)) (events ++ [.performed ⟨k, answer⟩])
  | finish {events : List (ThreadEvent Answer ν μ)} {call : ν} {reply : μ} :
      Did (within call (.done reply)) events → Did idle (events ++ [.returned call reply])

variable {program}

theorem Did.act {t : Thread Answer ν μ} {events : List (ThreadEvent Answer ν μ)}
    (h : Did program t events) (s : σ) (move : ThreadMove ν) :
    Did program (t.act program perform s move).1
      (events ++ (t.act program perform s move).2.2) := by
  cases t with
  | idle =>
      cases move with
      | invoke call => exact Did.invoke call h
      | goOn =>
          show Did program idle (events ++ [])
          rwa [List.append_nil]
  | within call left =>
      cases left with
      | done reply => exact Did.finish h
      | enter k rest => exact Did.perform _ h

/-- The rule for a property of complete calls. Within a call, a thread has gone a part of its
program after them. -/
theorem Did.calls {E : List (ThreadEvent Answer ν μ) → Prop} (hnil : E [])
    (hcall : ∀ before call path reply, E before → (program call).Goes path (.done reply) →
      E (before ++ (.invoked call :: path.map .performed) ++ [.returned call reply]))
    {t : Thread Answer ν μ} {events : List (ThreadEvent Answer ν μ)} (h : Did program t events) :
    match t with
    | idle => E events
    | within call left => ∃ before path, events = before ++ .invoked call :: path.map .performed ∧
        E before ∧ (program call).Goes path left := by
  induction h with
  | nothing => exact hnil
  | invoke call h ih => exact ⟨_, [], rfl, ih, Program.Goes.refl _⟩
  | perform answer h ih =>
      obtain ⟨before, path, rfl, hbefore, hpath⟩ := ih
      refine ⟨before, path ++ [⟨_, answer⟩], ?_, hbefore, hpath.concat answer⟩
      rw [List.map_append, List.append_assoc]
      rfl
  | finish h ih =>
      obtain ⟨before, path, rfl, hbefore, hpath⟩ := ih
      exact hcall before _ path _ hbefore hpath

/-- Within a call, a thread has gone a part of its program. -/
theorem Did.goes {call : ν} {left : Program Answer μ} {events : List (ThreadEvent Answer ν μ)}
    (h : Did program (within call left) events) :
    ∃ before path, events = before ++ .invoked call :: path.map .performed ∧
      (program call).Goes path left := by
  obtain ⟨before, path, hevents, -, hpath⟩ :=
    h.calls (E := fun _ => True) trivial fun _ _ _ _ _ _ => trivial
  exact ⟨before, path, hevents, hpath⟩

variable (program) in
/-- After some events a thread is where this event can happen next. -/
def Expects (events : List (ThreadEvent Answer ν μ)) : ThreadEvent Answer ν μ → Prop
  | .invoked _ => Did program idle events
  | .performed e => ∃ call rest, Did program (within call (.enter e.1 rest)) events
  | .returned call reply => Did program (within call (.done reply)) events

theorem Did.expects {t : Thread Answer ν μ} {events first second : List (ThreadEvent Answer ν μ)}
    {event : ThreadEvent Answer ν μ} (h : Did program t events)
    (hevents : first ++ event :: second = events) : Expects program first event := by
  induction h generalizing second with
  | nothing => simp at hevents
  | invoke call h ih =>
      rcases List.eq_nil_or_concat second with rfl | ⟨second', last, rfl⟩
      · obtain ⟨rfl, hevent⟩ := List.append_inj' hevents rfl
        cases hevent
        exact h
      · rw [List.concat_eq_append, ← List.cons_append, ← List.append_assoc] at hevents
        exact ih (List.append_inj' hevents rfl).1
  | perform answer h ih =>
      rcases List.eq_nil_or_concat second with rfl | ⟨second', last, rfl⟩
      · obtain ⟨rfl, hevent⟩ := List.append_inj' hevents rfl
        cases hevent
        exact ⟨_, _, h⟩
      · rw [List.concat_eq_append, ← List.cons_append, ← List.append_assoc] at hevents
        exact ih (List.append_inj' hevents rfl).1
  | finish h ih =>
      rcases List.eq_nil_or_concat second with rfl | ⟨second', last, rfl⟩
      · obtain ⟨rfl, hevent⟩ := List.append_inj' hevents rfl
        cases hevent
        exact h
      · rw [List.concat_eq_append, ← List.cons_append, ← List.append_assoc] at hevents
        exact ih (List.append_inj' hevents rfl).1

/-! ### The history of all threads -/

/-- The state after the sections of a history. -/
def after (s : σ) (history : List (Option ι × ThreadEvent Answer ν μ)) : σ :=
  (entries (history.map Prod.snd)).foldl (fun s e => (perform e.1 s).2) s

theorem after_append (s : σ) (first second : List (Option ι × ThreadEvent Answer ν μ)) :
    after perform s (first ++ second) = after perform (after perform s first) second := by
  rw [after, List.map_append, entries_append, List.foldl_append]
  rfl

/-- The events of a turn, and the state after it. -/
theorem act_cases (t : Thread Answer ν μ) (s : σ) (move : ThreadMove ν) :
    ((t.act program perform s move).2.2 = [] ∧ (t.act program perform s move).2.1 = s) ∨
    (∃ event, (t.act program perform s move).2.2 = [event] ∧ entries [event] = [] ∧
      (t.act program perform s move).2.1 = s) ∨
    ∃ k, (t.act program perform s move).2.2 = [.performed ⟨k, (perform k s).1⟩] ∧
      (t.act program perform s move).2.1 = (perform k s).2 := by
  cases t with
  | idle =>
      cases move with
      | invoke call => exact Or.inr (Or.inl ⟨_, rfl, rfl, rfl⟩)
      | goOn => exact Or.inl ⟨rfl, rfl⟩
  | within call left =>
      cases left with
      | done reply => exact Or.inr (Or.inl ⟨_, rfl, rfl, rfl⟩)
      | enter k rest => exact Or.inr (Or.inr ⟨k, rfl, rfl⟩)

/-- A history of sections that were performed one after the other, from the state `s`. -/
def Played (s : σ) (history : List (Option ι × ThreadEvent Answer ν μ)) : Prop :=
  (∀ before i e later, history = before ++ (i, .performed e) :: later →
    (perform e.1 (after perform s before)).1 = e.2) ∧ ∀ event ∈ history, event.1 ≠ none

theorem Played.concat {s : σ} {history : List (Option ι × ThreadEvent Answer ν μ)}
    (h : Played perform s history) (i : ι) (event : ThreadEvent Answer ν μ)
    (hlast : ∀ e, event = .performed e → (perform e.1 (after perform s history)).1 = e.2) :
    Played perform s (history ++ [(some i, event)]) := by
  refine ⟨fun before j e later heq => ?_, fun entry hentry => ?_⟩
  · rcases List.eq_nil_or_concat later with rfl | ⟨later', last, rfl⟩
    · obtain ⟨rfl, hevent⟩ := List.append_inj' heq rfl
      cases hevent
      exact hlast e rfl
    · rw [List.concat_eq_append, ← List.cons_append, ← List.append_assoc] at heq
      exact h.1 before j e later' (List.append_inj' heq rfl).1
  · rcases List.mem_append.mp hentry with hmem | hmem
    · exact h.2 entry hmem
    · rw [List.mem_singleton.mp hmem]
      exact Option.some_ne_none i

theorem Played.before {s : σ} {first second : List (Option ι × ThreadEvent Answer ν μ)}
    (h : Played perform s (first ++ second)) : Played perform s first :=
  ⟨fun before i e later heq => h.1 before i e (later ++ second) (by rw [heq]; simp),
    fun event hevent => h.2 event (List.mem_append_left _ hevent)⟩

/-- The rule for what every section keeps. -/
theorem after_induction (P : σ → Prop) (hstep : ∀ k s, P s → P (perform k s).2) {s : σ} (hinit : P s)
    (history : List (Option ι × ThreadEvent Answer ν μ)) : P (after perform s history) := by
  unfold after
  generalize entries (history.map Prod.snd) = es
  induction es generalizing s with
  | nil => exact hinit
  | cons e rest ih => exact ih (hstep e.1 s hinit)

/-- A section as a call on the shared state, which gives the section with its answer. -/
def sectionCall (s : σ) (k : κ) : Program.Entry Answer × σ := (⟨k, (perform k s).1⟩, (perform k s).2)

/-- The sections of a history are a run of calls. -/
theorem Played.exists_calls {s : σ} {history : List (Option ι × ThreadEvent Answer ν μ)}
    (h : Played perform s history) :
    ∃ calls, entries (history.map Prod.snd)
        = (trace (sectionCall perform) s calls).map Prod.snd ∧
      after perform s history = run (sectionCall perform) s calls := by
  induction history using List.reverseRecOn with
  | nil => exact ⟨[], rfl, rfl⟩
  | append_singleton history last ih =>
      obtain ⟨calls, hentries, hafter⟩ := ih h.before
      obtain ⟨i, event⟩ := last
      cases event with
      | performed e =>
          have hanswer := h.1 history i e [] rfl
          have he : e = (sectionCall perform (run (sectionCall perform) s calls) e.1).1 := by
            rw [← hafter]
            exact Sigma.ext rfl (heq_of_eq hanswer.symm)
          refine ⟨calls ++ [e.1], ?_, ?_⟩
          · rw [List.map_append, entries_append, hentries, trace_append, List.map_append]
            exact congrArg (_ ++ [·]) he
          · rw [after_append, run_append, ← hafter]
            rfl
      | invoked call =>
          refine ⟨calls, ?_, by rw [after_append, hafter]; rfl⟩
          rw [List.map_append, entries_append, hentries]
          exact List.append_nil _
      | returned call reply =>
          refine ⟨calls, ?_, by rw [after_append, hafter]; rfl⟩
          rw [List.map_append, entries_append, hentries]
          exact List.append_nil _

/-- What holds after a history held before it, or one of its sections has established it. -/
theorem Played.established {s : σ} {history : List (Option ι × ThreadEvent Answer ν μ)}
    (h : Played perform s history) (P : σ → Prop) (Q : Program.Entry Answer → Prop)
    (hstep : ∀ k s, P (perform k s).2 → P s ∨ Q ⟨k, (perform k s).1⟩)
    (hafter : P (after perform s history)) :
    P s ∨ ∃ before i e later, history = before ++ (some i, .performed e) :: later ∧ Q e := by
  induction history using List.reverseRecOn with
  | nil => exact Or.inl hafter
  | append_singleton history last ih =>
      have hearlier : P (after perform s history) → P s ∨ ∃ before i e later,
          history ++ [last] = before ++ (some i, .performed e) :: later ∧ Q e := by
        intro hbefore
        rcases ih h.before hbefore with hfirst | ⟨before, i, e, later, rfl, he⟩
        · exact Or.inl hfirst
        · exact Or.inr ⟨before, i, e, later ++ [last], by simp, he⟩
      obtain ⟨j, event⟩ := last
      rw [after_append] at hafter
      cases event with
      | invoked call => exact hearlier hafter
      | returned call reply => exact hearlier hafter
      | performed entry =>
          rcases hstep entry.1 _ hafter with hbefore | he
          · exact hearlier hbefore
          · cases j with
            | none => exact absurd rfl (h.2 (none, .performed entry) (by simp))
            | some i =>
                have hanswer := h.1 history (some i) entry [] rfl
                rw [hanswer] at he
                exact Or.inr ⟨history, i, entry, [], rfl, he⟩

/-- A counter that every section bumps by its share stands at the sum of the shares. -/
theorem Played.counter {s : σ} {history : List (Option ι × ThreadEvent Answer ν μ)}
    (h : Played perform s history) (count : σ → Nat) (share : Program.Entry Answer → Nat)
    (hstep : ∀ k s, count (perform k s).2 = count s + share ⟨k, (perform k s).1⟩) :
    count (after perform s history)
      = count s + ((entries (history.map Prod.snd)).map share).sum := by
  obtain ⟨calls, hentries, hafter⟩ := h.exists_calls
  rw [hentries, hafter]
  clear h hentries hafter
  induction calls generalizing s with
  | nil => rfl
  | cons k rest ih =>
      rw [run, ih, trace, List.map_cons, List.map_cons, List.sum_cons, ← Nat.add_assoc]
      exact congrArg (· + _) (hstep k s)

variable [DecidableEq ι]

/-- **The sections of all threads are one sequence.** Each section acted on the state after the ones
before it in the history, and the shared state is the one after all of them. -/
theorem runAll_played (s : σ) (turns : List (Turn ι (ThreadMove ν) Empty)) :
    (runAll program perform s turns).shared
        = after perform s (runAll program perform s turns).history ∧
      Played perform s (runAll program perform s turns).history := by
  refine run_induction (Parties.step (act program perform) noOther)
    (fun m => m.shared = after perform s m.history ∧ Played perform s m.history) ?_ ?_ turns
  · exact ⟨rfl, fun before i e later heq => by simp [start] at heq,
      fun event hevent => absurd hevent List.not_mem_nil⟩
  · rintro m turn ⟨hshared, hplayed⟩
    cases turn with
    | other action => exact action.elim
    | party i move =>
        show ((m.own i).act program perform m.shared move).2.1 = after perform s (m.history
            ++ ((m.own i).act program perform m.shared move).2.2.map fun event => (some i, event)) ∧
          Played perform s (m.history
            ++ ((m.own i).act program perform m.shared move).2.2.map fun event => (some i, event))
        rw [after_append, ← hshared]
        rcases act_cases perform (m.own i) m.shared move with ⟨hevents, hstate⟩ |
          ⟨event, hevents, hnone, hstate⟩ | ⟨k, hevents, hstate⟩
        · rw [hevents, hstate, List.map_nil, List.append_nil]
          exact ⟨rfl, hplayed⟩
        · rw [hevents, hstate, List.map_singleton]
          refine ⟨?_, hplayed.concat perform i event fun e he => ?_⟩
          · show m.shared = (entries [event]).foldl _ m.shared
            rw [hnone]
            rfl
          · rw [he] at hnone
            cases hnone
        · rw [hevents, hstate, List.map_singleton]
          refine ⟨rfl, hplayed.concat perform i _ fun e he => ?_⟩
          rw [← hshared]
          cases he
          rfl

/-- What each thread has done. -/
theorem runAll_did (s : σ) (turns : List (Turn ι (ThreadMove ν) Empty)) (i : ι) :
    Did program ((runAll program perform s turns).own i)
      ((runAll program perform s turns).eventsOf i) :=
  (Parties.own_run (act program perform) noOther (Q := fun _ => True)
    (fun _ => Did program)
    (fun _ _ s move _ _ h => h.act perform s move) (fun _ _ _ _ => trivial)
    (fun _ action => action.elim) trivial (fun _ => Did.nothing) turns).2 i

/-- Where the first entry of a part is. -/
theorem exists_split_of_sublist {ε : Type} {a : ε} {part whole : List ε}
    (h : (a :: part).Sublist whole) :
    ∃ before later, whole = before ++ a :: later ∧ part.Sublist later := by
  obtain ⟨first, second, rfl, hmem, hpart⟩ := List.cons_sublist_iff.mp h
  obtain ⟨before, between, rfl⟩ := List.append_of_mem hmem
  exact ⟨before, between ++ second, by simp, hpart.trans (List.sublist_append_right _ _)⟩

/-- The events of one party, where they are in the history. -/
theorem eventsOf_sublist {τ ε : Type} (m : Parties ι τ σ ε) (i : ι) :
    ((m.eventsOf i).map fun event => (some i, event)).Sublist m.history := by
  have hfilter : (m.eventsOf i).map (fun event => (some i, event))
      = m.history.filter fun entry => entry.1 = some i := by
    rw [Parties.eventsOf, List.map_filterMap, ← List.filterMap_eq_filter]
    refine List.filterMap_congr ?_
    rintro ⟨j, event⟩ -
    by_cases h : j = some i
    · simp [Option.guard, h]
    · simp [Option.guard, h]
  rw [hfilter]
  exact List.filter_sublist

variable {s : σ} {turns : List (Turn ι (ThreadMove ν) Empty)} {i : ι}

/-- **A call that has returned went through its program**, with its sections in the history. -/
theorem returned_path {call : ν} {reply : μ}
    (h : (some i, .returned call reply) ∈ (runAll program perform s turns).history) :
    ∃ path, (program call).Goes path (.done reply) ∧
      (path.map fun e => (some i, .performed e)).Sublist
        (runAll program perform s turns).history := by
  have hmem : ThreadEvent.returned call reply ∈ (runAll program perform s turns).eventsOf i :=
    List.mem_filterMap.mpr ⟨_, h, if_pos rfl⟩
  obtain ⟨first, second, hevents⟩ := List.append_of_mem hmem
  have hdid : Did program _ _ := runAll_did perform s turns i
  have hexpects : Did program (within call (.done reply)) first := hdid.expects hevents.symm
  obtain ⟨before, path, rfl, hpath⟩ := hexpects.goes
  refine ⟨path, hpath, List.Sublist.trans ?_ (eventsOf_sublist _ i)⟩
  rw [hevents]
  have hpart : (path.map ThreadEvent.performed).Sublist
      (before ++ .invoked call :: path.map ThreadEvent.performed
        ++ .returned call reply :: second) :=
    ((List.sublist_cons_self _ _).trans (List.sublist_append_right before _)).trans
      (List.sublist_append_left _ _)
  have hmap := hpart.map fun event : ThreadEvent Answer ν μ => (some i, event)
  rwa [List.map_map] at hmap

/-- A section that has acted is on a path of a call, with the start of the call and the sections
before it in the history before it. -/
theorem performed_path {e : Program.Entry Answer}
    {before later : List (Option ι × ThreadEvent Answer ν μ)}
    (h : (runAll program perform s turns).history = before ++ (some i, .performed e) :: later) :
    ∃ call path rest, (program call).Goes path (.enter e.1 rest) ∧
      ((some i, .invoked call) :: path.map fun e => (some i, .performed e)).Sublist before := by
  have hdid : Did program _ _ := runAll_did perform s turns i
  have hevents : (runAll program perform s turns).eventsOf i
      = (⟨fun _ => idle, s, before⟩ : Parties ι (Thread Answer ν μ) σ _).eventsOf i
        ++ .performed e
          :: (⟨fun _ => idle, s, later⟩ : Parties ι (Thread Answer ν μ) σ _).eventsOf i := by
    unfold Parties.eventsOf
    rw [h, List.filterMap_append, List.filterMap_cons, if_pos rfl]
  obtain ⟨call, rest, hwithin⟩ := hdid.expects hevents.symm
  obtain ⟨first, path, hfirst, hpath⟩ := hwithin.goes
  refine ⟨call, path, rest, hpath, List.Sublist.trans ?_
    (eventsOf_sublist (⟨fun _ => idle, s, before⟩ : Parties ι (Thread Answer ν μ) σ _) i)⟩
  rw [hfirst]
  have hpart : (.invoked call :: path.map ThreadEvent.performed).Sublist
      (first ++ .invoked call :: path.map ThreadEvent.performed) := List.sublist_append_right first _
  have hmap := hpart.map fun event : ThreadEvent Answer ν μ => (some i, event)
  rwa [List.map_cons, List.map_map] at hmap

/-! ### Quantities -/

/-- A quantity of the sections, summed over some events. -/
def total (f : Program.Entry Answer → Nat) (events : List (ThreadEvent Answer ν μ)) : Nat :=
  ((entries events).map f).sum

theorem total_append (f : Program.Entry Answer → Nat) (first second : List (ThreadEvent Answer ν μ)) :
    total f (first ++ second) = total f first + total f second := by
  rw [total, entries_append, List.map_append, List.sum_append]
  rfl

theorem total_path (f : Program.Entry Answer → Nat) (call : ν) (path : List (Program.Entry Answer)) :
    total f (.invoked call :: path.map .performed : List (ThreadEvent Answer ν μ))
      = (path.map f).sum := by
  show ((entries (path.map .performed)).map f).sum = _
  rw [entries_performed]

variable {f g : Program.Entry Answer → Nat}

theorem Did.total_le {t : Thread Answer ν μ} {events : List (ThreadEvent Answer ν μ)}
    (h : Did program t events)
    (hpath : ∀ call path left, (program call).Goes path left → (path.map f).sum ≤ (path.map g).sum) :
    total f events ≤ total g events := by
  have hcalls := h.calls (E := fun events => total f events ≤ total g events) (Nat.le_refl 0) ?_
  · cases t with
    | idle => exact hcalls
    | within call left =>
        obtain ⟨before, path, rfl, hbefore, hgoes⟩ := hcalls
        rw [total_append, total_append, total_path, total_path]
        exact Nat.add_le_add hbefore (hpath call path left hgoes)
  · intro before call path reply hbefore hgoes
    rw [total_append, total_append, total_append, total_append, total_path, total_path]
    exact Nat.add_le_add (Nat.add_le_add hbefore (hpath call path _ hgoes)) (Nat.le_refl _)

theorem Did.total_eq {events : List (ThreadEvent Answer ν μ)}
    (h : Did program idle events)
    (hpath : ∀ call path reply, (program call).Goes path (.done reply) →
      (path.map f).sum = (path.map g).sum) :
    total f events = total g events := by
  refine h.calls (E := fun events => total f events = total g events) rfl ?_
  intro before call path reply hbefore hgoes
  rw [total_append, total_append, total_append, total_append, total_path, total_path, hbefore,
    hpath call path reply hgoes]
  rfl

omit [DecidableEq ι] in
/-- What is at most another quantity for each party is so in all. -/
theorem sum_le_of_parties [DecidableEq ι] {ε : Type} (f g : ε → Nat) (history : List (ι × ε))
    (h : ∀ i, ((history.filter fun entry => entry.1 = i).map fun entry => f entry.2).sum
      ≤ ((history.filter fun entry => entry.1 = i).map fun entry => g entry.2).sum) :
    (history.map fun entry => f entry.2).sum ≤ (history.map fun entry => g entry.2).sum := by
  -- The induction is on the length, and a step takes out the entries of one party.
  induction hn : history.length using Nat.strongRecOn generalizing history with
  | ind n ih =>
      cases history with
      | nil => exact Nat.le_refl 0
      | cons first rest =>
          have hrest := ih _ ?_ ((first :: rest).filter fun entry => ¬ entry.1 = first.1) ?_ rfl
          · rw [← List.sum_map_filter_add_sum_map_filter_not (fun entry => entry.1 = first.1)
                (fun entry => f entry.2) (first :: rest),
              ← List.sum_map_filter_add_sum_map_filter_not (fun entry => entry.1 = first.1)
                (fun entry => g entry.2) (first :: rest)]
            exact Nat.add_le_add (h first.1) hrest
          · rw [← hn, List.filter_cons_of_neg (by simp), List.length_cons]
            exact Nat.lt_succ_of_le (List.length_filter_le _ _)
          · intro i
            rw [List.filter_filter]
            by_cases hi : i = first.1
            · have hnone : (first :: rest).filter
                  (fun entry => decide (entry.1 = i) && decide (¬ entry.1 = first.1)) = [] :=
                List.filter_eq_nil_iff.mpr fun entry _ => by simp [hi]
              rw [hnone]
              exact Nat.le_refl 0
            · have hsame : (first :: rest).filter
                  (fun entry => decide (entry.1 = i) && decide (¬ entry.1 = first.1))
                    = (first :: rest).filter fun entry => entry.1 = i := by
                refine List.filter_congr fun entry _ => ?_
                by_cases hentry : entry.1 = i
                · simp [hentry, hi]
                · simp [hentry]
              rw [hsame]
              exact h i

theorem total_eq_sum (f : Program.Entry Answer → Nat) (events : List (ThreadEvent Answer ν μ)) :
    total f events = (events.map fun event => total f [event]).sum := by
  induction events with
  | nil => rfl
  | cons event rest ih =>
      rw [← List.singleton_append, total_append, ih]
      rfl

/-- The events of one thread, as entries of the history. -/
theorem total_le_filter (h : ∀ i, total f ((runAll program perform s turns).eventsOf i)
      ≤ total g ((runAll program perform s turns).eventsOf i)) (i : Option ι) :
    (((runAll program perform s turns).history.filter fun entry => entry.1 = i).map
        fun entry => total f [entry.2]).sum
      ≤ (((runAll program perform s turns).history.filter fun entry => entry.1 = i).map
        fun entry => total g [entry.2]).sum := by
  cases i with
  | none =>
      have hnone : (runAll program perform s turns).history.filter (fun entry => entry.1 = none)
          = [] :=
        List.filter_eq_nil_iff.mpr fun entry hentry => by
          simpa using (runAll_played perform s turns).2.2 entry hentry
      rw [hnone]
      exact Nat.le_refl 0
  | some i =>
      have hown : ∀ f : Program.Entry Answer → Nat,
          (((runAll program perform s turns).history.filter fun entry => entry.1 = some i).map
            fun entry => total f [entry.2]).sum
            = total f ((runAll program perform s turns).eventsOf i) := by
        intro f
        rw [total_eq_sum, Parties.eventsOf, List.map_filterMap, ← List.filterMap_eq_map,
          ← List.filterMap_eq_filter, List.filterMap_filterMap]
        congr 1
        refine List.filterMap_congr fun entry _ => ?_
        by_cases hentry : entry.1 = some i
        · simp [Option.guard, hentry]
        · simp [Option.guard, hentry]
      rw [hown f, hown g]
      exact h i

/-- **What a thread never exceeds, all threads never exceed.** -/
theorem runAll_total_le
    (hpath : ∀ call path left, (program call).Goes path left → (path.map f).sum ≤ (path.map g).sum) :
    total f ((runAll program perform s turns).history.map Prod.snd)
      ≤ total g ((runAll program perform s turns).history.map Prod.snd) := by
  rw [total_eq_sum f, total_eq_sum g, List.map_map, List.map_map]
  refine sum_le_of_parties (fun event => total f [event]) (fun event => total g [event]) _ fun i => ?_
  exact total_le_filter perform (fun i => (runAll_did perform s turns i).total_le hpath) i

/-- **What balances in each complete call, balances when every thread is idle.** -/
theorem runAll_total_eq (hidle : ∀ i, (runAll program perform s turns).own i = idle)
    (hpath : ∀ call path reply, (program call).Goes path (.done reply) →
      (path.map f).sum = (path.map g).sum) :
    total f ((runAll program perform s turns).history.map Prod.snd)
      = total g ((runAll program perform s turns).history.map Prod.snd) := by
  have hown : ∀ i, total f ((runAll program perform s turns).eventsOf i)
      = total g ((runAll program perform s turns).eventsOf i) := by
    intro i
    have hdid : Did program _ _ := runAll_did perform s turns i
    rw [hidle i] at hdid
    exact hdid.total_eq hpath
  rw [total_eq_sum f, total_eq_sum g, List.map_map, List.map_map]
  refine Nat.le_antisymm ?_ ?_
  · refine sum_le_of_parties (fun event => total f [event]) (fun event => total g [event]) _ fun i => ?_
    exact total_le_filter perform (fun i => Nat.le_of_eq (hown i)) i
  · refine sum_le_of_parties (fun event => total g [event]) (fun event => total f [event]) _ fun i => ?_
    exact total_le_filter perform (fun i => Nat.le_of_eq (hown i).symm) i

end Thread

end

end Lib
