import CongestionObservatory.Lib.MachineOrder
import CongestionObservatory.Lib.ScopedEnum

/-!
# `CongestionObservatory.Core.Basic`: byte strings, errors and cancellation

`Text` is a C++ `std::string`: a list of arbitrary bytes. `ascii` spells a literal and
`decimal` is `std::to_string` of an unsigned number.

`Result` and `Status` (`core/result.hpp`) are `Except Error`. An `Error` carries its code, its
message and its detail, as the source builds them with `make_error`.

`CancellationToken` (`core/cancel.hpp`) is a one-way latch that another thread may set at any
moment. A single-threaded run sees it only through its polls, so the token is the number of
polls that still answer `false`. Every moment of cancellation is one such number, and a token
that is never cancelled has none.
-/

set_option autoImplicit false

namespace CongestionObservatory

/-- A byte string. -/
abbrev Text := List UInt8

/-- The bytes of an ASCII literal. -/
def ascii (s : String) : Text := s.toList.map (fun c => UInt8.ofNat c.toNat)

/-- `std::to_string` of an unsigned number. -/
def decimal (n : Nat) : Text := (Nat.toDigits 10 n).map (fun c => UInt8.ofNat c.toNat)

/-- `ErrorCode` of `core/result.hpp`. -/
inductive ErrorCode where
  | ok
  | invalidArgument
  | outOfRange
  | limitExceeded
  | arithmeticOverflow
  | notFound
  | alreadyExists
  | conflict
  | staleEpoch
  | staleGeneration
  | staleRevision
  | replayedSequence
  | incarnationChanged
  | authorityTooLow
  | unsupported
  | incomplete
  | conflictingEvidence
  | integrityFailure
  | versionMismatch
  | ioError
  | cancelled
  | shuttingDown
  | queueFull
  | protocolError
  | unauthorized
  | preconditionFailed
  | internal
  deriving DecidableEq, Repr

/-- An error: code, message and detail. -/
structure Error where
  code : ErrorCode
  message : Text
  detail : Text := []
  deriving DecidableEq, Repr

/-- `make_error`. -/
def makeError (code : ErrorCode) (message : String) (detail : Text := []) : Error :=
  { code := code, message := ascii message, detail := detail }

/-- `Error::describe`: the message, followed by the detail in brackets when there is one. -/
def Error.describe (e : Error) : Text :=
  if e.detail.isEmpty then e.message else e.message ++ ascii " (" ++ e.detail ++ ascii ")"

/-- A value or an error. -/
abbrev Result (α : Type) := Except Error α

/-- The result of an operation without a value. -/
abbrev Status := Result Unit

/-- A computation in `Except` that succeeded: its first part succeeded, and the rest did from
there. -/
theorem bind_eq_ok {ε α β : Type} {x : Except ε α} {f : α → Except ε β} {b : β} :
    (x >>= f) = .ok b ↔ ∃ a, x = .ok a ∧ f a = .ok b := by
  cases x with
  | error e => simp [bind, Except.bind]
  | ok a => simp [bind, Except.bind]

theorem pure_eq_ok {ε α : Type} {a b : α} : (pure a : Except ε α) = .ok b ↔ b = a := by
  constructor
  · intro h
    cases h
    rfl
  · rintro rfl
    rfl

/-- A sequence of two checks passes when both pass. -/
theorem seq_eq_ok {ε β : Type} {x : Except ε Unit} {f : Unit → Except ε β} {b : β} :
    (x >>= f) = .ok b ↔ x = .ok () ∧ f () = .ok b := by
  rw [bind_eq_ok]
  exact ⟨fun ⟨_, hx, hf⟩ => ⟨hx, hf⟩, fun ⟨hx, hf⟩ => ⟨(), hx, hf⟩⟩

theorem eq_ok_of_isOk {α : Type} {result : Result α} (h : result.isOk = true) (a : α) :
    result = .ok (result.toOption.getD a) := by
  cases result with
  | ok b => rfl
  | error e => cases h

/-- The early return of a check: the error, when the condition holds. -/
def failIf (condition : Prop) [Decidable condition] (error : Error) : Status :=
  if condition then .error error else .ok ()

theorem failIf_eq_ok {condition : Prop} [Decidable condition] {error : Error} :
    failIf condition error = .ok () ↔ ¬ condition := by
  unfold failIf
  split <;> simp_all

/-- The loop that checks each element and stops at the first error. -/
def checkAll {α : Type} (check : α → Status) : List α → Status
  | [] => .ok ()
  | a :: rest => do
    check a
    checkAll check rest

theorem checkAll_eq_ok {α : Type} {check : α → Status} {l : List α} :
    checkAll check l = .ok () ↔ ∀ a ∈ l, check a = .ok () := by
  induction l with
  | nil => simp [checkAll]
  | cons a rest ih => rw [checkAll, seq_eq_ok, ih, List.forall_mem_cons]

/-- `CancellationToken`: how many more polls answer `false`, or `none` when it is never
cancelled. -/
structure CancellationToken where
  pollsLeft : Option Nat
  deriving DecidableEq, Repr

namespace CancellationToken

/-- The token nobody cancels. -/
def never : CancellationToken := ⟨none⟩

/-- `CancellationToken::cancelled`: the answer, and the token the next poll sees. -/
def cancelled (t : CancellationToken) : Bool × CancellationToken :=
  match t.pollsLeft with
  | none => (false, t)
  | some 0 => (true, t)
  | some (n + 1) => (false, ⟨some n⟩)

end CancellationToken

end CongestionObservatory
