import Mathlib.Data.List.Forall2
import Mathlib.Algebra.Order.Group.Nat
import Mathlib.Algebra.BigOperators.Group.List.Basic
import CongestionObservatory.Lib.Run
import Mathlib.Algebra.GroupWithZero.Nat

/-!
# `CongestionObservatory.Lib.Framing`: messages in a stream that arrives in pieces

A sender writes the codes of its messages one after the other. A receiver gets the stream in
pieces, cut anywhere, keeps what it has not read yet in a buffer of a bounded size, and reads
messages off the front of the buffer as long as there is a whole one.

What the receiver must have read is a matter of sizes: after `n` symbols the messages that lie
wholly in them, which are the first `whole sizes n`, and the buffer holds what follows the
`boundary sizes n`. `Delimits scan cap code a` is what one message asks of the reader: it finds
`a` when the buffer starts with the code, and it asks for more when the buffer is a part of the
code. Both only for buffers of at most `cap` symbols, since a larger one never exists.
`drain_eq` is then the whole reader on any part of the stream.
-/

set_option autoImplicit false

namespace Lib.Framing

variable {α β ε : Type}

/-! ### Sizes -/

/-- How many messages of the given sizes lie wholly in the first `n` symbols. -/
def whole : List Nat → Nat → Nat
  | [], _ => 0
  | size :: rest, n => if size ≤ n then whole rest (n - size) + 1 else 0

/-- Where the first message starts that does not lie wholly in the first `n` symbols. -/
def boundary (sizes : List Nat) (n : Nat) : Nat := (sizes.take (whole sizes n)).sum

theorem whole_le_length (sizes : List Nat) (n : Nat) : whole sizes n ≤ sizes.length := by
  induction sizes generalizing n with
  | nil => exact Nat.le_refl 0
  | cons size rest ih =>
      have hrest := ih (n - size)
      simp only [whole, List.length_cons]
      split <;> omega

theorem boundary_le (sizes : List Nat) (n : Nat) : boundary sizes n ≤ n := by
  induction sizes generalizing n with
  | nil => simp [boundary]
  | cons size rest ih =>
      have hrest := ih (n - size)
      by_cases hsize : size ≤ n
      · simp only [boundary, whole, if_pos hsize, List.take_succ_cons, List.sum_cons] at hrest ⊢
        omega
      · simp [boundary, whole, if_neg hsize]

/-- `whole` counts what its name says: the first `k` messages end within `n` symbols exactly when
`k` is not above it. -/
theorem sum_take_le_iff {sizes : List Nat} (n : Nat) {k : Nat} (hk : k ≤ sizes.length) :
    (sizes.take k).sum ≤ n ↔ k ≤ whole sizes n := by
  induction sizes generalizing n k with
  | nil =>
      obtain rfl : k = 0 := Nat.le_zero.mp hk
      simp
  | cons size rest ih =>
      cases k with
      | zero => simp
      | succ k =>
          have hrest := ih (n - size) (Nat.le_of_succ_le_succ hk)
          by_cases hsize : size ≤ n
          · simp only [List.take_succ_cons, List.sum_cons, whole, if_pos hsize]
            omega
          · simp only [List.take_succ_cons, List.sum_cons, whole, if_neg hsize]
            omega

/-- The whole stream holds every message. -/
theorem whole_sum (sizes : List Nat) : whole sizes sizes.sum = sizes.length := by
  apply Nat.le_antisymm (whole_le_length sizes _)
  have hall := sum_take_le_iff sizes.sum (Nat.le_refl sizes.length)
  rw [List.take_length] at hall
  exact hall.mp (Nat.le_refl _)

theorem boundary_sum (sizes : List Nat) : boundary sizes sizes.sum = sizes.sum := by
  rw [boundary, whole_sum, List.take_length]

/-- Counting goes on where it stopped: from `n` symbols to `n + m`, the messages that become
whole are counted from the boundary. -/
theorem whole_add (sizes : List Nat) (n m : Nat) :
    whole sizes (n + m)
      = whole sizes n + whole (sizes.drop (whole sizes n)) (n + m - boundary sizes n) := by
  induction sizes generalizing n with
  | nil => simp [whole]
  | cons size rest ih =>
      by_cases hsize : size ≤ n
      · have hsize' : size ≤ n + m := Nat.le_add_right_of_le hsize
        have hle := boundary_le rest (n - size)
        have hsub : n + m - size = n - size + m := by omega
        have hstart : n + m - boundary (size :: rest) n = n - size + m - boundary rest (n - size) := by
          simp only [boundary, whole, if_pos hsize, List.take_succ_cons, List.sum_cons] at hle ⊢
          omega
        rw [hstart]
        simp only [whole, if_pos hsize, if_pos hsize', hsub, ih (n - size), List.drop_succ_cons]
        omega
      · simp [whole, boundary, if_neg hsize]

theorem boundary_add (sizes : List Nat) (n m : Nat) :
    boundary sizes (n + m) = boundary sizes n
      + boundary (sizes.drop (whole sizes n)) (n + m - boundary sizes n) := by
  simp only [boundary]
  rw [whole_add, List.take_add, List.sum_append]
  rfl

/-- Messages of positive sizes are not more than the symbols they lie in. -/
theorem whole_le {sizes : List Nat} (hpos : ∀ size ∈ sizes, 0 < size) (n : Nat) :
    whole sizes n ≤ n := by
  induction sizes generalizing n with
  | nil => exact Nat.zero_le n
  | cons size rest ih =>
      have hsize := hpos size List.mem_cons_self
      have hrest := ih (fun size h => hpos size (List.mem_cons_of_mem _ h)) (n - size)
      simp only [whole]
      split <;> omega

/-- Behind the boundary no message is whole. -/
theorem whole_drop (sizes : List Nat) (n : Nat) :
    whole (sizes.drop (whole sizes n)) (n - boundary sizes n) = 0 := by
  have hagain := whole_add sizes n 0
  simp only [Nat.add_zero] at hagain
  omega

/-! ### Reading -/

/-- Reads messages off the front of the buffer until there is no whole one, at most `fuel` of
them: the messages, the error that ended the reading, if any, and what is left. -/
def drain (scan : List β → Except ε (Option (α × List β))) :
    Nat → List β → List α × Option ε × List β
  | 0, buffer => ([], none, buffer)
  | fuel + 1, buffer =>
    match scan buffer with
    | .error e => ([], some e, buffer)
    | .ok none => ([], none, buffer)
    | .ok (some (a, rest)) =>
      let (as, failure, left) := drain scan fuel rest
      (a :: as, failure, left)

/-- The reader tells where the code of a message ends, in buffers of at most `cap` symbols. -/
structure Delimits (scan : List β → Except ε (Option (α × List β))) (cap : Nat)
    (code : List β) (a : α) : Prop where
  pos : 0 < code.length
  whole : ∀ rest, (code ++ rest).length ≤ cap → scan (code ++ rest) = .ok (some (a, rest))
  short : ∀ buffer, buffer <+: code → buffer.length < code.length → buffer.length ≤ cap →
    scan buffer = .ok none

/-- A part of a stream is a part of its first code, or that code and a part of the others. -/
theorem prefix_append_cases {code tail buffer : List β} (h : buffer <+: code ++ tail) :
    (buffer <+: code ∧ buffer.length < code.length) ∨ ∃ rest, buffer = code ++ rest ∧ rest <+: tail := by
  rcases Nat.lt_or_ge buffer.length code.length with hlt | hge
  · exact Or.inl ⟨List.prefix_of_prefix_length_le h (List.prefix_append code tail)
      (Nat.le_of_lt hlt), hlt⟩
  · have hcode := List.prefix_of_prefix_length_le (List.prefix_append code tail) h hge
    obtain ⟨rest, rfl⟩ := hcode
    exact Or.inr ⟨rest, rfl, (List.prefix_append_right_inj code).mp h⟩

section

variable {scan : List β → Except ε (Option (α × List β))} {cap : Nat} {codes : List (List β)}
  {as : List α}

/-- The reader on any part of a stream finds the messages that are whole and leaves the rest. -/
theorem drain_eq (h : List.Forall₂ (Delimits scan cap) codes as) (hempty : scan [] = .ok none)
    {buffer : List β} (hbuffer : buffer <+: codes.flatten) (hcap : buffer.length ≤ cap)
    {fuel : Nat} (hfuel : whole (codes.map List.length) buffer.length < fuel) :
    drain scan fuel buffer
      = (as.take (whole (codes.map List.length) buffer.length), none,
          buffer.drop (boundary (codes.map List.length) buffer.length)) := by
  induction h generalizing buffer fuel with
  | nil =>
      obtain rfl : buffer = [] := List.prefix_nil.mp hbuffer
      obtain ⟨fuel, rfl⟩ := Nat.exists_eq_add_one_of_ne_zero (Nat.ne_of_gt hfuel)
      simp [drain, hempty, whole, boundary]
  | @cons code a codes as hcode _ ih =>
      obtain ⟨fuel, rfl⟩ := Nat.exists_eq_add_one_of_ne_zero (Nat.ne_of_gt (Nat.zero_lt_of_lt hfuel))
      rw [List.flatten_cons] at hbuffer
      rcases prefix_append_cases hbuffer with ⟨hpart, hlt⟩ | ⟨rest, rfl, hrest⟩
      · -- The first message is not whole, so nothing is read.
        have hnone : whole (code.length :: codes.map List.length) buffer.length = 0 := by
          simp [whole, Nat.not_le.mpr hlt]
        simp [drain, hcode.short buffer hpart hlt hcap, boundary, hnone]
      · -- It is whole. The reader goes on behind it, with what is left of the buffer.
        have hone : whole (code.length :: codes.map List.length) (code ++ rest).length
            = whole (codes.map List.length) rest.length + 1 := by
          simp [whole]
        have hstart : boundary (code.length :: codes.map List.length) (code ++ rest).length
            = code.length + boundary (codes.map List.length) rest.length := by
          rw [boundary, hone]
          simp [boundary]
        rw [List.map_cons, hone] at hfuel
        have hcap' : rest.length ≤ cap := by
          rw [List.length_append] at hcap
          omega
        have hread := ih hrest hcap' (Nat.lt_of_succ_lt_succ hfuel)
        rw [List.map_cons, hone, hstart, List.take_succ_cons, List.drop_length_add_append]
        simp only [drain, hcode.whole rest hcap, hread]

/-! ### Receiving -/

/-- What a receiver says to a piece: whether it took it, the messages it then read, and the error
that ended the reading, if any. -/
structure Received (ε α : Type) where
  taken : Bool
  messages : List α
  failure : Option ε

/-- A piece is taken when it fits into the buffer, and then the buffer is read. -/
def receive (scan : List β → Except ε (Option (α × List β))) (cap : Nat) (buffer piece : List β) :
    Received ε α × List β :=
  if buffer.length + piece.length ≤ cap then
    let (messages, failure, left) := drain scan (buffer.length + piece.length + 1) (buffer ++ piece)
    ({ taken := true, messages := messages, failure := failure }, left)
  else ({ taken := false, messages := [], failure := none }, buffer)

theorem sizes_pos (h : List.Forall₂ (Delimits scan cap) codes as) :
    ∀ size ∈ codes.map List.length, 0 < size := by
  induction h with
  | nil => simp
  | cons hcode _ ih =>
      rw [List.map_cons]
      exact List.forall_mem_cons.mpr ⟨hcode.pos, ih⟩

/-- A receiver in the middle of a stream: what it holds and what is still to come are a part of
the codes from some message on, and it holds no message wholly. -/
structure Inside (scan : List β → Except ε (Option (α × List β))) (cap : Nat)
    (codes : List (List β)) (as : List α) (buffer tail : List β) : Prop where
  delimits : List.Forall₂ (Delimits scan cap) codes as
  inside : buffer ++ tail <+: codes.flatten
  short : whole (codes.map List.length) buffer.length = 0

/-- A piece of a stream that does not fit is refused, and nothing changes. -/
theorem receive_refused {buffer piece : List β} (hcap : ¬ buffer.length + piece.length ≤ cap) :
    receive scan cap buffer piece = ({ taken := false, messages := [], failure := none }, buffer) := by
  rw [receive, if_neg hcap]

/-- A piece of a stream that fits: the messages it completes are read and no other. -/
theorem Inside.receive_eq {buffer piece tail : List β}
    (h : Inside scan cap codes as buffer (piece ++ tail)) (hempty : scan [] = .ok none)
    (hcap : buffer.length + piece.length ≤ cap) :
    receive scan cap buffer piece
      = ({ taken := true
           messages := as.take (whole (codes.map List.length) (buffer.length + piece.length))
           failure := none },
          (buffer ++ piece).drop
            (boundary (codes.map List.length) (buffer.length + piece.length))) := by
  have hpart : buffer ++ piece <+: codes.flatten := by
    apply List.IsPrefix.trans _ h.inside
    rw [← List.append_assoc]
    exact List.prefix_append _ _
  have hfuel := whole_le (sizes_pos h.delimits) (buffer ++ piece).length
  have hread := drain_eq h.delimits hempty hpart (by rwa [List.length_append])
    (Nat.lt_succ_of_le hfuel)
  rw [List.length_append] at hread
  simp only [receive, if_pos hcap, hread]

/-- Behind such a piece the receiver is in the middle of the messages that were not whole. -/
theorem Inside.next {buffer piece tail : List β}
    (h : Inside scan cap codes as buffer (piece ++ tail)) :
    Inside scan cap (codes.drop (whole (codes.map List.length) (buffer.length + piece.length)))
      (as.drop (whole (codes.map List.length) (buffer.length + piece.length)))
      ((buffer ++ piece).drop (boundary (codes.map List.length) (buffer.length + piece.length)))
      tail := by
  have hle := boundary_le (codes.map List.length) (buffer.length + piece.length)
  have hshort := whole_drop (codes.map List.length) (buffer.length + piece.length)
  refine ⟨List.forall₂_drop _ h.delimits, ?_, ?_⟩
  · -- The codes of the messages that were whole end at the boundary.
    obtain ⟨after, hafter⟩ := h.inside
    refine ⟨after, ?_⟩
    have hle' : boundary (codes.map List.length) (buffer.length + piece.length)
        ≤ (buffer ++ piece).length := by
      rw [List.length_append]
      exact hle
    rw [List.append_assoc, ← List.drop_append_of_le_length hle', List.append_assoc,
      ← List.append_assoc piece, ← List.append_assoc, hafter]
    exact List.drop_sum_flatten codes _
  · rw [List.length_drop, List.length_append, List.map_drop]
    exact hshort

/-- The symbols in the first `n` pieces. -/
def fed (pieces : List (List β)) (n : Nat) : Nat := (pieces.take n).flatten.length

/-- A receiver that took every piece of a part of a stream has read the messages that are whole in
it, without an error, and holds what follows them. -/
theorem Inside.run_receive {buffer : List β} (pieces : List (List β))
    (h : Inside scan cap codes as buffer pieces.flatten) (hempty : scan [] = .ok none)
    (htaken : ∀ entry ∈ trace (receive scan cap) buffer pieces, entry.2.taken = true) :
    (∀ entry ∈ trace (receive scan cap) buffer pieces, entry.2.failure = none) ∧
      (trace (receive scan cap) buffer pieces).flatMap (fun entry => entry.2.messages)
        = as.take (whole (codes.map List.length) (buffer.length + pieces.flatten.length)) ∧
      run (receive scan cap) buffer pieces
        = (buffer ++ pieces.flatten).drop
            (boundary (codes.map List.length) (buffer.length + pieces.flatten.length)) := by
  induction pieces generalizing codes as buffer with
  | nil =>
      have hstart : boundary (codes.map List.length) buffer.length = 0 := by
        simp [boundary, h.short]
      simp [trace, run, h.short, hstart]
  | cons piece rest ih =>
      rw [List.flatten_cons] at h ⊢
      simp only [trace, List.forall_mem_cons] at htaken ⊢
      have hcap : buffer.length + piece.length ≤ cap := by
        by_contra hnot
        rw [receive_refused hnot] at htaken
        exact Bool.false_ne_true htaken.1
      have hstep := h.receive_eq hempty hcap
      simp only [hstep, run, List.flatMap_cons] at htaken ⊢
      -- From here on the stream is the one of the messages not yet whole.
      obtain ⟨hfailures, hmessages, hrun⟩ := ih h.next htaken.2
      have hle := boundary_le (codes.map List.length) (buffer.length + piece.length)
      have hheld : ((buffer ++ piece).drop (boundary (codes.map List.length)
          (buffer.length + piece.length))).length + rest.flatten.length
          = buffer.length + piece.length + rest.flatten.length
            - boundary (codes.map List.length) (buffer.length + piece.length) := by
        rw [List.length_drop, List.length_append]
        omega
      rw [hheld, List.map_drop] at hmessages hrun
      rw [List.length_append, ← Nat.add_assoc]
      refine ⟨⟨trivial, hfailures⟩, ?_, ?_⟩
      · rw [hmessages, whole_add _ (buffer.length + piece.length), List.take_add]
      · rw [← List.length_append] at hle
        rw [hrun, boundary_add _ (buffer.length + piece.length), ← List.append_assoc,
          ← List.drop_drop, ← List.length_append, List.drop_append_of_le_length hle]

/-- Every piece of a part of a stream is taken exactly when each ends no more than `cap` symbols
behind the boundary it meets. -/
theorem Inside.taken_iff {buffer : List β} (pieces : List (List β))
    (h : Inside scan cap codes as buffer pieces.flatten) (hempty : scan [] = .ok none) :
    (∀ entry ∈ trace (receive scan cap) buffer pieces, entry.2.taken = true) ↔
      ∀ n < pieces.length, buffer.length + fed pieces (n + 1)
        ≤ boundary (codes.map List.length) (buffer.length + fed pieces n) + cap := by
  induction pieces generalizing codes as buffer with
  | nil => simp [trace]
  | cons piece rest ih =>
      rw [List.flatten_cons] at h
      have hstart : boundary (codes.map List.length) buffer.length = 0 := by
        simp [boundary, h.short]
      simp only [trace, List.forall_mem_cons, List.length_cons, Nat.forall_lt_succ_left]
      have hfirst : buffer.length + fed (piece :: rest) (0 + 1)
            ≤ boundary (codes.map List.length) (buffer.length + fed (piece :: rest) 0) + cap
          ↔ buffer.length + piece.length ≤ cap := by
        simp [fed, hstart]
      rw [hfirst]
      by_cases hcap : buffer.length + piece.length ≤ cap
      · have hle := boundary_le (codes.map List.length) (buffer.length + piece.length)
        have hstep := h.receive_eq hempty hcap
        simp only [hstep, hcap, true_and, ih h.next]
        apply forall₂_congr
        intro n hn
        have hfed : ∀ m, fed (piece :: rest) (m + 1) = piece.length + fed rest m := by
          intro m
          simp [fed]
        have hheld : ∀ m, ((buffer ++ piece).drop (boundary (codes.map List.length)
            (buffer.length + piece.length))).length + fed rest m
            = buffer.length + piece.length + fed rest m
              - boundary (codes.map List.length) (buffer.length + piece.length) := by
          intro m
          rw [List.length_drop, List.length_append]
          omega
        rw [hheld, hheld, hfed, hfed, ← Nat.add_assoc, ← Nat.add_assoc, List.map_drop,
          boundary_add _ (buffer.length + piece.length)]
        omega
      · simp [receive_refused hcap, hcap]

end

end Lib.Framing
