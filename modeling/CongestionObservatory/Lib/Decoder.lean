import Mathlib.Data.List.Basic
import Mathlib.Control.Basic

/-!
# `CongestionObservatory.Lib.Decoder`: readers with a sticky failure

A `Decoder` reads a value off a `Cursor`, the bytes that are left and the first failure noted so
far. It has two ways to go wrong. It may stop with an error, or it may note a failure and go on:
the reader of a program that checks a flag at the end, and not after every field, works that way.
A result is `Rejected` when it is an error or carries a noted failure.

`Reads d bytes fits a` is the specification of a decoder against the bytes a writer wrote. When
`fits` holds, `d` reads the bytes as `a` and leaves what follows them. When it does not, the
result is rejected, whatever follows. The rules put decoders together: `Reads.seq` for the fields
of a record, `Reads.loop` for the elements of a list. Each asks that a later decoder does not
clear an earlier failure, which is `Sticky`.

Two more specifications are about bytes nobody wrote. `Consumes d n`: whenever `d` succeeds without
a failure, it has used exactly `n` bytes. `Yields d P`: every value `d` returns satisfies `P`,
whether or not a failure was noted on the way.
-/

set_option autoImplicit false

namespace Lib

/-- The bytes left to read and the first failure noted. -/
structure Cursor (φ : Type) where
  rest : List UInt8
  failure : Option φ

/-- A reader of `α`, with failures in `φ` and errors in `ε`. -/
abbrev Decoder (φ ε α : Type) := StateT (Cursor φ) (Except ε) α

variable {φ ε α β γ : Type}

/-- An error, or a success with a failure noted. -/
def Rejected (result : Except ε (α × Cursor φ)) : Prop :=
  ∀ a c, result = .ok (a, c) → c.failure ≠ none

/-- A failure noted before the decoder is still noted after it. -/
def Sticky (d : Decoder φ ε α) : Prop := ∀ c, c.failure ≠ none → Rejected (d c)

/-- The decoder reads the bytes as `a` when they fit, and its result is rejected otherwise. -/
structure Reads (d : Decoder φ ε α) (bytes : List UInt8) (fits : Prop) (a : α) : Prop where
  accepts : fits → ∀ rest, d ⟨bytes ++ rest, none⟩ = .ok (a, ⟨rest, none⟩)
  rejects : ¬ fits → ∀ rest, Rejected (d ⟨bytes ++ rest, none⟩)

namespace Decoder

/-- The first failure is noted, a later one is not. -/
def note (failure : φ) : Decoder φ ε Unit := fun c =>
  .ok ((), { c with failure := some (c.failure.getD failure) })

/-- Whether no failure is noted. -/
def ok : Decoder φ ε Bool := fun c => .ok (c.failure.isNone, c)

/-- The loop that runs its body a number of times, as long as no failure is noted. -/
def loop (body : β → Decoder φ ε β) : Nat → β → Decoder φ ε β
  | 0, b => pure b
  | n + 1, b => do
    if ← ok then
      let b ← body b
      loop body n b
    else pure b

end Decoder

theorem rejected_error (e : ε) : Rejected (.error e : Except ε (α × Cursor φ)) := by
  intro a c h
  cases h

theorem rejected_ok {a : α} {c : Cursor φ} (h : c.failure ≠ none) :
    Rejected (.ok (a, c) : Except ε (α × Cursor φ)) := by
  intro a' c' heq
  cases heq
  exact h

/-! ### Sticky decoders -/

theorem Sticky.pure (a : α) : Sticky (pure a : Decoder φ ε α) := fun _ hc => rejected_ok hc

theorem Sticky.throw (e : ε) : Sticky (throw e : Decoder φ ε α) := fun _ _ => rejected_error e

theorem Sticky.note (failure : φ) : Sticky (Decoder.note failure : Decoder φ ε Unit) :=
  fun _ _ => rejected_ok (by simp)

/-- A rejected result stays rejected in a sticky continuation. -/
theorem Rejected.bind {d : Decoder φ ε α} {k : α → Decoder φ ε β} {c : Cursor φ}
    (h : Rejected (d c)) (hk : ∀ a, Sticky (k a)) : Rejected ((d >>= k) c) := by
  show Rejected (Except.bind (d c) fun p => k p.1 p.2)
  cases hd : d c with
  | error e => exact rejected_error e
  | ok p => exact hk p.1 p.2 (h p.1 p.2 hd)

theorem Sticky.bind {d : Decoder φ ε α} {k : α → Decoder φ ε β} (hd : Sticky d)
    (hk : ∀ a, Sticky (k a)) : Sticky (d >>= k) := fun c hc => (hd c hc).bind hk

theorem Sticky.map {d : Decoder φ ε α} (f : α → β) (hd : Sticky d) : Sticky (f <$> d) :=
  hd.bind fun a => Sticky.pure (f a)

theorem Sticky.seq {df : Decoder φ ε (α → β)} {d : Decoder φ ε α} (hf : Sticky df)
    (hd : Sticky d) : Sticky (df <*> d) :=
  hf.bind fun f => hd.map f

/-- With a failure noted the body is not run at all. -/
theorem Sticky.loop (body : β → Decoder φ ε β) (n : Nat) (b : β) :
    Sticky (Decoder.loop body n b) := by
  intro c hc
  have hstop : Decoder.loop body n b c = .ok (b, c) := by
    cases n with
    | zero => rfl
    | succ n =>
        show (if c.failure.isNone = true then _ else Pure.pure b : Decoder φ ε β) c = _
        rw [if_neg (by simpa using hc)]
        rfl
  rw [hstop]
  exact rejected_ok hc

/-! ### Reading what was written -/

theorem Reads.congr {d : Decoder φ ε α} {bytes : List UInt8} {fits fits' : Prop} {a : α}
    (h : Reads d bytes fits a) (hiff : fits ↔ fits') : Reads d bytes fits' a :=
  ⟨fun hfits => h.accepts (hiff.mpr hfits), fun hfits => h.rejects fun h' => hfits (hiff.mp h')⟩

theorem Reads.pure (a : α) : Reads (pure a : Decoder φ ε α) [] True a :=
  ⟨fun _ _ => rfl, fun h => absurd trivial h⟩

theorem Reads.bind {d : Decoder φ ε α} {k : α → Decoder φ ε β} {bytes bytes' : List UInt8}
    {fits fits' : Prop} {a : α} {b : β} (hd : Reads d bytes fits a) (hsticky : ∀ a, Sticky (k a))
    (hk : Reads (k a) bytes' fits' b) : Reads (d >>= k) (bytes ++ bytes') (fits ∧ fits') b := by
  have hrun : fits → ∀ rest, (d >>= k) ⟨bytes ++ bytes' ++ rest, none⟩
      = k a ⟨bytes' ++ rest, none⟩ := by
    intro hfits rest
    show Except.bind (d ⟨bytes ++ bytes' ++ rest, none⟩) (fun p => k p.1 p.2) = _
    rw [List.append_assoc, hd.accepts hfits]
    rfl
  constructor
  · rintro ⟨hfits, hfits'⟩ rest
    rw [hrun hfits, hk.accepts hfits']
  · intro hnot rest
    by_cases hfits : fits
    · rw [hrun hfits]
      exact hk.rejects (fun hfits' => hnot ⟨hfits, hfits'⟩) rest
    · rw [List.append_assoc]
      exact (hd.rejects hfits _).bind hsticky

theorem Reads.map {d : Decoder φ ε α} {bytes : List UInt8} {fits : Prop} {a : α} (f : α → β)
    (h : Reads d bytes fits a) : Reads (f <$> d) bytes fits (f a) := by
  have hbind := h.bind (fun a => Sticky.pure (f a)) (Reads.pure (f a))
  rw [List.append_nil] at hbind
  exact hbind.congr (and_iff_left trivial)

/-- The fields of a record, one after the other. -/
theorem Reads.seq {df : Decoder φ ε (α → β)} {d : Decoder φ ε α} {bytes bytes' : List UInt8}
    {fits fits' : Prop} {f : α → β} {a : α} (hf : Reads df bytes fits f)
    (h : Reads d bytes' fits' a) (hsticky : Sticky d) :
    Reads (df <*> d) (bytes ++ bytes') (fits ∧ fits') (f a) :=
  hf.bind (fun g => hsticky.map g) (h.map f)

/-- The elements of a list, one after the other. The state after the elements `l` is `acc l`,
and the body reads an element from the state before it. -/
theorem Reads.loop {body : β → Decoder φ ε β} {write : α → List UInt8} {fits : α → Prop}
    (acc : List α → β) (l done : List α)
    (hbody : ∀ before a after, done ++ l = before ++ a :: after →
      Reads (body (acc before)) (write a) (fits a) (acc (before ++ [a]))) :
    Reads (Decoder.loop body l.length (acc done)) (l.flatMap write) (∀ a ∈ l, fits a)
      (acc (done ++ l)) := by
  -- The induction is on the elements to come, and `done` are those already read.
  induction l generalizing done with
  | nil =>
      rw [List.append_nil]
      exact (Reads.pure (acc done)).congr (by simp)
  | cons a rest ih =>
      have hhead := hbody done a rest rfl
      have htail := ih (done ++ [a]) fun before b after hsplit =>
        hbody before b after (by rw [← hsplit]; simp)
      rw [List.append_assoc, List.singleton_append] at htail
      have hboth := hhead.bind (fun b => Sticky.loop body rest.length b) htail
      rw [List.flatMap_cons]
      constructor
      · intro hfits tail
        have haccepts := hboth.accepts
          ⟨hfits a List.mem_cons_self, fun b hb => hfits b (List.mem_cons_of_mem _ hb)⟩ tail
        exact haccepts
      · intro hnot tail
        refine hboth.rejects (fun hfits => hnot ?_) tail
        exact List.forall_mem_cons.mpr hfits

/-! ### Bytes used -/

/-- A success without a failure uses a fixed number of bytes. -/
def Consumes (d : Decoder φ ε α) (n : Nat) : Prop :=
  ∀ c a c', d c = .ok (a, c') → c'.failure = none → c.rest.length = c'.rest.length + n

/-- A success of two decoders is a success of the first and of the second after it. -/
theorem Decoder.bind_eq_ok {d : Decoder φ ε α} {k : α → Decoder φ ε β} {c : Cursor φ}
    {r : β × Cursor φ} :
    (d >>= k) c = .ok r ↔ ∃ a c', d c = .ok (a, c') ∧ k a c' = .ok r := by
  show Except.bind (d c) (fun p => k p.1 p.2) = .ok r ↔ _
  cases d c with
  | error e => simp [Except.bind]
  | ok p =>
      obtain ⟨a, c'⟩ := p
      simp [Except.bind]

theorem Consumes.pure (a : α) : Consumes (pure a : Decoder φ ε α) 0 := by
  intro c a' c' h _
  cases h
  rfl

theorem Consumes.bind {d : Decoder φ ε α} {k : α → Decoder φ ε β} {m n : Nat} (hd : Consumes d m)
    (hk : ∀ a, Consumes (k a) n) (hsticky : ∀ a, Sticky (k a)) : Consumes (d >>= k) (m + n) := by
  intro c b c'' h hnone
  obtain ⟨a, c', hfirst, hsecond⟩ := Decoder.bind_eq_ok.mp h
  -- A failure in between would still be there at the end.
  have hmiddle : c'.failure = none := by
    by_contra hfailure
    exact hsticky a c' hfailure b c'' hsecond hnone
  have hm := hd c a c' hfirst hmiddle
  have hn := hk a c' b c'' hsecond hnone
  omega

theorem Consumes.map {d : Decoder φ ε α} {n : Nat} (f : α → β) (h : Consumes d n) :
    Consumes (f <$> d) n :=
  h.bind (fun a => Consumes.pure (f a)) fun a => Sticky.pure (f a)

theorem Consumes.seq {df : Decoder φ ε (α → β)} {d : Decoder φ ε α} {m n : Nat}
    (hf : Consumes df m) (h : Consumes d n) (hsticky : Sticky d) : Consumes (df <*> d) (m + n) :=
  hf.bind (fun f => h.map f) fun f => hsticky.map f

/-- A loop that ends without a failure ran its body as often as it was asked to. -/
theorem Decoder.loop_invariant {body : β → Decoder φ ε β} (P : Nat → β → Cursor φ → Prop)
    (hbody : ∀ k b c b' c', P k b c → body b c = .ok (b', c') → c'.failure = none → P (k + 1) b' c')
    (n : Nat) {k : Nat} {b b' : β} {c c' : Cursor φ} (hstart : P k b c)
    (h : Decoder.loop body n b c = .ok (b', c')) (hnone : c'.failure = none) : P (k + n) b' c' := by
  induction n generalizing k b c with
  | zero =>
      cases h
      exact hstart
  | succ n ih =>
      by_cases hc : c.failure = none
      · have hrun : Decoder.loop body (n + 1) b c = (body b >>= Decoder.loop body n) c := by
          show (if c.failure.isNone = true then _ else Pure.pure b : Decoder φ ε β) c = _
          rw [if_pos (by simp [hc])]
        rw [hrun] at h
        obtain ⟨b₁, c₁, hfirst, hrest⟩ := Decoder.bind_eq_ok.mp h
        have hmiddle : c₁.failure = none := by
          by_contra hfailure
          exact Sticky.loop body n b₁ c₁ hfailure b' c' hrest hnone
        have hnext := ih (hbody k b c b₁ c₁ hstart hfirst hmiddle) hrest
        rwa [Nat.add_right_comm] at hnext
      · exact absurd hnone (Sticky.loop body (n + 1) b c hc b' c' h)

theorem Consumes.loop {body : β → Decoder φ ε β} {m : Nat} (h : ∀ b, Consumes (body b) m)
    (n : Nat) (b : β) : Consumes (Decoder.loop body n b) (n * m) := by
  intro c b' c' hrun hnone
  have hstep : ∀ k (b₁ : β) c₁ (b₂ : β) c₂, c.rest.length = c₁.rest.length + k * m →
      body b₁ c₁ = .ok (b₂, c₂) → c₂.failure = none →
      c.rest.length = c₂.rest.length + (k + 1) * m := by
    intro k b₁ c₁ b₂ c₂ hk hbody hmiddle
    have hused := h b₁ c₁ b₂ c₂ hbody hmiddle
    rw [Nat.succ_mul]
    omega
  have hstart : c.rest.length = c.rest.length + 0 * m := by simp
  have hfinal := Decoder.loop_invariant (fun k _ c₁ => c.rest.length = c₁.rest.length + k * m)
    hstep n hstart hrun hnone
  rwa [Nat.zero_add] at hfinal

/-! ### Values returned -/

/-- Every value that the decoder returns has the property. -/
def Yields (d : Decoder φ ε α) (P : α → Prop) : Prop := ∀ c a c', d c = .ok (a, c') → P a

theorem Yields.pure {P : α → Prop} {a : α} (h : P a) : Yields (pure a : Decoder φ ε α) P := by
  intro c a' c' heq
  cases heq
  exact h

theorem Yields.throw {P : α → Prop} (e : ε) : Yields (throw e : Decoder φ ε α) P := by
  intro c a c' heq
  cases heq

theorem Yields.any (d : Decoder φ ε α) : Yields d fun _ => True := fun _ _ _ _ => trivial

theorem Yields.bind {d : Decoder φ ε α} {k : α → Decoder φ ε β} {P : α → Prop} {Q : β → Prop}
    (hd : Yields d P) (hk : ∀ a, P a → Yields (k a) Q) : Yields (d >>= k) Q := by
  intro c b c' h
  obtain ⟨a, c₁, hfirst, hsecond⟩ := Decoder.bind_eq_ok.mp h
  exact hk a (hd c a c₁ hfirst) c₁ b c' hsecond

theorem Yields.map {d : Decoder φ ε α} {f : α → β} {P : α → Prop} {Q : β → Prop}
    (hd : Yields d P) (hf : ∀ a, P a → Q (f a)) : Yields (f <$> d) Q :=
  hd.bind fun a ha => Yields.pure (hf a ha)

/-- One more field of a record. The record under construction waits for the field. -/
theorem Yields.seq {df : Decoder φ ε (α → β)} {d : Decoder φ ε α} {P : α → Prop} {Q : β → Prop}
    (hf : Yields df fun f => ∀ a, P a → Q (f a)) (hd : Yields d P) : Yields (df <*> d) Q :=
  hf.bind fun _ hg => hd.map hg

/-- A loop runs its body at most as often as it was asked to. -/
theorem Yields.loop {body : β → Decoder φ ε β} (P : Nat → β → Prop)
    (hmono : ∀ k b, P k b → P (k + 1) b) (hbody : ∀ k b, P k b → Yields (body b) (P (k + 1)))
    (n : Nat) {k : Nat} {b : β} (hstart : P k b) :
    Yields (Decoder.loop body n b) (P (k + n)) := by
  induction n generalizing k b with
  | zero => exact Yields.pure hstart
  | succ n ih =>
      rw [show k + (n + 1) = k + 1 + n by omega]
      refine Yields.bind (Yields.any _) fun running _ => ?_
      cases running with
      | true => exact (hbody k b hstart).bind fun b' hb' => ih hb'
      | false =>
          -- A noted failure ends the loop early, and the remaining rounds change nothing.
          have hrest : ∀ m, P (k + 1 + m) b := by
            intro m
            induction m with
            | zero => exact hmono k b hstart
            | succ m hm => exact hmono _ b hm
          exact Yields.pure (hrest n)

/-! ### Two readings of the same bytes -/

/-- What the first decoder reads without a failure, the second reads off the same bytes, with a
related value. The first decoder is sticky, so that decoders can follow each other. -/
structure Mirrors (d : Decoder φ ε α) (d' : Decoder φ ε β) (R : α → β → Prop) : Prop where
  sticky : Sticky d
  mirrors : ∀ c a c', d c = .ok (a, c') → c'.failure = none → ∃ b, d' c = .ok (b, c') ∧ R a b

section

variable {α' β' : Type} {R : α → α' → Prop} {S : β → β' → Prop}

theorem Mirrors.refl {d : Decoder φ ε α} (h : Sticky d) : Mirrors d d (· = ·) :=
  ⟨h, fun _ a _ hread _ => ⟨a, hread, rfl⟩⟩

theorem Mirrors.imp {d : Decoder φ ε α} {d' : Decoder φ ε α'} {R' : α → α' → Prop}
    (h : Mirrors d d' R) (himp : ∀ a b, R a b → R' a b) : Mirrors d d' R' := by
  refine ⟨h.sticky, fun c a c' hread hnone => ?_⟩
  obtain ⟨b, hb, hR⟩ := h.mirrors c a c' hread hnone
  exact ⟨b, hb, himp a b hR⟩

/-- A field that nothing is said about. -/
theorem Mirrors.any {d : Decoder φ ε α} (h : Sticky d) : Mirrors d d fun _ _ => True :=
  (Mirrors.refl h).imp fun _ _ _ => trivial

theorem Mirrors.pure {a : α} {b : α'} (h : R a b) :
    Mirrors (pure a : Decoder φ ε α) (pure b) R := by
  refine ⟨Sticky.pure a, fun c a' c' hread _ => ?_⟩
  cases hread
  exact ⟨b, rfl, h⟩

theorem Mirrors.throw (e : ε) (d' : Decoder φ ε α') : Mirrors (throw e : Decoder φ ε α) d' R := by
  refine ⟨Sticky.throw e, fun c a c' hread _ => ?_⟩
  cases hread

theorem Mirrors.bind {d : Decoder φ ε α} {d' : Decoder φ ε α'} {k : α → Decoder φ ε β}
    {k' : α' → Decoder φ ε β'} (hd : Mirrors d d' R) (hsticky : ∀ a, Sticky (k a))
    (hk : ∀ a b, R a b → Mirrors (k a) (k' b) S) : Mirrors (d >>= k) (d' >>= k') S := by
  refine ⟨hd.sticky.bind hsticky, fun c r c' hread hnone => ?_⟩
  obtain ⟨a, c₁, hfirst, hsecond⟩ := Decoder.bind_eq_ok.mp hread
  have hnone₁ : c₁.failure = none := by
    by_contra hfailure
    exact hsticky a c₁ hfailure r c' hsecond hnone
  obtain ⟨b, hb, hR⟩ := hd.mirrors c a c₁ hfirst hnone₁
  obtain ⟨r', hr', hS⟩ := (hk a b hR).mirrors c₁ r c' hsecond hnone
  exact ⟨r', Decoder.bind_eq_ok.mpr ⟨b, c₁, hb, hr'⟩, hS⟩

theorem Mirrors.map {d : Decoder φ ε α} {d' : Decoder φ ε α'} {f : α → β} {f' : α' → β'}
    (hd : Mirrors d d' R) (hf : ∀ a b, R a b → S (f a) (f' b)) : Mirrors (f <$> d) (f' <$> d') S :=
  hd.bind (fun a => Sticky.pure (f a)) fun a b hR => Mirrors.pure (hf a b hR)

/-- A value that only the first decoder computes further. -/
theorem Mirrors.mapLeft {d : Decoder φ ε α} {d' : Decoder φ ε α'} {f : α → β} {S : β → α' → Prop}
    (hd : Mirrors d d' R) (hf : ∀ a b, R a b → S (f a) b) : Mirrors (f <$> d) d' S := by
  refine ⟨hd.sticky.map f, fun c r c' hread hnone => ?_⟩
  have hbind : (d >>= fun a => Pure.pure (f a)) c = .ok (r, c') := hread
  obtain ⟨a, c₁, hfirst, hsecond⟩ := Decoder.bind_eq_ok.mp hbind
  cases hsecond
  obtain ⟨b, hb, hR⟩ := hd.mirrors c a _ hfirst hnone
  exact ⟨b, hb, hf a b hR⟩

/-- One more field of two records. Both records wait for the field. -/
theorem Mirrors.seq {df : Decoder φ ε (α → β)} {df' : Decoder φ ε (α' → β')} {d : Decoder φ ε α}
    {d' : Decoder φ ε α'} (hf : Mirrors df df' fun f f' => ∀ a b, R a b → S (f a) (f' b))
    (hd : Mirrors d d' R) : Mirrors (df <*> d) (df' <*> d') S :=
  hf.bind (fun f => hd.sticky.map f) fun _ _ hS => hd.map hS

/-- Two loops with the same number of rounds. -/
theorem Mirrors.loop {body : β → Decoder φ ε β} {body' : β' → Decoder φ ε β'}
    (hbody : ∀ b b', S b b' → Mirrors (body b) (body' b') S) (n : Nat) {b : β} {b' : β'}
    (hstart : S b b') : Mirrors (Decoder.loop body n b) (Decoder.loop body' n b') S := by
  induction n generalizing b b' with
  | zero => exact Mirrors.pure hstart
  | succ n ih =>
      refine ⟨Sticky.loop body (n + 1) b, fun c r c' hread hnone => ?_⟩
      have hrunning : c.failure = none := by
        by_contra hfailure
        exact Sticky.loop body (n + 1) b c hfailure r c' hread hnone
      have hround : ∀ {γ : Type} (body : γ → Decoder φ ε γ) (g : γ),
          Decoder.loop body (n + 1) g c = (body g >>= Decoder.loop body n) c := by
        intro γ body g
        show (if c.failure.isNone = true then _ else Pure.pure g : Decoder φ ε γ) c = _
        rw [hrunning]
        rfl
      rw [hround] at hread ⊢
      exact ((hbody b b' hstart).bind (fun b => Sticky.loop body n b)
        fun _ _ hS => ih hS).mirrors c r c' hread hnone

end

end Lib
