import CongestionObservatory.Lib.Decoder
import Mathlib.Algebra.GroupWithZero.Nat

/-!
# `CongestionObservatory.Lib.MemoryReader`: reading a memory by index

A `Decoder` takes bytes off the front of a list and cannot look anywhere else. A program reads a
memory by index, and it computes the indexes with numbers of 64 bits. `Traced` is a run with its
trace: the result, and every byte, range, offset and round on the way to it. An `Access` is
`Safe` when a byte is inside its memory, a range is inside its memory, an offset does not wrap,
and a loop keeps to a count that is within a bound. A run is `Sound` when its trace is safe and a
success has noted no failure.

A `MemoryReader` reads a memory from where it stands. `Simulates d d'` says that the reader `d`
runs safely from every standing inside the memory and returns what the decoder `d'` returns on the
bytes from there on. The rules put readers together as the rules of `Decoder` do. What the decoder
`Yields` is known of the values of the reader too: a count is within its bound when the loop
starts.
-/

set_option autoImplicit false

namespace Lib

/-! ### Memory and traces -/

/-- The bytes of a container. Two pointers into it have a signed difference of 64 bits. -/
structure Memory where
  bytes : List UInt8
  length_lt : bytes.length < 2 ^ 63

namespace Memory

/-- The number of the bytes. -/
def size (m : Memory) : UInt64 := UInt64.ofNat m.bytes.length

@[simp] theorem toNat_size (m : Memory) : m.size.toNat = m.bytes.length := by
  have hlength := m.length_lt
  rw [size, UInt64.toNat_ofNat']
  exact Nat.mod_eq_of_lt (by omega)

/-- The bytes of a range, in a container of their own. -/
def slice (m : Memory) (offset length : UInt64) : Memory where
  bytes := (m.bytes.drop offset.toNat).take length.toNat
  length_lt := by
    have hlength := m.length_lt
    rw [List.length_take, List.length_drop]
    omega

end Memory

/-- What a run does with offsets and counts. -/
inductive Access where
  /-- A byte is read. -/
  | byte (index size : UInt64)
  /-- A range of bytes is read. -/
  | range (offset length size : UInt64)
  /-- An offset is computed. -/
  | sum (lhs rhs : UInt64)
  /-- A distance is computed. -/
  | difference (lhs rhs : UInt64)
  /-- A loop is entered. -/
  | counted (count bound : Nat)
  /-- The body of a loop is run. -/
  | round (index count : Nat)
  /-- A reader fails. -/
  | failure
  deriving DecidableEq

namespace Access

/-- The access is inside its memory, does not wrap, or keeps to its bound. -/
def Safe : Access → Prop
  | byte index size => index.toNat < size.toNat
  | range offset length size => offset.toNat + length.toNat ≤ size.toNat
  | sum lhs rhs => lhs.toNat + rhs.toNat < 2 ^ 64
  | difference lhs rhs => rhs.toNat ≤ lhs.toNat
  | counted count bound => count ≤ bound
  | round index count => index < count
  | failure => True

/-- A sum that does not wrap is the sum of the numbers. -/
theorem toNat_sum {lhs rhs : UInt64} (h : (sum lhs rhs).Safe) :
    (lhs + rhs).toNat = lhs.toNat + rhs.toNat := by
  rw [UInt64.toNat_add]
  exact Nat.mod_eq_of_lt h

theorem toNat_difference {lhs rhs : UInt64} (h : (difference lhs rhs).Safe) :
    (lhs - rhs).toNat = lhs.toNat - rhs.toNat :=
  UInt64.toNat_sub_of_le lhs rhs (UInt64.le_iff_toNat_le.mpr h)

end Access

/-- A run: its result, and what it did on the way. -/
structure Traced (ε α : Type) where
  result : Except ε α
  trace : List Access

variable {φ ε α β γ : Type}

namespace Traced

/-- The rest of a run is run when the first part succeeds. -/
def bind (t : Traced ε α) (k : α → Traced ε β) : Traced ε β :=
  match t.result with
  | .error e => ⟨.error e, t.trace⟩
  | .ok a => ⟨(k a).result, t.trace ++ (k a).trace⟩

instance : Monad (Traced ε) where
  pure a := ⟨.ok a, []⟩
  bind := bind

/-- A result that touches no memory. -/
def lift (result : Except ε α) : Traced ε α := ⟨result, []⟩

/-- An entry of the trace. -/
def record (access : Access) : Traced ε Unit := ⟨.ok (), [access]⟩

/-- Every access is safe. -/
def Safe (t : Traced ε α) : Prop := ∀ access ∈ t.trace, access.Safe

/-- A success has noted no failure. -/
def Clean (t : Traced ε α) : Prop := ∀ a, t.result = .ok a → Access.failure ∉ t.trace

/-- The run is safe, and what it returns was read without a failure. -/
structure Sound (t : Traced ε α) : Prop where
  safe : t.Safe
  clean : t.Clean

theorem bind_of_error {t : Traced ε α} {e : ε} (h : t.result = .error e)
    (k : α → Traced ε β) : t >>= k = ⟨.error e, t.trace⟩ := by
  show Traced.bind t k = _
  rw [Traced.bind, h]

theorem bind_of_ok {t : Traced ε α} {a : α} (h : t.result = .ok a) (k : α → Traced ε β) :
    t >>= k = ⟨(k a).result, t.trace ++ (k a).trace⟩ := by
  show Traced.bind t k = _
  rw [Traced.bind, h]

theorem result_bind (t : Traced ε α) (k : α → Traced ε β) :
    (t >>= k).result = t.result >>= fun a => (k a).result := by
  cases h : t.result with
  | error e =>
      rw [bind_of_error h]
      rfl
  | ok a =>
      rw [bind_of_ok h]
      rfl

/-- Both parts of a run are safe, the second as far as it is run. -/
theorem safe_bind_iff {t : Traced ε α} {k : α → Traced ε β} :
    (t >>= k).Safe ↔ t.Safe ∧ ∀ a, t.result = .ok a → (k a).Safe := by
  cases h : t.result with
  | error e =>
      rw [bind_of_error h]
      simp [Safe]
  | ok a =>
      rw [bind_of_ok h]
      simp [Safe, or_imp, forall_and]

theorem Clean.bind {t : Traced ε α} {k : α → Traced ε β} (ht : t.Clean)
    (hk : ∀ a, t.result = .ok a → (k a).Clean) : (t >>= k).Clean := by
  intro b hb
  cases h : t.result with
  | error e =>
      rw [bind_of_error h] at hb
      cases hb
  | ok a =>
      rw [bind_of_ok h] at hb ⊢
      rw [List.mem_append, not_or]
      exact ⟨ht a h, hk a h b hb⟩

theorem Sound.bind {t : Traced ε α} {k : α → Traced ε β} (ht : t.Sound)
    (hk : ∀ a, t.result = .ok a → (k a).Sound) : (t >>= k).Sound :=
  ⟨safe_bind_iff.mpr ⟨ht.safe, fun a ha => (hk a ha).safe⟩,
    ht.clean.bind fun a ha => (hk a ha).clean⟩

theorem Sound.lift (result : Except ε α) : (lift result).Sound := by
  constructor
  · intro access haccess
    simp [Traced.lift] at haccess
  · intro a _
    simp [Traced.lift]

theorem Sound.pure (a : α) : (pure a : Traced ε α).Sound := Sound.lift (.ok a)

theorem safe_record {access : Access} : (record access : Traced ε Unit).Safe ↔ access.Safe := by
  simp [Safe, record]

theorem clean_record {access : Access} (h : access ≠ .failure) :
    (record access : Traced ε Unit).Clean := by
  intro a _
  simpa [record] using h.symm

theorem Sound.record {access : Access} (h : access.Safe) (hne : access ≠ .failure) :
    (record access : Traced ε Unit).Sound := ⟨safe_record.mpr h, clean_record hne⟩

end Traced

/-! ### Readers -/

/-- Where a reader stands, and the first failure noted. -/
structure Standing (φ : Type) where
  index : UInt64
  failure : Option φ
  deriving DecidableEq

namespace Standing

/-- The index is inside the memory or at its end. -/
def Within (p : Standing φ) (m : Memory) : Prop := p.index.toNat ≤ m.bytes.length

/-- What a decoder has before it at the index. -/
def cursor (p : Standing φ) (m : Memory) : Cursor φ := ⟨m.bytes.drop p.index.toNat, p.failure⟩

theorem length_cursor (p : Standing φ) (m : Memory) :
    (p.cursor m).rest.length = m.bytes.length - p.index.toNat := List.length_drop

/-- The start of a memory. -/
def start : Standing φ := ⟨0, none⟩

theorem within_start (m : Memory) : (start : Standing φ).Within m := Nat.zero_le _

end Standing

/-- A reader of `α`, with failures in `φ` and errors in `ε`. -/
abbrev MemoryReader (φ ε α : Type) := ReaderT Memory (StateT (Standing φ) (Traced ε)) α

namespace MemoryReader

/-- An entry of the trace. -/
def record (access : Access) : MemoryReader φ ε Unit := fun _ p => ⟨.ok ((), p), [access]⟩

/-- The size of the memory. -/
def size : MemoryReader φ ε UInt64 := fun m p => ⟨.ok (m.size, p), []⟩

/-- Where the reader stands. -/
def position : MemoryReader φ ε UInt64 := fun _ p => ⟨.ok (p.index, p), []⟩

/-- Whether no failure is noted. -/
def ok : MemoryReader φ ε Bool := fun _ p => ⟨.ok (p.failure.isNone, p), []⟩

/-- The first failure is noted, a later one is not. -/
def note (failure : φ) : MemoryReader φ ε Unit := fun _ p =>
  ⟨.ok ((), { p with failure := some (p.failure.getD failure) }), [.failure]⟩

/-- The sum of two offsets, in 64 bits. -/
def sum (lhs rhs : UInt64) : MemoryReader φ ε UInt64 := do
  record (.sum lhs rhs)
  pure (lhs + rhs)

/-- The difference of two offsets, in 64 bits. -/
def difference (lhs rhs : UInt64) : MemoryReader φ ε UInt64 := do
  record (.difference lhs rhs)
  pure (lhs - rhs)

/-- The reader moves on. -/
def advance (length : UInt64) : MemoryReader φ ε Unit := fun _ p =>
  ⟨.ok ((), { p with index := p.index + length }), [.sum p.index length]⟩

/-- The byte at an index. A byte outside of the memory is any byte. -/
def byteAt (index : UInt64) : MemoryReader φ ε UInt8 := fun m p =>
  ⟨.ok (m.bytes.getD index.toNat 0, p), [.byte index m.size]⟩

/-- The bytes of a range. -/
def bytesAt (offset length : UInt64) : MemoryReader φ ε (List UInt8) := fun m p =>
  ⟨.ok ((m.slice offset length).bytes, p), [.range offset length m.size]⟩

/-- The rounds of a loop that are left, as long as no failure is noted. -/
def rounds (body : β → MemoryReader φ ε β) (count : Nat) : Nat → β → MemoryReader φ ε β
  | 0, b => pure b
  | left + 1, b => do
    if ← ok then
      record (.round (count - (left + 1)) count)
      let b ← body b
      rounds body count left b
    else pure b

/-- The loop that runs its body `count` times, for a count that was checked against a bound. -/
def loop (bound : Nat) (body : β → MemoryReader φ ε β) (count : Nat) (b : β) :
    MemoryReader φ ε β := do
  record (.counted count bound)
  rounds body count count b

/-- An error that was found without a look at the memory. -/
def lift (result : Except ε α) : MemoryReader φ ε α := fun _ p =>
  ⟨result.map fun a => (a, p), []⟩

/-- Both readers are safe, the second where the first one ends. -/
theorem safe_bind_iff {d : MemoryReader φ ε α} {k : α → MemoryReader φ ε β} {m : Memory}
    {p : Standing φ} : ((d >>= k) m p).Safe ↔
      (d m p).Safe ∧ ∀ a p', (d m p).result = .ok (a, p') → (k a m p').Safe := by
  show (d m p >>= fun r => k r.1 m r.2).Safe ↔ _
  rw [Traced.safe_bind_iff]
  exact and_congr_right fun _ => Prod.forall

end MemoryReader

/-! ### Simulation -/

/-- From a standing, a run returns what a decoder returns, and does it safely. A failure in the
trace is still noted at the end. -/
inductive Tracks (m : Memory) (p : Standing φ) :
    Traced ε (α × Standing φ) → Except ε (α × Cursor φ) → Prop
  | error {e : ε} {trace : List Access} (safe : ∀ access ∈ trace, access.Safe) :
    Tracks m p ⟨.error e, trace⟩ (.error e)
  | ok {a : α} {p' : Standing φ} {trace : List Access} (safe : ∀ access ∈ trace, access.Safe)
    (within : p'.Within m)
    (clean : p'.failure = none → p.failure = none ∧ Access.failure ∉ trace) :
    Tracks m p ⟨.ok (a, p'), trace⟩ (.ok (a, p'.cursor m))

/-- From every standing inside the memory, the reader follows the decoder. -/
def Simulates (d : MemoryReader φ ε α) (d' : Decoder φ ε α) : Prop :=
  ∀ m p, p.Within m → Tracks m p (d m p) (d' (p.cursor m))

namespace Tracks

variable {m : Memory} {p : Standing φ}

theorem safe {t : Traced ε (α × Standing φ)} {r : Except ε (α × Cursor φ)} (h : Tracks m p t r) :
    t.Safe := by
  cases h with
  | error hsafe => exact hsafe
  | ok hsafe _ _ => exact hsafe

theorem within {t : Traced ε (α × Standing φ)} {r : Except ε (α × Cursor φ)} (h : Tracks m p t r)
    {a : α} {p' : Standing φ} (hresult : t.result = .ok (a, p')) : p'.Within m := by
  cases h with
  | error _ => cases hresult
  | ok _ hwithin _ =>
      cases hresult
      exact hwithin

/-- What a run returns, and where it stands then. -/
theorem result_eq {t : Traced ε (α × Standing φ)} {r : Except ε (α × Cursor φ)}
    (h : Tracks m p t r) : (fun r => (r.1, r.2.cursor m)) <$> t.result = r := by
  cases h with
  | error _ => rfl
  | ok _ _ _ => rfl

/-- What happened before, and then a run that tracks. -/
theorem prepend {p' : Standing φ} {t : Traced ε (α × Standing φ)} {r : Except ε (α × Cursor φ)}
    {trace : List Access} (safe : ∀ access ∈ trace, access.Safe)
    (clean : p'.failure = none → p.failure = none ∧ Access.failure ∉ trace)
    (h : Tracks m p' t r) : Tracks m p ⟨t.result, trace ++ t.trace⟩ r := by
  cases h with
  | error hsafe => exact .error (List.forall_mem_append.mpr ⟨safe, hsafe⟩)
  | ok hsafe within hclean =>
      refine .ok (List.forall_mem_append.mpr ⟨safe, hsafe⟩) within fun hnone => ?_
      -- A failure of either part would still be noted at the end.
      obtain ⟨hmiddle, htail⟩ := hclean hnone
      obtain ⟨hfirst, hhead⟩ := clean hmiddle
      exact ⟨hfirst, by simp [hhead, htail]⟩

variable {d : MemoryReader φ ε α} {k : α → MemoryReader φ ε β}

/-- A step that touches the memory, and then a run that tracks. -/
theorem step {p' : Standing φ} {a : α} {access : Access} {r : Except ε (β × Cursor φ)}
    (hd : d m p = ⟨.ok (a, p'), [access]⟩) (hsafe : access.Safe) (hne : access ≠ .failure)
    (hfailure : p'.failure = p.failure) (h : Tracks m p' (k a m p') r) :
    Tracks m p ((d >>= k) m p) r := by
  show Tracks m p (Traced.bind (d m p) fun r => k r.1 m r.2) r
  rw [hd]
  refine h.prepend (by simpa using hsafe) fun hnone => ⟨?_, by simpa using hne.symm⟩
  rw [← hfailure]
  exact hnone

/-- A run and a second one from where the first one ends. -/
theorem bind {d' : Decoder φ ε α} {k' : α → Decoder φ ε β}
    (hd : Tracks m p (d m p) (d' (p.cursor m)))
    (hk : ∀ a p', (d m p).result = .ok (a, p') → d' (p.cursor m) = .ok (a, p'.cursor m) →
      p'.Within m → Tracks m p' (k a m p') (k' a (p'.cursor m))) :
    Tracks m p ((d >>= k) m p) ((d' >>= k') (p.cursor m)) := by
  show Tracks m p (Traced.bind (d m p) fun r => k r.1 m r.2)
    (Except.bind (d' (p.cursor m)) fun r => k' r.1 r.2)
  generalize d m p = t at hd hk
  generalize d' (p.cursor m) = r at hd hk
  -- The second part is run where the first one succeeds.
  cases hd with
  | error safe => exact .error safe
  | ok safe within clean => exact (hk _ _ rfl rfl within).prepend safe clean

end Tracks

namespace Simulates

theorem pure (a : α) : Simulates (pure a : MemoryReader φ ε α) (pure a) := fun _ _ hp =>
  .ok (by simp) hp fun hnone => ⟨hnone, by simp⟩

/-- A reader that depends on a value. The decoder says what is known of the value. -/
theorem bindOf {d : MemoryReader φ ε α} {d' : Decoder φ ε α} {k : α → MemoryReader φ ε β}
    {k' : α → Decoder φ ε β} {P : α → Prop} (hd : Simulates d d') (hyields : Yields d' P)
    (hk : ∀ a, P a → Simulates (k a) (k' a)) : Simulates (d >>= k) (d' >>= k') := fun m p hp =>
  (hd m p hp).bind fun a p' _ hread within => hk a (hyields _ a _ hread) m p' within

theorem bind {d : MemoryReader φ ε α} {d' : Decoder φ ε α} {k : α → MemoryReader φ ε β}
    {k' : α → Decoder φ ε β} (hd : Simulates d d') (hk : ∀ a, Simulates (k a) (k' a)) :
    Simulates (d >>= k) (d' >>= k') :=
  hd.bindOf (Yields.any d') fun a _ => hk a

theorem map {d : MemoryReader φ ε α} {d' : Decoder φ ε α} (f : α → β) (hd : Simulates d d') :
    Simulates (f <$> d) (f <$> d') :=
  hd.bind fun a => pure (f a)

/-- One more field of a record. -/
theorem seq {df : MemoryReader φ ε (α → β)} {df' : Decoder φ ε (α → β)} {d : MemoryReader φ ε α}
    {d' : Decoder φ ε α} (hf : Simulates df df') (hd : Simulates d d') :
    Simulates (df <*> d) (df' <*> d') :=
  hf.bind fun f => hd.map f

theorem lift_error (e : ε) :
    Simulates (MemoryReader.lift (.error e) : MemoryReader φ ε α) (throw e) := fun _ _ _ =>
  .error (by simp)

theorem ok : Simulates (MemoryReader.ok : MemoryReader φ ε Bool) Decoder.ok := fun _ _ hp =>
  .ok (by simp) hp fun hnone => ⟨hnone, by simp⟩

theorem note (failure : φ) :
    Simulates (MemoryReader.note failure : MemoryReader φ ε Unit) (Decoder.note failure) :=
  fun _ _ hp => .ok (by simp [Access.Safe]) hp fun hnone => by cases hnone

/-- An entry of the trace changes nothing else. -/
theorem record {k : MemoryReader φ ε α} {d' : Decoder φ ε α} {access : Access} (h : access.Safe)
    (hne : access ≠ .failure) (hk : Simulates k d') :
    Simulates (do MemoryReader.record access; k) d' := fun m p hp =>
  Tracks.step rfl h hne rfl (hk m p hp)

/-- The rounds that are left, of a loop that has run the others. -/
theorem rounds {body : β → MemoryReader φ ε β} {body' : β → Decoder φ ε β}
    (hbody : ∀ b, Simulates (body b) (body' b)) {count left : Nat} (hleft : left ≤ count) (b : β) :
    Simulates (MemoryReader.rounds body count left b) (Decoder.loop body' left b) := by
  induction left generalizing b with
  | zero => exact pure b
  | succ left ih =>
      refine ok.bind fun running => ?_
      cases running with
      | true =>
          -- At least one round is left, so the index is below the count.
          have hindex : (Access.round (count - (left + 1)) count).Safe := by
            show count - (left + 1) < count
            omega
          exact record hindex (by simp) ((hbody b).bind fun b => ih (by omega) b)
      | false => exact pure b

/-- A loop whose count is within its bound. -/
theorem loop {body : β → MemoryReader φ ε β} {body' : β → Decoder φ ε β} {count bound : Nat}
    (hbody : ∀ b, Simulates (body b) (body' b)) (hcount : count ≤ bound) (b : β) :
    Simulates (MemoryReader.loop bound body count b) (Decoder.loop body' count b) := by
  have hcounted : (Access.counted count bound).Safe := hcount
  exact record hcounted (by simp) (rounds hbody (Nat.le_refl count) b)

end Simulates

/-! ### Whole runs -/

/-- The run is sound, and its result is the other one up to `f`. -/
structure Traced.Returns {α' : Type} (t : Traced ε α) (f : α → α') (r : Except ε α') : Prop where
  sound : t.Sound
  result : f <$> t.result = r

namespace Traced.Returns

variable {α' β' : Type}

theorem lift (result : Except ε α) : (Traced.lift result).Returns id result :=
  ⟨Sound.lift result, id_map result⟩

theorem error (f : α → α') (e : ε) : (Traced.lift (.error e) : Traced ε α).Returns f (.error e) :=
  ⟨Sound.lift (.error e), rfl⟩

theorem pure (f : α → α') (a : α) : (pure a : Traced ε α).Returns f (pure (f a)) :=
  ⟨Sound.pure a, rfl⟩

theorem bind {t : Traced ε α} {k : α → Traced ε β} {f : α → α'} {g : β → β'} {r : Except ε α'}
    {k' : α' → Except ε β'} (ht : t.Returns f r)
    (hk : ∀ a, t.result = .ok a → (k a).Returns g (k' (f a))) : (t >>= k).Returns g (r >>= k') := by
  refine ⟨ht.sound.bind fun a ha => (hk a ha).sound, ?_⟩
  rw [result_bind, ← ht.result]
  cases h : t.result with
  | error e => rfl
  | ok a => exact (hk a h).result

/-- An entry of the trace changes nothing else. -/
theorem record {t : Traced ε α} {f : α → α'} {r : Except ε α'} (access : Access)
    (h : access.Safe) (hne : access ≠ .failure) (ht : t.Returns f r) :
    (do Traced.record access; t).Returns f r :=
  ⟨(Sound.record h hne).bind fun _ _ => ht.sound, ht.result⟩

end Traced.Returns

/-- The decoder returns nothing once it has noted a failure. -/
def Checked (d : Decoder φ ε α) : Prop :=
  ∀ c a c', d c = .ok (a, c') → c'.failure = none

theorem Checked.bind {d : Decoder φ ε α} {k : α → Decoder φ ε β} (h : ∀ a, Checked (k a)) :
    Checked (d >>= k) := by
  intro c b c' hrun
  obtain ⟨a, c₁, _, hlast⟩ := Decoder.bind_eq_ok.mp hrun
  exact h a c₁ b c' hlast

/-- A decoder that checks for a failure at its end is simulated soundly. -/
theorem Simulates.returns {d : MemoryReader φ ε α} {d' : Decoder φ ε α} {m : Memory}
    {p : Standing φ} (h : Simulates d d') (hchecked : Checked d') (hp : p.Within m) :
    (d m p).Returns (fun r => (r.1, r.2.cursor m)) (d' (p.cursor m)) := by
  have htracks := h m p hp
  refine ⟨⟨htracks.safe, fun r hr => ?_⟩, htracks.result_eq⟩
  generalize d m p = t at htracks hr ⊢
  generalize hread : d' (p.cursor m) = r' at htracks
  cases htracks with
  | error _ => cases hr
  | ok _ _ clean => exact (clean (hchecked _ _ _ hread)).2

end Lib
