import CongestionObservatory.Persistence.Bytes

/-!
# `CongestionObservatory.Proofs.Persistence.Fields`: reading back one field

One `Reads` lemma for each field the writer knows. An integer is always read back. A text is
read back when its length is within the document bound, and a counted list when its length is
within the bound of the reader and each element is read back. The length prefix has 32 bits, so
both ask for a length below `2 ^ 32`.
-/

set_option autoImplicit false

namespace CongestionObservatory.ByteReader

open Lib

/-! ### Integers -/

theorem sticky_u8 : Sticky u8 := by
  intro c hc
  unfold u8
  split
  · exact ((Sticky.note _).bind fun _ => Sticky.pure 0) c hc
  · exact rejected_ok hc

theorem reads_u8 (value : UInt8) : Reads u8 (ByteWriter.u8 value) True value :=
  ⟨fun _ _ => rfl, fun h => absurd trivial h⟩

theorem sticky_unsigned (width : Nat) : Sticky (unsigned width) := by
  induction width with
  | zero => exact Sticky.pure 0
  | succ width ih => exact sticky_u8.bind fun _ => ih.bind fun _ => Sticky.pure _

/-- Any bytes are the bytes of a number. -/
theorem reads_unsigned (bytes : Text) :
    Reads (unsigned bytes.length) bytes True (LittleEndian.decode bytes) := by
  induction bytes with
  | nil => exact Reads.pure 0
  | cons byte rest ih =>
      have hboth : Reads (unsigned (rest.length + 1)) (ByteWriter.u8 byte ++ rest) (True ∧ True)
          (byte.toNat + 256 * LittleEndian.decode rest) := by
        refine (reads_u8 byte).bind (fun low => ?_) ?_
        · exact (sticky_unsigned rest.length).bind fun high => Sticky.pure _
        · exact ih.map fun high => byte.toNat + 256 * high
      exact hboth.congr (by simp)

/-- A number of a fixed width, read back. -/
theorem reads_width {α : Type} {width value : Nat} (wrap : Nat → α) (h : value < 256 ^ width) :
    Reads (wrap <$> unsigned width) (LittleEndian.encode width value) True (wrap value) := by
  have hreads := (reads_unsigned (LittleEndian.encode width value)).map wrap
  rw [LittleEndian.length_encode, LittleEndian.decode_encode h] at hreads
  exact hreads

theorem sticky_u16 : Sticky u16 := (sticky_unsigned 2).map _

theorem sticky_u32 : Sticky u32 := (sticky_unsigned 4).map _

theorem sticky_u64 : Sticky u64 := (sticky_unsigned 8).map _

theorem sticky_i64 : Sticky i64 := sticky_u64.map _

theorem sticky_boolean : Sticky boolean := sticky_u8.map _

theorem reads_u16 (value : UInt16) : Reads u16 (ByteWriter.u16 value) True value := by
  have h := reads_width UInt16.ofNat (show value.toNat < 256 ^ 2 from value.toNat_lt)
  rw [UInt16.ofNat_toNat] at h
  exact h

theorem reads_u32 (value : UInt32) : Reads u32 (ByteWriter.u32 value) True value := by
  have h := reads_width UInt32.ofNat (show value.toNat < 256 ^ 4 from value.toNat_lt)
  rw [UInt32.ofNat_toNat] at h
  exact h

theorem reads_u64 (value : UInt64) : Reads u64 (ByteWriter.u64 value) True value := by
  have h := reads_width UInt64.ofNat (show value.toNat < 256 ^ 8 from value.toNat_lt)
  rw [UInt64.ofNat_toNat] at h
  exact h

theorem reads_i64 (value : Int64) : Reads i64 (ByteWriter.i64 value) True value := by
  have h := (reads_u64 value.toUInt64).map UInt64.toInt64
  rw [Int64.toInt64_toUInt64] at h
  exact h

theorem reads_boolean (value : Bool) : Reads boolean (ByteWriter.flag value) True value := by
  have h := (reads_u8 (if value then 1 else 0)).map (· != 0)
  cases value with
  | false => exact h
  | true => exact h

theorem sticky_enum8 {E : Type} [ScopedEnum E UInt8] : Sticky (enum8 : ByteReader E) :=
  sticky_u8.map _

theorem reads_enum8 {E : Type} [ScopedEnum E UInt8] (value : E) :
    Reads enum8 (ByteWriter.u8 (toUnderlying value)) True value := by
  have h := (reads_u8 (toUnderlying value)).map (ofUnderlying : UInt8 → E)
  rw [ofUnderlying_toUnderlying] at h
  exact h

theorem sticky_digestId {Tag : Type} : Sticky (digestId : ByteReader (DigestId Tag)) :=
  (sticky_u64.map _).seq sticky_u64

theorem reads_digestId {Tag : Type} (id : DigestId Tag) :
    Reads digestId (ByteWriter.digestId id) True id :=
  (((reads_u64 id.word0).map DigestId.mk).seq (reads_u64 id.word1) sticky_u64).congr (by simp)

/-! ### Counts and texts -/

section

variable {n : Nat} (bound : Nat) (what : String)

theorem toNat_size (h : n < 2 ^ 32) : (UInt32.ofNat n).toNat = n := by
  rw [UInt32.toNat_ofNat']
  exact Nat.mod_eq_of_lt h

/-- A length prefix is followed by a reader that depends on it. -/
theorem reads_size {α : Type} {k : UInt32 → ByteReader α} {bytes : Text} {fits : Prop} {a : α}
    (hsticky : ∀ value, Sticky (k value)) (hk : Reads (k (UInt32.ofNat n)) bytes fits a) :
    Reads (u32 >>= k) (ByteWriter.size n ++ bytes) fits a :=
  ((reads_u32 (UInt32.ofNat n)).bind hsticky hk).congr (by simp)

/-- The check of `ok` after a length prefix. -/
theorem sticky_ok {α : Type} {k : Bool → ByteReader α} (h : Sticky (k false)) :
    Sticky (Decoder.ok >>= k) := by
  intro c hc
  have hrun : (Decoder.ok >>= k) c = k false c := by
    show k c.failure.isNone c = k false c
    rw [show c.failure.isNone = false by simp [Option.isSome_iff_ne_none, hc]]
  rw [hrun]
  exact h c hc

theorem reads_ok {α : Type} {k : Bool → ByteReader α} {bytes : Text} {fits : Prop} {a : α}
    (h : Reads (k true) bytes fits a) : Reads (Decoder.ok >>= k) bytes fits a :=
  ⟨fun hfits rest => h.accepts hfits rest, fun hfits rest => h.rejects hfits rest⟩

theorem sticky_count : Sticky (count bound what) :=
  sticky_u32.bind fun _ => sticky_ok (Sticky.pure 0)

theorem reads_count (h : n < 2 ^ 32) :
    Reads (count bound what) (ByteWriter.size n) (n ≤ bound) n := by
  have hreads : Reads (count bound what) (ByteWriter.size n ++ []) (n ≤ bound) n := by
    refine reads_size (fun _ => sticky_ok (Sticky.pure 0)) (reads_ok ?_)
    rw [if_pos rfl, toNat_size h]
    by_cases hle : n ≤ bound
    · rw [if_neg (by omega)]
      exact (Reads.pure n).congr (by simp [hle])
    · rw [if_pos (by omega)]
      exact ⟨fun h => absurd h hle, fun _ rest => rejected_ok (by simp)⟩
  rwa [List.append_nil] at hreads

variable (limits : Limits)

theorem sticky_text : Sticky (text limits) :=
  sticky_u32.bind fun _ => sticky_ok (Sticky.pure [])

theorem reads_text {value : Text} (h : value.length < 2 ^ 32) :
    Reads (text limits) (ByteWriter.text value) (value.length ≤ limits.maxDocumentBytes) value := by
  refine reads_size (fun _ => sticky_ok (Sticky.pure [])) (reads_ok ?_)
  -- Past the prefix the text itself is left, so only the document bound can refuse it.
  constructor
  · intro hfits rest
    show (if _ then _ else take (UInt32.ofNat value.length).toNat : ByteReader Text)
      ⟨value ++ rest, none⟩ = _
    rw [toNat_size h, if_neg (by simp only [List.length_append]; omega)]
    show Except.ok ((value ++ rest).take value.length, _) = _
    simp
  · intro hfits rest
    show Rejected ((if _ then (do fail _; pure [] : ByteReader Text) else _ : ByteReader Text)
      ⟨value ++ rest, none⟩)
    rw [toNat_size h, if_pos (Or.inl (by omega))]
    exact rejected_ok (by simp)

theorem sticky_parsed {α : Type} (parse : Text → Result α) : Sticky (parsed limits parse) := by
  refine (sticky_text limits).bind fun value => ?_
  cases parse value with
  | error e => exact Sticky.throw e
  | ok a => exact Sticky.pure a

theorem reads_parsed {α : Type} {parse : Text → Result α} {value : Text} {a : α}
    (h : value.length < 2 ^ 32) (hparse : parse value = .ok a) :
    Reads (parsed limits parse) (ByteWriter.text value)
      (value.length ≤ limits.maxDocumentBytes) a := by
  have hreads : Reads (parsed limits parse) (ByteWriter.text value ++ [])
      (value.length ≤ limits.maxDocumentBytes ∧ True) a := by
    refine (reads_text limits h).bind (fun value => ?_) ?_
    · cases parse value with
      | error e => exact Sticky.throw e
      | ok a => exact Sticky.pure a
    · rw [hparse]
      exact Reads.pure a
  rw [List.append_nil] at hreads
  exact hreads.congr (and_iff_left trivial)

end

/-! ### Lists -/

section

variable {α β : Type} (bound : Nat) (what : String) {read : ByteReader β} {write : α → Text}
  {fits : α → Prop} {value : α → β}

theorem sticky_times (n : Nat) (read : ByteReader β) : Sticky (times n read) := Sticky.loop _ n []

theorem sticky_list (read : ByteReader β) : Sticky (list bound what read) :=
  (sticky_count bound what).bind fun n => sticky_times n read

theorem times_length {n : Nat} {l : List β} {c c' : Cursor Text}
    (h : times n read c = .ok (l, c')) (hnone : c'.failure = none) : l.length = n := by
  have hlength := Decoder.loop_invariant (fun k (l : List β) _ => l.length = k) (by
    intro k l c l' c' hk hbody _
    obtain ⟨element, c₁, -, hpure⟩ := Decoder.bind_eq_ok.mp hbody
    cases hpure
    rw [List.length_append, hk]
    rfl) n rfl h hnone
  rwa [List.length_nil, Nat.zero_add] at hlength

/-- The elements of a list, when each element is read back as its value. -/
theorem reads_times {l : List α} (helement : ∀ a ∈ l, Reads read (write a) (fits a) (value a)) :
    Reads (times l.length read) (l.flatMap write) (∀ a ∈ l, fits a) (l.map value) := by
  refine Reads.loop (List.map value) l [] fun before a after hsplit => ?_
  have ha : a ∈ l := by
    rw [List.nil_append] at hsplit
    rw [hsplit]
    simp
  have hpush := (helement a ha).map fun element => before.map value ++ [element]
  rw [List.map_append]
  exact hpush

theorem reads_list {l : List α} (hlength : l.length < 2 ^ 32)
    (helement : ∀ a ∈ l, Reads read (write a) (fits a) (value a)) :
    Reads (list bound what read) (ByteWriter.list write l)
      (l.length ≤ bound ∧ ∀ a ∈ l, fits a) (l.map value) :=
  (reads_count bound what hlength).bind (fun n => sticky_times n read) (reads_times helement)

/-- A list whose elements are read back as themselves. -/
theorem reads_list_self {read : ByteReader α} {l : List α} (hlength : l.length < 2 ^ 32)
    (helement : ∀ a ∈ l, Reads read (write a) (fits a) a) :
    Reads (list bound what read) (ByteWriter.list write l)
      (l.length ≤ bound ∧ ∀ a ∈ l, fits a) l := by
  have h : Reads (list bound what read) (ByteWriter.list write l)
      (l.length ≤ bound ∧ ∀ a ∈ l, fits a) (l.map id) := reads_list bound what hlength helement
  rwa [List.map_id] at h

end

end CongestionObservatory.ByteReader
