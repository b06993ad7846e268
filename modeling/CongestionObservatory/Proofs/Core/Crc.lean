import CongestionObservatory.Lib.Difference
import CongestionObservatory.Lib.LittleEndian
import CongestionObservatory.Core.Hash

/-!
# `CongestionObservatory.Proofs.Core.Crc`: the checksum detects every short burst

One bit of the checksum is injective: the polynomial has its highest bit set, so the highest bit
of the result tells which bit was shifted out, and the other bits give back the rest. A byte is
mixed in by exclusive or and then eight bits are shifted out, so a byte is injective in the state
and in the byte.

A bit is also linear, and it halves an even state. So a window of at most eight bytes may be mixed
in at once, as one number, before its bits are shifted out (`foldl_byteStep_eq`): a window is
injective as well, and a burst of up to 64 bits shows in the checksum.
-/

set_option autoImplicit false

namespace CongestionObservatory.Crc64

open Lib

/-- What one bit does, depending on the bit shifted out. -/
theorem bitStep_eq (crc : UInt64) :
    bitStep crc = if crc.toNat % 2 = 0 then crc >>> 1
      else (crc >>> 1) ^^^ kPolynomialReflected := by
  have hand : (crc &&& 1).toNat = crc.toNat % 2 := by
    rw [UInt64.toNat_and]
    exact Nat.and_one_is_mod crc.toNat
  unfold bitStep
  split
  · rename_i heven
    have hzero : crc &&& 1 = 0 := UInt64.toNat_inj.mp (hand.trans heven)
    rw [hzero]
    simp
  · rename_i hodd
    have hone : crc &&& 1 = 1 := by
      apply UInt64.toNat_inj.mp
      rw [hand]
      show crc.toNat % 2 = 1
      omega
    rw [hone]
    have hmask : kPolynomialReflected &&& (0 - 1 : UInt64) = kPolynomialReflected := by decide
    show (crc >>> 1) ^^^ (kPolynomialReflected &&& (0 - 1 : UInt64)) = _
    rw [hmask]

theorem toNat_shift (crc : UInt64) : (crc >>> 1).toNat = crc.toNat / 2 := by
  rw [UInt64.toNat_shiftRight]
  show crc.toNat >>> 1 = crc.toNat / 2
  rw [Nat.shiftRight_eq_div_pow]

/-- Exclusive or with the polynomial sets the highest bit of a shifted state. -/
theorem shift_ne_xor (a b : UInt64) : a >>> 1 ≠ (b >>> 1) ^^^ kPolynomialReflected := by
  intro h
  have hpoly : (a >>> 1) ^^^ (b >>> 1) = kPolynomialReflected := by
    rw [h, UInt64.xor_comm, ← UInt64.xor_assoc, UInt64.xor_self, UInt64.zero_xor]
  have hnat := congrArg UInt64.toNat hpoly
  rw [UInt64.toNat_xor, toNat_shift, toNat_shift] at hnat
  have ha := a.toNat_lt
  have hb := b.toNat_lt
  have hsmall : a.toNat / 2 ^^^ b.toNat / 2 < 2 ^ 63 :=
    Nat.xor_lt_two_pow (by omega) (by omega)
  rw [hnat] at hsmall
  exact absurd hsmall (by decide)

theorem bitStep_injective : Function.Injective bitStep := by
  intro a b h
  rw [bitStep_eq, bitStep_eq] at h
  have hshift : a >>> 1 = b >>> 1 → a.toNat % 2 = b.toNat % 2 → a = b := by
    intro hs hmod
    have hdiv := congrArg UInt64.toNat hs
    rw [toNat_shift, toNat_shift] at hdiv
    apply UInt64.toNat_inj.mp
    omega
  split at h
  · split at h
    · exact hshift h (by omega)
    · exact absurd h (shift_ne_xor a b)
  · split at h
    · exact absurd h.symm (shift_ne_xor b a)
    · refine hshift ((UInt64.xor_left_inj _).mp h) ?_
      omega

theorem repeat_injective {α : Type} {f : α → α} (hf : Function.Injective f) (n : Nat) :
    Function.Injective (Nat.repeat f n) := by
  induction n with
  | zero => exact fun _ _ h => h
  | succ n ih => exact fun _ _ h => ih (hf h)

theorem byteStep_injective_state (byte : UInt8) :
    Function.Injective fun crc => byteStep crc byte := by
  intro a b h
  have hxor := repeat_injective bitStep_injective 8 h
  exact (UInt64.xor_left_inj _).mp hxor

theorem byteStep_injective_byte (crc : UInt64) : Function.Injective (byteStep crc) := by
  intro a b h
  have hxor := repeat_injective bitStep_injective 8 h
  have hwide := congrArg UInt64.toNat ((UInt64.xor_right_inj _).mp hxor)
  rw [UInt8.toNat_toUInt64, UInt8.toNat_toUInt64] at hwide
  exact UInt8.toNat_inj.mp hwide

/-! ### Windows -/

/-- One bit is linear. -/
theorem bitStep_xor (a b : UInt64) : bitStep (a ^^^ b) = bitStep a ^^^ bitStep b := by
  have hparity : (a ^^^ b).toNat % 2 = (a.toNat % 2 + b.toNat % 2) % 2 := by
    rw [UInt64.toNat_xor]
    have hodd := @Nat.xor_mod_two_eq_one a.toNat b.toNat
    omega
  have hswap : ∀ x y p : UInt64, x ^^^ y ^^^ p = x ^^^ p ^^^ y := by
    intro x y p
    rw [UInt64.xor_assoc, UInt64.xor_comm y p, ← UInt64.xor_assoc]
  rw [bitStep_eq, bitStep_eq a, bitStep_eq b, hparity, UInt64.shiftRight_xor]
  rcases Nat.mod_two_eq_zero_or_one a.toNat with ha | ha <;>
    rcases Nat.mod_two_eq_zero_or_one b.toNat with hb | hb <;> rw [ha, hb]
  · rfl
  · exact UInt64.xor_assoc _ _ _
  · exact hswap _ _ _
  · -- Both shift a one out, and the polynomial cancels.
    show a >>> 1 ^^^ b >>> 1
      = a >>> 1 ^^^ kPolynomialReflected ^^^ (b >>> 1 ^^^ kPolynomialReflected)
    rw [hswap, ← UInt64.xor_assoc, UInt64.xor_assoc (a >>> 1 ^^^ b >>> 1), UInt64.xor_self,
      UInt64.xor_zero]

theorem repeat_bitStep_xor (n : Nat) (a b : UInt64) :
    Nat.repeat bitStep n (a ^^^ b) = Nat.repeat bitStep n a ^^^ Nat.repeat bitStep n b := by
  induction n with
  | zero => rfl
  | succ n ih =>
      show bitStep (Nat.repeat bitStep n (a ^^^ b)) = _
      rw [ih, bitStep_xor]
      rfl

/-- An even state is halved. -/
theorem bitStep_double {n : Nat} (h : 2 * n < 2 ^ 64) :
    bitStep (UInt64.ofNat (2 * n)) = UInt64.ofNat n := by
  have hdouble : (UInt64.ofNat (2 * n)).toNat = 2 * n := UInt64.toNat_ofNat_of_lt' h
  rw [bitStep_eq, hdouble, if_pos (by omega)]
  apply UInt64.toNat_inj.mp
  have hhalf : (UInt64.ofNat n).toNat = n :=
    UInt64.toNat_ofNat_of_lt' (show n < 2 ^ 64 by omega)
  rw [toNat_shift, hdouble, hhalf]
  omega

theorem repeat_bitStep_shift {k n : Nat} (h : 2 ^ k * n < 2 ^ 64) :
    Nat.repeat bitStep k (UInt64.ofNat (2 ^ k * n)) = UInt64.ofNat n := by
  induction k generalizing n with
  | zero =>
      rw [Nat.pow_zero, Nat.one_mul]
      rfl
  | succ k ih =>
      have hsplit : 2 ^ (k + 1) * n = 2 ^ k * (2 * n) := by rw [Nat.pow_succ, Nat.mul_assoc]
      have hle : 2 * n ≤ 2 ^ k * (2 * n) := Nat.le_mul_of_pos_left _ (Nat.two_pow_pos k)
      rw [hsplit] at h ⊢
      show bitStep (Nat.repeat bitStep k (UInt64.ofNat (2 ^ k * (2 * n)))) = _
      rw [ih h, bitStep_double (by omega)]

/-- A window as one number, its first byte lowest. -/
def packed (window : Text) : UInt64 := UInt64.ofNat (LittleEndian.decode window)

theorem decode_lt_of_length {window : Text} {n : Nat} (h : window.length ≤ n) :
    LittleEndian.decode window < 2 ^ (8 * n) := by
  have hlt := LittleEndian.decode_lt window
  have hpow : 256 ^ window.length ≤ 256 ^ n := Nat.pow_le_pow_right (by omega) h
  rw [show (256 : Nat) = 2 ^ 8 from rfl, ← Nat.pow_mul, ← Nat.pow_mul] at hpow
  rw [show (256 : Nat) = 2 ^ 8 from rfl, ← Nat.pow_mul] at hlt
  omega

theorem packed_injective {w w' : Text} (hlength : w.length = w'.length) (hw : w.length ≤ 8)
    (h : packed w = packed w') : w = w' := by
  have hnat := congrArg UInt64.toNat h
  rw [packed, packed, UInt64.toNat_ofNat_of_lt' (decode_lt_of_length hw),
    UInt64.toNat_ofNat_of_lt' (decode_lt_of_length (hlength ▸ hw))] at hnat
  rw [← LittleEndian.encode_decode w, ← LittleEndian.encode_decode w', hlength, hnat]

/-- A byte below the bytes that follow it. -/
theorem packed_cons (byte : UInt8) {window : Text} (h : window.length ≤ 7) :
    packed (byte :: window)
      = byte.toUInt64 ^^^ UInt64.ofNat (2 ^ 8 * LittleEndian.decode window) := by
  have hbyte := byte.toNat_lt
  have hdecode := decode_lt_of_length h
  have hxor : byte.toNat ^^^ 2 ^ 8 * LittleEndian.decode window
      = byte.toNat + 256 * LittleEndian.decode window := by
    have hdiv := @Nat.xor_div_two_pow byte.toNat (2 ^ 8 * LittleEndian.decode window) 8
    have hmod := @Nat.xor_mod_two_pow byte.toNat (2 ^ 8 * LittleEndian.decode window) 8
    rw [Nat.mul_div_cancel_left _ (by decide), Nat.div_eq_of_lt hbyte, Nat.zero_xor] at hdiv
    rw [Nat.mul_mod_right, Nat.mod_eq_of_lt hbyte, Nat.xor_zero] at hmod
    omega
  apply UInt64.toNat_inj.mp
  rw [packed, UInt64.toNat_xor, UInt8.toNat_toUInt64, UInt64.toNat_ofNat_of_lt',
    UInt64.toNat_ofNat_of_lt', hxor, LittleEndian.decode]
  · show 2 ^ 8 * LittleEndian.decode window < 2 ^ 64
    omega
  · show byte.toNat + 256 * LittleEndian.decode window < 2 ^ 64
    omega

/-- A window of at most eight bytes may be mixed in at once. -/
theorem foldl_byteStep_eq {window : Text} (h : window.length ≤ 8) (crc : UInt64) :
    window.foldl byteStep crc = Nat.repeat bitStep (8 * window.length) (crc ^^^ packed window) := by
  induction window generalizing crc with
  | nil =>
      show crc = crc ^^^ UInt64.ofNat 0
      exact UInt64.xor_zero.symm
  | cons byte rest ih =>
      have hrest : rest.length ≤ 7 := Nat.le_of_succ_le_succ h
      have hlow : packed rest
          = Nat.repeat bitStep 8 (UInt64.ofNat (2 ^ 8 * LittleEndian.decode rest)) := by
        have hdecode := decode_lt_of_length hrest
        exact (repeat_bitStep_shift (by omega)).symm
      have hrepeat : ∀ n (a : UInt64), Nat.repeat bitStep n (Nat.repeat bitStep 8 a)
          = Nat.repeat bitStep (n + 8) a := by
        intro n a
        induction n with
        | zero => rw [Nat.zero_add]; rfl
        | succ n hn =>
            rw [Nat.succ_add]
            exact congrArg bitStep hn
      rw [List.foldl_cons, ih (by omega), byteStep, hlow, ← repeat_bitStep_xor, hrepeat,
        packed_cons byte hrest, List.length_cons, Nat.mul_succ, UInt64.xor_assoc]

/-- A window is injective, too. -/
theorem foldl_byteStep_injective {w w' : Text} (hlength : w.length = w'.length)
    (hw : w.length ≤ 8) {crc : UInt64} (h : w.foldl byteStep crc = w'.foldl byteStep crc) :
    w = w' := by
  rw [foldl_byteStep_eq hw, foldl_byteStep_eq (hlength ▸ hw), ← hlength] at h
  have hxor := repeat_injective bitStep_injective _ h
  exact packed_injective hlength hw ((UInt64.xor_right_inj _).mp hxor)

/-- Chunks are fed one after the other like the whole text. -/
theorem foldl_update_eq (chunks : List Text) (crc : UInt64) :
    chunks.foldl update crc = update crc chunks.flatten := by
  induction chunks generalizing crc with
  | nil => rfl
  | cons chunk chunks ih =>
      rw [List.foldl_cons, ih, List.flatten_cons, update, update, update, List.foldl_append]

end CongestionObservatory.Crc64

namespace CongestionObservatory

open Lib

/-- Texts that differ in one byte have different checksums. -/
theorem crc64_ne_of_differsInOne {text text' : Text} (h : DiffersInOne text text') :
    crc64 text ≠ crc64 text' := by
  intro heq
  exact h.foldl_ne Crc64.byteStep_injective_state Crc64.byteStep_injective_byte Crc64.kInit
    ((UInt64.xor_left_inj _).mp heq)

/-- **Every burst of at most eight bytes shows in the checksum**, and the chunks in which a text is
fed do not. -/
theorem crc64_detects_bursts :
    (∀ text text' : Text, DiffersWithin 8 text text' → crc64 text ≠ crc64 text') ∧
      ∀ chunks : List Text,
        chunks.foldl Crc64.update Crc64.kInit ^^^ Crc64.kXorOut = crc64 chunks.flatten := by
  constructor
  · intro text text' h heq
    exact h.foldl_ne Crc64.byteStep_injective_state
      (fun _ _ _ hlength hw => Crc64.foldl_byteStep_injective hlength hw) Crc64.kInit
      ((UInt64.xor_left_inj _).mp heq)
  · intro chunks
    rw [Crc64.foldl_update_eq, crc64]

/-- Two bytes that are exchanged. -/
theorem exchanged_bytes_detected : crc64 [0x61, 0x62] ≠ crc64 [0x62, 0x61] := by
  refine crc64_detects_bursts.1 _ _ ⟨rfl, by decide, 0, fun j hj => ?_⟩
  have hend : 2 ≤ j := by omega
  rw [List.getElem?_eq_none hend, List.getElem?_eq_none hend]

end CongestionObservatory
