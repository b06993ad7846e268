import Mathlib.Data.Nat.Basic
import Mathlib.Tactic.Ring

/-!
# `CongestionObservatory.Lib.LittleEndian`: numbers as bytes, the lowest byte first

`LittleEndian.encode width value` is the list of the `width` lowest bytes of a number and
`LittleEndian.decode` the number of a list of bytes. The two are inverse to each other on the
numbers below `256 ^ width` and on the lists of length `width`, so a fixed-width field that is
changed in any byte holds another number.
-/

set_option autoImplicit false

namespace Lib.LittleEndian

/-- The lowest bytes of a number, the lowest first. -/
def encode : Nat → Nat → List UInt8
  | 0, _ => []
  | width + 1, value => UInt8.ofNat value :: encode width (value / 256)

/-- The number with the given bytes, the lowest first. -/
def decode : List UInt8 → Nat
  | [] => 0
  | byte :: rest => byte.toNat + 256 * decode rest

@[simp] theorem length_encode (width value : Nat) : (encode width value).length = width := by
  induction width generalizing value with
  | zero => rfl
  | succ width ih => rw [encode, List.length_cons, ih]

/-- Decoding gives the number back, up to what does not fit the width. -/
theorem decode_encode_mod (width value : Nat) :
    decode (encode width value) = value % 256 ^ width := by
  induction width generalizing value with
  | zero => rw [encode, decode, pow_zero, Nat.mod_one]
  | succ width ih =>
      have hsplit : value % (256 * 256 ^ width) = value % 256 + 256 * (value / 256 % 256 ^ width) :=
        Nat.mod_mul
      rw [encode, decode, ih, UInt8.toNat_ofNat']
      show value % 256 + 256 * (value / 256 % 256 ^ width) = value % 256 ^ (width + 1)
      rw [Nat.pow_succ', hsplit]

theorem decode_encode {width value : Nat} (h : value < 256 ^ width) :
    decode (encode width value) = value := by
  rw [decode_encode_mod, Nat.mod_eq_of_lt h]

theorem decode_lt (bytes : List UInt8) : decode bytes < 256 ^ bytes.length := by
  induction bytes with
  | nil => exact Nat.one_pos
  | cons byte rest ih =>
      have hbyte := byte.toNat_lt
      rw [decode, List.length_cons, pow_succ]
      omega

/-- Encoding the number of a list of bytes gives the bytes back. -/
theorem encode_decode (bytes : List UInt8) : encode bytes.length (decode bytes) = bytes := by
  induction bytes with
  | nil => rfl
  | cons byte rest ih =>
      have hbyte := byte.toNat_lt
      have hlow : UInt8.ofNat (byte.toNat + 256 * decode rest) = byte := by
        apply UInt8.toNat_inj.mp
        rw [UInt8.toNat_ofNat']
        omega
      have hhigh : (byte.toNat + 256 * decode rest) / 256 = decode rest := by omega
      rw [List.length_cons, decode, encode, hlow, hhigh, ih]

/-- The first bytes of a list are those of a number. -/
theorem exists_encode_append {width : Nat} {bytes : List UInt8} (h : width ≤ bytes.length) :
    ∃ value rest, value < 256 ^ width ∧ bytes = encode width value ++ rest ∧
      bytes.length = width + rest.length := by
  have hlength : (bytes.take width).length = width := List.length_take_of_le h
  have hlt := decode_lt (bytes.take width)
  have hencode := encode_decode (bytes.take width)
  rw [hlength] at hlt hencode
  refine ⟨decode (bytes.take width), bytes.drop width, hlt, ?_, ?_⟩
  · rw [hencode, List.take_append_drop]
  · rw [List.length_drop]
    omega

end Lib.LittleEndian
