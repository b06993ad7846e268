import CongestionObservatory.Core.Basic

/-!
# `CongestionObservatory.Core.Hash`: the stable hash and the checksum

`StableHasher` (`core/hash.hpp`) is a double FNV-1a over bytes with a final avalanche. Multi-byte
values are fed in little-endian order. `Crc64` (`core/crc64.hpp`) is the bitwise reflected
CRC-64/XZ that protects a snapshot payload.
-/

set_option autoImplicit false

namespace CongestionObservatory

/-- The bytes of a 64-bit value, least significant first. -/
def leBytes64 (value : UInt64) : Text :=
  [value.toUInt8, (value >>> 8).toUInt8, (value >>> 16).toUInt8, (value >>> 24).toUInt8,
   (value >>> 32).toUInt8, (value >>> 40).toUInt8, (value >>> 48).toUInt8, (value >>> 56).toUInt8]

/-- The state of a `StableHasher`. -/
structure StableHasher where
  h1 : UInt64 := 0xcbf29ce484222325
  h2 : UInt64 := 0xcbf29ce484222325 ^^^ 0x9e3779b97f4a7c15
  length : UInt64 := 0

namespace StableHasher

/-- One byte of `StableHasher::update`. -/
def updateByte (s : StableHasher) (byte : UInt8) : StableHasher :=
  { h1 := (s.h1 ^^^ byte.toUInt64) * 0x100000001b3
    h2 := (s.h2 ^^^ (byte.toUInt64 + 0x9d)) * 0x100000001b3
    length := s.length + 1 }

/-- `StableHasher::update`. -/
def update (s : StableHasher) (bytes : Text) : StableHasher := bytes.foldl updateByte s

/-- `StableHasher::update_u8`. -/
def updateU8 (s : StableHasher) (value : UInt8) : StableHasher := s.update [value]

/-- `StableHasher::update_u64`. -/
def updateU64 (s : StableHasher) (value : UInt64) : StableHasher := s.update (leBytes64 value)

/-- `StableHasher::update_i64`. -/
def updateI64 (s : StableHasher) (value : Int64) : StableHasher := s.updateU64 value.toUInt64

/-- `StableHasher::update_bool`. -/
def updateBool (s : StableHasher) (value : Bool) : StableHasher := s.updateU8 (if value then 1 else 0)

/-- `StableHasher::separator`. -/
def separator (s : StableHasher) : StableHasher := s.updateU8 0x1f

/-- `StableHasher::digest64`. -/
def digest64 (s : StableHasher) : UInt64 :=
  let h := s.h1
  let h := h ^^^ (h >>> 33)
  let h := h * 0xff51afd7ed558ccd
  let h := h ^^^ (h >>> 33)
  let h := h * 0xc4ceb9fe1a85ec53
  h ^^^ (h >>> 33)

/-- `StableHasher::digest128`. -/
def digest128 (s : StableHasher) : UInt64 × UInt64 :=
  let a := s.h1 ^^^ (s.length + 0x9e3779b97f4a7c15)
  let b := s.h2 ^^^ (s.length + 0xc2b2ae3d27d4eb4f)
  let a := a ^^^ (a >>> 33)
  let a := a * 0xff51afd7ed558ccd
  let a := a ^^^ (a >>> 33)
  let a := a * 0xc4ceb9fe1a85ec53
  let a := a ^^^ (a >>> 33)
  let b := b ^^^ (b >>> 31)
  let b := b * 0x7fb5d329728ea185
  let b := b ^^^ (b >>> 27)
  let b := b * 0x81dadef4bc2dd44d
  let b := b ^^^ (b >>> 33)
  (a, b)

end StableHasher

/-- The hexadecimal digits of `to_hex`, from the most significant of `digits` nibbles. -/
def hexDigits (value : UInt64) : Nat → Text
  | 0 => []
  | digits + 1 =>
    let nibble := (value >>> (4 * UInt64.ofNat digits)) &&& 0xf
    (if nibble < 10 then 0x30 + nibble.toUInt8 else 0x61 + (nibble - 10).toUInt8)
      :: hexDigits value digits

/-- `to_hex` of one word: sixteen lower case digits. -/
def toHex (value : UInt64) : Text := hexDigits value 16

namespace Crc64

/-- `Crc64::kInit`. -/
def kInit : UInt64 := 0xFFFFFFFFFFFFFFFF

/-- `Crc64::kXorOut`. -/
def kXorOut : UInt64 := 0xFFFFFFFFFFFFFFFF

/-- `Crc64::kPolynomialReflected`. -/
def kPolynomialReflected : UInt64 := 0xC96C5795D7870F42

/-- One bit of the inner loop. -/
def bitStep (crc : UInt64) : UInt64 :=
  let mask := 0 - (crc &&& 1)
  (crc >>> 1) ^^^ (kPolynomialReflected &&& mask)

/-- One byte of `Crc64::update`: the byte is mixed in, then eight bits are shifted out. -/
def byteStep (crc : UInt64) (byte : UInt8) : UInt64 :=
  Nat.repeat bitStep 8 (crc ^^^ byte.toUInt64)

/-- `Crc64::update`. -/
def update (crc : UInt64) (bytes : Text) : UInt64 := bytes.foldl byteStep crc

end Crc64

/-- `crc64`. -/
def crc64 (text : Text) : UInt64 := Crc64.update Crc64.kInit text ^^^ Crc64.kXorOut

end CongestionObservatory
