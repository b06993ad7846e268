import CongestionObservatory.Core.Hash
import CongestionObservatory.Lib.LittleEndian
import CongestionObservatory.Lib.PrefixCode
import CongestionObservatory.Lib.ScopedEnum

/-!
# `CongestionObservatory.Proofs.Core.Hash`: the bytes fed to the stable hash

Feeding two texts one after the other is feeding the text they make together
(`StableHasher.update_append`), so every digest of the repository is the hash of one text. A number
is fed as eight bytes, so it can be told from the text it stands in front of
(`leBytes64_append_inj`), and so can an enumeration, whose number is fed.
-/

set_option autoImplicit false

namespace CongestionObservatory

open Lib

/-- The byte that `StableHasher::separator` feeds. -/
def separatorByte : UInt8 := 0x1f

namespace StableHasher

theorem update_append (h : StableHasher) (a b : Text) :
    h.update (a ++ b) = (h.update a).update b :=
  List.foldl_append

/-- What is fed for each value of a list is fed as one text. -/
theorem foldl_update {α : Type} (feed : StableHasher → α → StableHasher) (bytes : α → Text)
    (hfeed : ∀ h a, feed h a = h.update (bytes a)) (l : List α) (h : StableHasher) :
    l.foldl feed h = h.update (l.flatMap bytes) := by
  induction l generalizing h with
  | nil => rfl
  | cons a l ih => rw [List.foldl_cons, ih, List.flatMap_cons, update_append, hfeed]

end StableHasher

/-- The bytes of a number are those of its little-endian encoding. -/
theorem leBytes64_eq (value : UInt64) : leBytes64 value = LittleEndian.encode 8 value.toNat := by
  simp only [leBytes64, LittleEndian.encode, List.cons.injEq, and_true, Nat.div_div_eq_div_mul]
  refine ⟨?_, ?_, ?_, ?_, ?_, ?_, ?_, ?_⟩
  all_goals
    apply UInt8.toNat_inj.mp
    simp [Nat.shiftRight_eq_div_pow]

theorem length_leBytes64 (value : UInt64) : (leBytes64 value).length = 8 := rfl

theorem leBytes64_injective : Function.Injective leBytes64 := by
  intro a b h
  rw [leBytes64_eq, leBytes64_eq] at h
  apply UInt64.toNat_inj.mp
  rw [← LittleEndian.decode_encode (show a.toNat < 256 ^ 8 from a.toNat_lt), h,
    LittleEndian.decode_encode (show b.toNat < 256 ^ 8 from b.toNat_lt)]

theorem leBytes64_append_inj {a b : UInt64} {x y : Text} :
    leBytes64 a ++ x = leBytes64 b ++ y ↔ a = b ∧ x = y :=
  (SelfDelimiting.of_length leBytes64_injective length_leBytes64).append_inj

/-- The number of an enumeration in 8 bits. -/
theorem enum8_toUInt64_inj {E : Type} [ScopedEnum E UInt8] {a b : E} :
    (toUnderlying a).toUInt64 = (toUnderlying b).toUInt64 ↔ a = b := by
  rw [UInt8.toUInt64_inj]
  exact toUnderlying_injective.eq_iff

/-- The number of an enumeration in 16 bits. -/
theorem enum16_toUInt64_inj {E : Type} [ScopedEnum E UInt16] {a b : E} :
    (toUnderlying a).toUInt64 = (toUnderlying b).toUInt64 ↔ a = b := by
  rw [UInt16.toUInt64_inj]
  exact toUnderlying_injective.eq_iff

end CongestionObservatory
