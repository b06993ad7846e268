import CongestionObservatory.Core.Arithmetic

/-!
# `CongestionObservatory.Proofs.Core.Double`: which results are numbers

A comparison with a value that is no number is false, whichever way it is written. So what follows
from a comparison that failed depends on both sides being numbers. The operations round and may
overflow to an infinity, but of finite values the difference and the absolute value are numbers,
and so is a number times a finite value other than zero.

The argument is about the packed form: only a full exponent field stands for a value that is not
finite (`isFinite_iff`), and `pack` fills it for an infinity and for an overflow only.
-/

set_option autoImplicit false

namespace CongestionObservatory

namespace Double

open Float.Model Lib NumberOrder

theorem rank_eq_none_iff (x : UnpackedFloat) : rank x = none ↔ x = .notANumber := by
  constructor
  · intro h
    rcases x with (_ | _) | _ | _ | ⟨_ | _, m, e, _⟩ <;> first | rfl | cases h
  · rintro rfl
    rfl

theorem isNumber_iff (d : Double) : IsNumber d ↔ d.unpack ≠ .notANumber := by
  rw [ne_eq, ← rank_eq_none_iff, ← ne_eq, ← Option.isSome_iff_ne_none, Option.isSome_iff_exists]
  show d.unpack.le d.unpack = true ↔ _
  rw [le_iff_rank]
  constructor
  · rintro ⟨x, hx, -⟩
    exact ⟨x, hx⟩
  · rintro ⟨x, hx⟩
    exact ⟨x, hx, x, hx, le_refl x⟩

/-! ### Finite values -/

theorem isFinite_unpack_iff (b : BitVec Format.binary64.numBits) :
    (UnpackedFloat.unpack Format.binary64 b).isFinite = true ↔
      UnpackedFloat.unpackExponent b ≠ -1#_ := by
  unfold UnpackedFloat.unpack
  dsimp only
  by_cases hfull : UnpackedFloat.unpackExponent b = -1#_
  · rw [if_pos hfull]
    refine iff_of_false ?_ (not_not.mpr hfull)
    by_cases hmantissa : UnpackedFloat.unpackMantissa b = 0#_
    · rw [if_pos hmantissa]
      exact Bool.false_ne_true
    · rw [if_neg hmantissa]
      exact Bool.false_ne_true
  · rw [if_neg hfull]
    refine iff_of_true ?_ hfull
    by_cases hexponent : UnpackedFloat.unpackExponent b = 0#_
    · rw [if_pos hexponent]
      by_cases hmantissa : UnpackedFloat.unpackMantissa b = 0#_
      · rw [dif_pos hmantissa]
        rfl
      · rw [dif_neg hmantissa]
        rfl
    · rw [if_neg hexponent]
      rfl

theorem toNat_unpackExponent (d : Double) :
    (@UnpackedFloat.unpackExponent Format.binary64 d.bits.toBitVec).toNat
      = d.exponent := by
  unfold UnpackedFloat.unpackExponent exponent
  rw [BitVec.toNat_cast, BitVec.extractLsb, BitVec.extractLsb'_toNat]
  show _ = (d.bits >>> 52 &&& 2047).toNat
  rw [UInt64.toNat_and, UInt64.toNat_shiftRight]
  exact (Nat.and_two_pow_sub_one_eq_mod (d.bits.toNat >>> 52) 11).symm

/-- `std::isfinite` says whether the unpacked value is finite. -/
theorem isFinite_iff (d : Double) : d.isFinite = true ↔ d.unpack.isFinite = true := by
  rw [unpack, isFinite_unpack_iff, isFinite, bne_iff_ne, ← toNat_unpackExponent, ne_eq, ne_eq,
    not_iff_not, ← BitVec.toNat_inj]
  rfl

theorem isNumber_of_isFinite {d : Double} (h : d.isFinite = true) : IsNumber d := by
  rw [isNumber_iff]
  intro hnan
  rw [isFinite_iff, hnan] at h
  cases h

/-! ### Packing -/

theorem unpack_pack (x : UnpackedFloat) : (pack x).unpack
    = UnpackedFloat.unpack Format.binary64 (UnpackedFloat.pack Format.binary64 x) := rfl

theorem isFinite_unpack_packComponents {sign : UnpackedFloat.Sign} {exponent : BitVec 11}
    {mantissa : BitVec 52} (h : exponent ≠ -1#_) : (UnpackedFloat.unpack Format.binary64
      (UnpackedFloat.packComponents Format.binary64 sign exponent mantissa)).isFinite = true := by
  rw [isFinite_unpack_iff, UnpackedFloat.unpackExponent_packComponents]
  exact h

theorem isFinite_pack_zero (s : UnpackedFloat.Sign) : (pack (.zero s)).unpack.isFinite = true := by
  show (UnpackedFloat.unpack Format.binary64
    (UnpackedFloat.packComponents Format.binary64 s 0 0)).isFinite = true
  exact isFinite_unpack_packComponents (by decide)

theorem pack_finite (s : UnpackedFloat.Sign) (m : Nat) (e : Int) (h : 0 < m) :
    UnpackedFloat.pack Format.binary64 (.finite s m e h)
      = if 2 ^ 11 ≤ (e + 1023 + 52).toNat + 1 then UnpackedFloat.packedInfinity Format.binary64 s
        else if m.log2 + 1 = 53 then
          UnpackedFloat.packComponents Format.binary64 s (BitVec.ofNat 11 (e + 1023 + 52).toNat)
            (BitVec.ofNat 52 m)
        else UnpackedFloat.packComponents Format.binary64 s 0 (BitVec.ofNat 52 m) := rfl

/-- A finite value whose exponent fits its field stays finite. -/
theorem isFinite_pack_finite {s : UnpackedFloat.Sign} {m : Nat} {e : Int} {h : 0 < m}
    (he : (e + 1075).toNat + 1 < 2 ^ 11) : (pack (.finite s m e h)).unpack.isFinite = true := by
  rw [unpack_pack, pack_finite, if_neg (by omega)]
  split
  · refine isFinite_unpack_packComponents fun hfull => ?_
    have hfield := congrArg BitVec.toNat hfull
    rw [BitVec.toNat_ofNat, Nat.mod_eq_of_lt (by omega)] at hfield
    change _ = 2047 at hfield
    omega
  · exact isFinite_unpack_packComponents (by decide)

theorem unpack_packedInfinity (s : UnpackedFloat.Sign) : UnpackedFloat.unpack Format.binary64
    (UnpackedFloat.packedInfinity Format.binary64 s) ≠ .notANumber := by
  have hmantissa : UnpackedFloat.unpackMantissa
      (UnpackedFloat.packedInfinity Format.binary64 s) = 0#_ :=
    UnpackedFloat.unpackMantissa_packComponents
  have hexponent : UnpackedFloat.unpackExponent
      (UnpackedFloat.packedInfinity Format.binary64 s) = -1#_ :=
    UnpackedFloat.unpackExponent_packComponents
  generalize UnpackedFloat.packedInfinity Format.binary64 s = b at hmantissa hexponent
  unfold UnpackedFloat.unpack
  dsimp only
  rw [if_pos hexponent, if_pos hmantissa]
  exact UnpackedFloat.noConfusion

/-- What is packed is a number when the value is. -/
theorem isNumber_pack {x : UnpackedFloat} (h : x ≠ .notANumber) : IsNumber (pack x) := by
  rw [isNumber_iff]
  cases x with
  | notANumber => exact absurd rfl h
  | infinity s => exact unpack_packedInfinity s
  | zero s =>
      intro hnan
      have hfinite := isFinite_pack_zero s
      rw [hnan] at hfinite
      cases hfinite
  | finite s m e hm =>
      by_cases he : (e + 1075).toNat + 1 < 2 ^ 11
      · intro hnan
        have hfinite := @isFinite_pack_finite s m e hm he
        rw [hnan] at hfinite
        cases hfinite
      · -- The exponent does not fit and the value overflows.
        rw [unpack_pack, pack_finite, if_pos (by omega)]
        exact unpack_packedInfinity s

/-! ### The operations -/

theorem roundWithAccuracy_ne (s : UnpackedFloat.Sign) (m : Nat) (e : Int)
    (accuracy : UnpackedFloat.Accuracy) :
    UnpackedFloat.roundWithAccuracy Format.binary64 s m e accuracy ≠ .notANumber := by
  intro hnan
  -- The rounded significand is zero or not.
  obtain ⟨hzero, hfinite⟩ := dite_eq_iff'.mp hnan
  rcases em _ with h | h
  · cases hzero h
  · cases hfinite h

theorem normalize_ne (m : Int) (e : Int) (s : UnpackedFloat.Sign) :
    UnpackedFloat.normalize Format.binary64 m e s ≠ .notANumber := by
  unfold UnpackedFloat.normalize UnpackedFloat.round
  split
  · exact roundWithAccuracy_ne _ _ _ _
  · exact UnpackedFloat.noConfusion
  · exact roundWithAccuracy_ne _ _ _ _

theorem isNumber_sub {a b : Double} (ha : a.isFinite = true) (hb : b.isFinite = true) :
    IsNumber (a - b) := by
  rw [isFinite_iff] at ha hb
  refine isNumber_pack ?_
  cases hx : a.unpack with
  | notANumber => rw [hx] at ha; cases ha
  | infinity => rw [hx] at ha; cases ha
  | zero s =>
      cases hy : b.unpack with
      | notANumber => rw [hy] at hb; cases hb
      | infinity => rw [hy] at hb; cases hb
      | zero s' =>
          unfold UnpackedFloat.sub
          dsimp only
          split <;> exact UnpackedFloat.noConfusion
      | finite => exact UnpackedFloat.noConfusion
  | finite =>
      cases hy : b.unpack with
      | notANumber => rw [hy] at hb; cases hb
      | infinity => rw [hy] at hb; cases hb
      | zero => exact UnpackedFloat.noConfusion
      | finite => exact normalize_ne _ _ _

theorem isNumber_mul {a b : Double} (ha : IsNumber a)
    (hb : ∃ s m e h, b.unpack = .finite s m e h) : IsNumber (a * b) := by
  obtain ⟨s, m, e, h, hb⟩ := hb
  rw [isNumber_iff] at ha
  refine isNumber_pack ?_
  rw [hb]
  cases hx : a.unpack with
  | notANumber => exact absurd hx ha
  | infinity => exact UnpackedFloat.noConfusion
  | zero => exact UnpackedFloat.noConfusion
  | finite => exact roundWithAccuracy_ne _ _ _ _

theorem isNumber_abs {a : Double} (h : IsNumber a) : IsNumber a.abs := by
  rw [isNumber_iff] at h
  refine isNumber_pack fun hnan => h ?_
  cases hx : a.unpack <;> rw [hx] at hnan <;> cases hnan

/-- The exponent of an unpacked value fits its field. -/
theorem exponent_of_unpack {b : BitVec Format.binary64.numBits} {s : UnpackedFloat.Sign} {m : Nat}
    {e : Int} {h : 0 < m} (hb : UnpackedFloat.unpack Format.binary64 b = .finite s m e h) :
    (e + 1075).toNat + 1 < 2 ^ 11 := by
  have hfull : UnpackedFloat.unpackExponent b ≠ -1#_ := by
    rw [← isFinite_unpack_iff, hb]
    rfl
  have hlt : (UnpackedFloat.unpackExponent b).toNat < 2047 := by
    have hfield : _ < 2048 := (UnpackedFloat.unpackExponent b).isLt
    rw [ne_eq, ← BitVec.toNat_inj] at hfull
    change ¬ _ = 2047 at hfull
    omega
  unfold UnpackedFloat.unpack at hb
  dsimp only at hb
  rw [if_neg hfull] at hb
  by_cases hexponent : UnpackedFloat.unpackExponent b = 0#_
  · -- A zero has no exponent, and a subnormal value has the least one.
    rw [if_pos hexponent] at hb
    by_cases hmantissa : UnpackedFloat.unpackMantissa b = 0#_
    · rw [dif_pos hmantissa] at hb
      cases hb
    · rw [dif_neg hmantissa] at hb
      injection hb with _ _ he
      rw [← he, hexponent]
      decide
  · rw [if_neg hexponent] at hb
    injection hb with _ _ he
    rw [← he]
    show ((_ : Int) - (1023 + 52) + 1075).toNat + 1 < 2048
    omega

theorem isFinite_abs {a : Double} (h : a.isFinite = true) : a.abs.isFinite = true := by
  rw [isFinite_iff] at h ⊢
  unfold abs
  cases hx : a.unpack with
  | notANumber => rw [hx] at h; cases h
  | infinity => rw [hx] at h; cases h
  | zero => exact isFinite_pack_zero .positive
  | finite => exact isFinite_pack_finite (exponent_of_unpack hx)

theorem abs_eq_of_rank {x y : UnpackedFloat} (h : rank x = rank y) : x.abs = y.abs := by
  rcases x with (_ | _) | _ | _ | ⟨_ | _, m, e, _⟩ <;>
    rcases y with (_ | _) | _ | _ | ⟨_ | _, m', e', _⟩ <;>
    dsimp only [rank] at h <;> simp at h
  · rfl
  · rfl
  · rfl
  · rfl
  · obtain ⟨rfl, rfl⟩ := h
    rfl
  · obtain ⟨rfl, rfl⟩ := h
    rfl

/-- Values that compare as equal have one absolute value. -/
theorem abs_eq_of_le {a b : Double} (hab : a ≤ b) (hba : b ≤ a) : a.abs = b.abs := by
  obtain ⟨x, hx, y, hy, hxy⟩ := (le_iff_rank _ _).mp hab
  obtain ⟨y', hy', x', hx', hyx⟩ := (le_iff_rank _ _).mp hba
  rw [Option.mem_unique hy' hy, Option.mem_unique hx' hx] at hyx
  refine congrArg pack (abs_eq_of_rank ?_)
  rw [Option.mem_def.mp hx, Option.mem_def.mp hy, le_antisymm hxy hyx]

end Double

end CongestionObservatory
