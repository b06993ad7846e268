import CongestionObservatory.Core.Basic
import CongestionObservatory.Lib.MachineInteger

/-!
# `CongestionObservatory.Core.Integral`: the checked operations as they are written

The templates `checked_add` and `checked_mul` (`core/checked.hpp`) test their operands before they
add or multiply them. Here they are functions over any integral type, with each intermediate
difference, quotient, sum and product an operation that may fault. `none` is where the source
returns `false` and leaves `out` alone.

`Core.Checked` has what the rest of the model needs of them.
-/

set_option autoImplicit false

namespace CongestionObservatory

open Lib

/-- `std::uint64_t`. -/
def kUInt64 : IntegerType := .unsigned 64

/-- `std::int64_t`. -/
def kInt64 : IntegerType := .signed 63

namespace Integral

variable {T : IntegerType}

/-- The tests of `checked_add`. At most one of the two for signed types looks at a difference. -/
def addOverflows (lhs rhs : T.Value) : Except Fault Bool :=
  if T.isUnsigned then do
    let room ← IntegerType.sub T.maxValue lhs
    pure (decide (rhs.val > room.val))
  else if rhs.val > 0 then do
    let room ← IntegerType.sub T.maxValue rhs
    pure (decide (lhs.val > room.val))
  else if rhs.val < 0 then do
    let room ← IntegerType.sub T.minValue rhs
    pure (decide (lhs.val < room.val))
  else pure false

/-- `checked_add`. -/
def checkedAdd (lhs rhs : T.Value) : Except Fault (Option T.Value) := do
  let overflows ← addOverflows lhs rhs
  if overflows then pure none else some <$> IntegerType.add lhs rhs

/-- The tests of `checked_mul`, for operands that are not zero. -/
def mulOverflows (lhs rhs : T.Value) : Except Fault Bool :=
  if T.isUnsigned then do
    let most ← IntegerType.div T.maxValue rhs
    pure (decide (lhs.val > most.val))
  else if lhs.val > 0 then
    if rhs.val > 0 then do
      let most ← IntegerType.div T.maxValue rhs
      pure (decide (lhs.val > most.val))
    else do
      let least ← IntegerType.div T.minValue lhs
      pure (decide (rhs.val < least.val))
  else if rhs.val > 0 then do
    let least ← IntegerType.div T.minValue rhs
    pure (decide (lhs.val < least.val))
  else if lhs.val ≠ 0 then do
    let least ← IntegerType.div T.maxValue lhs
    pure (decide (rhs.val < least.val))
  else pure false

/-- `checked_mul`. -/
def checkedMul (lhs rhs : T.Value) : Except Fault (Option T.Value) :=
  if lhs.val = 0 ∨ rhs.val = 0 then pure (some T.zero)
  else do
    let overflows ← mulOverflows lhs rhs
    if overflows then pure none else some <$> IntegerType.mul lhs rhs

/-- A value in decimal, as `std::to_string` gives it. -/
def toString (value : kUInt64.Value) : Text := decimal value.val.toNat

/-- `checked_add_within`. -/
def checkedAddWithin (lhs rhs bound : kUInt64.Value) (what : Text) :
    Except Fault (Result kUInt64.Value) := do
  match ← checkedAdd lhs rhs with
  | none => pure (.error
      { code := .arithmeticOverflow, message := ascii "overflow adding " ++ what })
  | some sum =>
    if sum.val > bound.val then pure (.error
      { code := .limitExceeded, message := what ++ ascii " exceeds configured bound"
        detail := ascii "value=" ++ toString sum ++ ascii " bound=" ++ toString bound })
    else pure (.ok sum)

end Integral

end CongestionObservatory
