import Mathlib.Order.Lattice
import CongestionObservatory.Core.Basic

/-!
# `CongestionObservatory.Core.Time`: timestamps and durations

`Timestamp` and `Duration` (`core/time.hpp`) are signed 64-bit counts of nanoseconds. The
operators are the plain C++ ones, so they are modelled as two's complement arithmetic on
`Int64`: a sum outside the range wraps.
-/

set_option autoImplicit false

namespace CongestionObservatory

open Lib

/-- Nanoseconds since the Unix epoch. -/
structure Timestamp where
  nanos : Int64
  deriving DecidableEq, Repr

/-- A signed number of nanoseconds. -/
structure Duration where
  nanos : Int64
  deriving DecidableEq, Repr

namespace Timestamp

theorem nanos_injective : Function.Injective Timestamp.nanos := by
  rintro ⟨a⟩ ⟨b⟩ h
  exact congrArg Timestamp.mk h

instance : LinearOrder Timestamp := LinearOrder.lift' Timestamp.nanos nanos_injective

/-- The zero timestamp, the default of every timestamp field. -/
def zero : Timestamp := ⟨0⟩

/-- `Timestamp::is_zero`. -/
def isZero (t : Timestamp) : Bool := t.nanos == 0

end Timestamp

namespace Duration

theorem nanos_injective : Function.Injective Duration.nanos := by
  rintro ⟨a⟩ ⟨b⟩ h
  exact congrArg Duration.mk h

instance : LinearOrder Duration := LinearOrder.lift' Duration.nanos nanos_injective

/-- `Duration::zero`. -/
def zero : Duration := ⟨0⟩

/-- `Duration::is_negative`. -/
def isNegative (d : Duration) : Bool := d.nanos < 0

/-- `Duration::from_seconds`. -/
def fromSeconds (seconds : Int64) : Duration := ⟨seconds * 1000000000⟩

/-- `Duration::from_minutes`. -/
def fromMinutes (minutes : Int64) : Duration := ⟨minutes * 60 * 1000000000⟩

end Duration

instance : HAdd Timestamp Duration Timestamp := ⟨fun base delta => ⟨base.nanos + delta.nanos⟩⟩

instance : HSub Timestamp Duration Timestamp := ⟨fun base delta => ⟨base.nanos - delta.nanos⟩⟩

instance : HSub Timestamp Timestamp Duration := ⟨fun lhs rhs => ⟨lhs.nanos - rhs.nanos⟩⟩

theorem Timestamp.le_iff {a b : Timestamp} : a ≤ b ↔ a.nanos.toInt ≤ b.nanos.toInt :=
  Int64.le_iff_toInt_le

theorem Timestamp.lt_iff {a b : Timestamp} : a < b ↔ a.nanos.toInt < b.nanos.toInt :=
  Int64.lt_iff_toInt_lt

theorem Duration.le_iff {a b : Duration} : a ≤ b ↔ a.nanos.toInt ≤ b.nanos.toInt :=
  Int64.le_iff_toInt_le

theorem Duration.lt_iff {a b : Duration} : a < b ↔ a.nanos.toInt < b.nanos.toInt :=
  Int64.lt_iff_toInt_lt

/-- `ClockDomain`: where a timestamp came from. -/
inductive ClockDomain where
  | unknown
  | sourceMonotonic
  | sourceWallClock
  | collectorMonotonic
  | collectorWallClock
  | undeclared (raw : UInt8) (h : 5 ≤ raw)
  deriving DecidableEq, Repr

instance : ScopedEnum ClockDomain UInt8 where
  toUnderlying
    | .unknown => 0
    | .sourceMonotonic => 1
    | .sourceWallClock => 2
    | .collectorMonotonic => 3
    | .collectorWallClock => 4
    | .undeclared raw _ => raw
  ofUnderlying raw :=
    if h : 5 ≤ raw then .undeclared raw h
    else [.unknown, .sourceMonotonic, .sourceWallClock, .collectorMonotonic,
      .collectorWallClock].getD raw.toNat .unknown
  ofUnderlying_toUnderlying e := by
    cases e with
    | undeclared raw h => exact dif_pos h
    | _ => rfl

end CongestionObservatory
