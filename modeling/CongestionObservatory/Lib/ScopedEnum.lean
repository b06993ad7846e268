import Mathlib.Logic.Function.Basic

/-!
# `CongestionObservatory.Lib.ScopedEnum`: scoped enumerations with a fixed underlying type

A C++ `enum class` with a fixed underlying type admits every number of that type, also those
no enumerator has: a `static_cast` from a byte read off a file is such a number. An
enumeration of this kind is an inductive type with one constructor per enumerator and one
constructor `undeclared` for the other numbers. `ScopedEnum` gives the two casts. The law is
that a cast to the underlying type loses nothing.
-/

set_option autoImplicit false

namespace Lib

/-- The casts between an enumeration and its underlying type. -/
class ScopedEnum (E : Type) (U : outParam Type) where
  toUnderlying : E → U
  ofUnderlying : U → E
  ofUnderlying_toUnderlying : ∀ e, ofUnderlying (toUnderlying e) = e

export ScopedEnum (toUnderlying ofUnderlying)

@[simp] theorem ofUnderlying_toUnderlying {E U : Type} [ScopedEnum E U] (e : E) :
    (ofUnderlying (toUnderlying e) : E) = e :=
  ScopedEnum.ofUnderlying_toUnderlying e

theorem toUnderlying_injective {E U : Type} [ScopedEnum E U] :
    Function.Injective (toUnderlying : E → U) :=
  Function.LeftInverse.injective ofUnderlying_toUnderlying

end Lib
