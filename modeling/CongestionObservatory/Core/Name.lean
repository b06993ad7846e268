import CongestionObservatory.Core.Basic

/-!
# `CongestionObservatory.Core.Name`: canonical names

`Name` (`core/name.hpp`) is the textual identity of a domain object. The only ways to build
one are the default constructor, which gives the empty name, and `parse` or `unchecked`, which
validate. The structure carries that fact, so a non-empty name that is not canonical cannot be
built.
-/

set_option autoImplicit false

namespace CongestionObservatory

open Lib

/-- `is_allowed_char`. -/
def isAllowedChar (c : UInt8) : Bool :=
  (0x61 ≤ c && c ≤ 0x7a) || (0x41 ≤ c && c ≤ 0x5a) || (0x30 ≤ c && c ≤ 0x39)
    || (ascii "-_.:/@#|+=,").contains c

/-- `is_separator`. -/
def isSeparator (c : UInt8) : Bool := (ascii "/:|,.").contains c

/-- `Name::kMaxLength`. -/
def kMaxLength : Nat := 96

/-- The first offset at which a separator follows a separator. The text starts at `offset`
and `previous` is the character before it. -/
def emptySegmentAt (previous : UInt8) : Text → Nat → Option Nat
  | [], _ => none
  | c :: rest, offset =>
    if isSeparator c && isSeparator previous then some offset
    else emptySegmentAt c rest (offset + 1)

/-- `validate` of `name.cpp`: the rules of the canonical form, in the order they are checked. -/
def validateName (text : Text) : Result Text :=
  match text with
  | [] => .error (makeError .invalidArgument "name must not be empty")
  | first :: rest =>
    if text.length > kMaxLength then
      .error (makeError .limitExceeded "name exceeds maximum length"
        (ascii "length=" ++ decimal text.length ++ ascii " max=" ++ decimal kMaxLength))
    else match text.findIdx? (fun c => !isAllowedChar c) with
    | some i => .error (makeError .invalidArgument "name contains a non canonical character"
        (ascii "offset=" ++ decimal i))
    | none =>
      if isSeparator first then
        .error (makeError .invalidArgument "name must not start with a separator")
      else if isSeparator (rest.getLastD first) then
        .error (makeError .invalidArgument "name must not end with a separator")
      else match emptySegmentAt first rest 1 with
      | some i => .error (makeError .invalidArgument "name contains an empty segment"
          (ascii "offset=" ++ decimal i))
      | none => .ok text

/-- A text that validates is returned unchanged. -/
theorem validateName_ok {text t : Text} (h : validateName text = .ok t) : t = text := by
  unfold validateName at h
  split at h
  · cases h
  · split at h
    · cases h
    · split at h
      · cases h
      · split at h
        · cases h
        · split at h
          · cases h
          · split at h
            · cases h
            · exact (Except.ok.inj h).symm

/-- A name: empty, or canonical. -/
structure Name where
  str : Text
  canonical : str = [] ∨ validateName str = .ok str

namespace Name

theorem str_injective : Function.Injective Name.str := by
  rintro ⟨a, _⟩ ⟨b, _⟩ h
  cases h
  rfl

instance : DecidableEq Name := fun a b =>
  decidable_of_iff (a.str = b.str) ⟨fun h => str_injective h, fun h => by rw [h]⟩

/-- The order of the names is the order of their texts. -/
instance : LinearOrder Name := LinearOrder.lift' Name.str str_injective

/-- The default name. -/
def default : Name := ⟨[], Or.inl rfl⟩

instance : Inhabited Name := ⟨default⟩

/-- `Name::valid`. -/
def valid (n : Name) : Bool := !n.str.isEmpty

/-- `Name::parse`. -/
def parse (text : Text) : Result Name :=
  match h : validateName text with
  | .error e => .error e
  | .ok t => .ok ⟨t, Or.inr (by have ht := validateName_ok h; subst ht; exact h)⟩

/-- `Name::unchecked`: the empty name when the text is not canonical. -/
def unchecked (text : Text) : Name :=
  match parse text with
  | .error _ => default
  | .ok n => n

/-- The parsed name has the parsed text. -/
theorem parse_ok_str {text : Text} {n : Name} (h : parse text = .ok n) : n.str = text := by
  unfold parse at h
  split at h
  · cases h
  · rename_i t hv
    cases h
    exact validateName_ok hv

/-- Parsing the text of a name gives the name back, unless it is the empty one. -/
theorem parse_str {n : Name} (h : n.valid = true) : parse n.str = .ok n := by
  have hv : validateName n.str = .ok n.str := by
    rcases n.canonical with hnil | hok
    · simp [valid, hnil] at h
    · exact hok
  unfold parse
  split
  · rename_i e he
    rw [hv] at he
    cases he
  · rename_i t ht
    rw [hv] at ht
    cases ht
    rfl

/-- What `unchecked` returns is empty or carries the text. -/
theorem unchecked_str (text : Text) : (unchecked text).valid = true → (unchecked text).str = text := by
  unfold unchecked
  cases h : parse text with
  | error e => simp [default, valid]
  | ok n => intro _; exact parse_ok_str h

/-- A parsed name is valid. -/
theorem parse_ok_valid {text : Text} {n : Name} (h : parse text = .ok n) : n.valid = true := by
  have hs := parse_ok_str h
  cases text with
  | nil => simp [parse, validateName] at h
  | cons c rest => simp [valid, hs]

end Name

/-- `EntityId<Tag>`: the name of an object of one kind. -/
structure EntityId (Tag : Type) where
  name : Name
  deriving DecidableEq

namespace EntityId

variable {Tag : Type}

theorem name_injective : Function.Injective fun id : EntityId Tag => id.name := by
  rintro ⟨a⟩ ⟨b⟩ h
  cases h
  rfl

instance : LinearOrder (EntityId Tag) := LinearOrder.lift' EntityId.name name_injective

/-- The default identity, with the empty name. -/
def default : EntityId Tag := ⟨Name.default⟩

instance : Inhabited (EntityId Tag) := ⟨default⟩

/-- `EntityId::valid`. -/
def valid (id : EntityId Tag) : Bool := id.name.valid

/-- `EntityId::str`. -/
def str (id : EntityId Tag) : Text := id.name.str

/-- `EntityId::parse`. -/
def parse (text : Text) : Result (EntityId Tag) := do
  let name ← Name.parse text
  pure ⟨name⟩

/-- `EntityId::unchecked`. -/
def unchecked (text : Text) : EntityId Tag := ⟨Name.unchecked text⟩

theorem parse_str {id : EntityId Tag} (h : id.valid = true) : parse id.str = .ok id := by
  unfold parse str
  rw [Name.parse_str h]
  rfl

theorem parse_ok {text : Text} {id : EntityId Tag} (h : parse text = .ok id) :
    id.str = text ∧ id.valid = true := by
  obtain ⟨name, hname, hid⟩ := bind_eq_ok.mp h
  cases hid
  exact ⟨Name.parse_ok_str hname, Name.parse_ok_valid hname⟩

end EntityId

end CongestionObservatory
