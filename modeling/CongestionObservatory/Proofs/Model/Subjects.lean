import CongestionObservatory.Proofs.Model.Names
import Mathlib.Data.Nat.ModEq
import Mathlib.Tactic.Ring

/-!
# `CongestionObservatory.Proofs.Model.Subjects`: the texts of subjects and digests

A subject is written as its kind, a colon and its name. No kind has a colon, so the first one
separates them again: `parseSubject_str` and `parseSubject_ok` are the two directions. A digest is
written as 32 hexadecimal digits, the most significant first. `hexWord_hexDigits` reads the digits
of a word back, and `hexDigits_hexWord` writes the digits that were read. The order of the subjects
compares kind numbers first, and is the order by `orderKey`.
-/

set_option autoImplicit false

namespace CongestionObservatory

/-! ### Subjects -/

/-- The subject is empty, or it names an object. -/
def EvidenceSubject.Named (s : EvidenceSubject) : Prop := s = .none ∨ s.nameText ≠ []

/-- A text that is split at its first colon. -/
theorem parseSubject_append {kindText nameText : Text} (hcolon : (0x3a : UInt8) ∉ kindText)
    (hkind : kindText ≠ []) (hname : nameText ≠ []) :
    parseSubject (kindText ++ ascii ":" ++ nameText) = parseSubjectKind kindText nameText := by
  have hascii : ascii ":" = [0x3a] := by decide
  have hindex : (kindText ++ ascii ":" ++ nameText).findIdx? (· == 0x3a)
      = some kindText.length := by
    rw [hascii, List.append_assoc, List.findIdx?_append]
    have hnone : kindText.findIdx? (· == 0x3a) = none := by
      rw [List.findIdx?_eq_none_iff]
      intro c hc
      have hne : c ≠ 0x3a := fun heq => hcolon (heq ▸ hc)
      simpa using hne
    rw [hnone]
    simp [List.findIdx?_cons]
  have hpos : 0 < kindText.length := List.length_pos_iff.mpr hkind
  have hpos' : 0 < nameText.length := List.length_pos_iff.mpr hname
  have hlength : (kindText ++ ascii ":" ++ nameText).length
      = kindText.length + 1 + nameText.length := by
    rw [List.length_append, List.length_append, hascii]
    rfl
  unfold parseSubject
  simp only [hindex]
  rw [if_neg (by rw [hlength]; omega)]
  have htake : (kindText ++ ascii ":" ++ nameText).take kindText.length = kindText := by
    rw [List.append_assoc, List.take_left]
  have hdrop : (kindText ++ ascii ":" ++ nameText).drop (kindText.length + 1) = nameText := by
    rw [show kindText.length + 1 = (kindText ++ ascii ":").length by simp [hascii], List.drop_left]
  rw [htake, hdrop]

theorem parseSubjectId_str {Tag : Type} {wrap : EntityId Tag → EvidenceSubject} {label : String}
    {id : EntityId Tag} (h : id.str ≠ []) : parseSubjectId wrap label id.str = .ok (wrap id) := by
  have hvalid : id.valid = true := by
    simpa [EntityId.valid, Name.valid, EntityId.str] using h
  rw [parseSubjectId, EntityId.parse_str hvalid]

theorem SubjectKind.toText_shape (k : SubjectKind) :
    (0x3a : UInt8) ∉ k.toText ∧ k.toText ≠ [] ∧ k.toText.length ≤ 8 := by
  cases k <;> decide

/-- The rendering of a subject that names an object is parsed back. -/
theorem parseSubject_str {s : EvidenceSubject} (h : s.nameText ≠ []) :
    parseSubject s.str = .ok s := by
  obtain ⟨hcolon, hkind, -⟩ := s.kind.toText_shape
  rw [EvidenceSubject.str, parseSubject_append hcolon hkind h]
  cases s with
  | none => exact absurd rfl h
  | _ id => exact parseSubjectId_str h

/-- The two parts of a text that is parsed are those of the subject. -/
theorem parseSubjectKind_ok {kindText nameText : Text} {subject : EvidenceSubject}
    (h : parseSubjectKind kindText nameText = .ok subject) :
    subject.kind.toText = kindText ∧ subject.nameText = nameText ∧ nameText ≠ [] := by
  -- Every kind that takes an identifier parses it, and a parsed identifier is a valid name.
  have hid : ∀ {Tag : Type} {wrap : EntityId Tag → EvidenceSubject} {label : String},
      (∀ id, (wrap id).kind.toText = kindText ∧ (wrap id).nameText = id.str) →
      parseSubjectId wrap label nameText = .ok subject →
      subject.kind.toText = kindText ∧ subject.nameText = nameText ∧ nameText ≠ [] := by
    intro Tag wrap label hwrap hparse
    unfold parseSubjectId at hparse
    split at hparse
    · cases hparse
    · next id hok =>
        cases hparse
        obtain ⟨hkind, hname⟩ := hwrap id
        obtain ⟨hstr, hvalid⟩ := EntityId.parse_ok hok
        refine ⟨hkind, hname.trans hstr, ?_⟩
        rintro hempty
        rw [EntityId.valid, Name.valid, ← EntityId.str, hstr, hempty] at hvalid
        cases hvalid
  have hbranch : ∀ {condition : Prop} [Decidable condition] {a b : Result EvidenceSubject},
      (if condition then a else b) = .ok subject →
        condition ∧ a = .ok subject ∨ b = .ok subject := by
    intro condition _ a b hif
    split at hif
    · next hc => exact Or.inl ⟨hc, hif⟩
    · exact Or.inr hif
  unfold parseSubjectKind at h
  -- The kinds in the order of the source; the last branch is the error for an unknown one.
  iterate 11
    rcases hbranch h with ⟨rfl, h⟩ | h
    · exact hid (fun _ => ⟨rfl, rfl⟩) h
  cases h

/-- A text is split at its first colon. -/
theorem parseSubject_ok {text : Text} {subject : EvidenceSubject}
    (h : parseSubject text = .ok subject) : subject.str = text ∧ subject.nameText ≠ [] := by
  unfold parseSubject at h
  cases hindex : text.findIdx? (· == 0x3a) with
  | none =>
      rw [hindex] at h
      cases h
  | some separator =>
      rw [hindex] at h
      dsimp only at h
      split at h
      · cases h
      obtain ⟨hkind, hname, hnonempty⟩ := parseSubjectKind_ok h
      obtain ⟨hlt, hcolon, -⟩ := List.findIdx?_eq_some_iff_getElem.mp hindex
      have hcolon' : text[separator] = 0x3a := by simpa using hcolon
      refine ⟨?_, hname ▸ hnonempty⟩
      rw [EvidenceSubject.str, hkind, hname, List.append_assoc]
      calc text.take separator ++ (ascii ":" ++ text.drop (separator + 1))
          = text.take separator ++ text.drop separator := by
            rw [List.drop_eq_getElem_cons hlt, hcolon']
            rfl
        _ = text := List.take_append_drop separator text

/-- A subject that is parsed names an object. -/
theorem nameText_of_parseSubject {text : Text} {subject : EvidenceSubject}
    (h : parseSubject text = .ok subject) : subject.nameText ≠ [] :=
  (parseSubject_ok h).2

namespace EvidenceSubject

/-- The comparison of the source is the order by the kind number and the rendering. -/
theorem less_iff_lt {s t : EvidenceSubject} : less s t = true ↔ s < t := by
  have hkey : s < t ↔ s.kind.toUInt8 < t.kind.toUInt8 ∨
      s.kind.toUInt8 = t.kind.toUInt8 ∧ s.str < t.str := Prod.Lex.toLex_lt_toLex
  rw [hkey, less]
  by_cases hkind : s.kind.toUInt8 = t.kind.toUInt8
  · simp [hkind]
  · simp [hkind]

/-- Neither is less than the other, so they are the same. -/
theorem equal_iff_eq {s t : EvidenceSubject} : equal s t = true ↔ s = t := by
  rw [equal, Bool.and_eq_true, Bool.not_eq_true', Bool.not_eq_true', ← Bool.not_eq_true,
    ← Bool.not_eq_true, less_iff_lt, less_iff_lt, not_lt, not_lt]
  exact ⟨fun h => le_antisymm h.2 h.1, fun h => ⟨h.ge, h.le⟩⟩

end EvidenceSubject

/-! ### Digests -/

namespace DigestId

/-- The digit of a nibble, as `to_hex` writes it. -/
def nibbleDigit (nibble : UInt64) : UInt8 :=
  if nibble < 10 then 0x30 + nibble.toUInt8 else 0x61 + (nibble - 10).toUInt8

theorem hexNibble_nibbleDigit {nibble : UInt64} (h : nibble.toNat < 16) :
    hexNibble (nibbleDigit nibble) = some nibble := by
  have hcases : ∀ n < 16, hexNibble (nibbleDigit (UInt64.ofNat n)) = some (UInt64.ofNat n) := by
    decide
  have hn := hcases nibble.toNat h
  rwa [UInt64.ofNat_toNat] at hn

/-- Only the digits that `to_hex` writes are read. -/
theorem nibbleDigit_of_hexNibble {c : UInt8} {nibble : UInt64} (h : hexNibble c = some nibble) :
    nibble.toNat < 16 ∧ nibbleDigit nibble = c := by
  have hcases : ∀ n < 256, (hexNibble (UInt8.ofNat n)).all
      (fun m => decide (m.toNat < 16 ∧ nibbleDigit m = UInt8.ofNat n)) = true := by
    decide +kernel
  have hc := hcases c.toNat c.toNat_lt
  rw [UInt8.ofNat_toNat, h] at hc
  exact of_decide_eq_true hc

/-- The digit for the nibble at one place of a word. -/
theorem hexDigits_succ (value : UInt64) {digits : Nat} (h : digits < 16) :
    ∃ nibble : UInt64, nibble.toNat = value.toNat / 16 ^ digits % 16 ∧
      hexDigits value (digits + 1) = nibbleDigit nibble :: hexDigits value digits := by
  refine ⟨(value >>> (4 * UInt64.ofNat digits)) &&& 0xf, ?_, rfl⟩
  have hshift : (4 * UInt64.ofNat digits).toNat % 64 = 4 * digits := by
    rw [UInt64.toNat_mul, UInt64.toNat_ofNat_of_lt' (lt_trans h (by decide))]
    show 4 * digits % 2 ^ 64 % 64 = 4 * digits
    omega
  have hmask : (0xf : UInt64).toNat = 2 ^ 4 - 1 := rfl
  rw [UInt64.toNat_and, UInt64.toNat_shiftRight, hshift, hmask, Nat.and_two_pow_sub_one_eq_mod,
    Nat.shiftRight_eq_div_pow, Nat.pow_mul]

/-- A digit is shifted into a word. -/
theorem toNat_shiftIn (value nibble : UInt64) (h : nibble.toNat < 16) :
    ((value <<< 4) ||| nibble).toNat = (value.toNat * 16 + nibble.toNat) % 2 ^ 64 := by
  have hvalue := value.toNat_lt
  have hshift : (value <<< 4).toNat = value.toNat % 2 ^ 60 * 2 ^ 4 := by
    rw [UInt64.toNat_shiftLeft]
    show value.toNat <<< 4 % 2 ^ 64 = _
    rw [Nat.shiftLeft_eq]
    omega
  rw [UInt64.toNat_or, hshift, ← Nat.shiftLeft_eq, ← Nat.shiftLeft_add_eq_or_of_lt h,
    Nat.shiftLeft_eq]
  omega

/-- The digits of a word are read back behind what was read before them. -/
theorem hexWord_hexDigits (value acc : UInt64) {digits : Nat} (h : digits ≤ 16) :
    ∃ word, hexWord acc (hexDigits value digits) = .ok word ∧
      word.toNat = (acc.toNat * 16 ^ digits + value.toNat % 16 ^ digits) % 2 ^ 64 := by
  induction digits generalizing acc with
  | zero =>
      refine ⟨acc, rfl, ?_⟩
      have hacc := acc.toNat_lt
      simp only [Nat.pow_zero, Nat.mod_one]
      omega
  | succ digits ih =>
      obtain ⟨nibble, hnibble, hdigits⟩ := hexDigits_succ value (Nat.lt_of_succ_le h)
      have hlt : nibble.toNat < 16 := by omega
      obtain ⟨word, hread, hword⟩ := ih ((acc <<< 4) ||| nibble) (Nat.le_of_succ_le h)
      refine ⟨word, ?_, ?_⟩
      · rw [hdigits, hexWord, hexNibble_nibbleDigit hlt]
        exact hread
      · calc word.toNat
            = ((acc.toNat * 16 + value.toNat / 16 ^ digits % 16) % 2 ^ 64 * 16 ^ digits
                + value.toNat % 16 ^ digits) % 2 ^ 64 := by
              rw [hword, toNat_shiftIn acc nibble hlt, hnibble]
          _ = ((acc.toNat * 16 + value.toNat / 16 ^ digits % 16) * 16 ^ digits
                + value.toNat % 16 ^ digits) % 2 ^ 64 :=
              ((Nat.mod_modEq _ _).mul_right _).add_right _
          _ = (acc.toNat * 16 ^ (digits + 1) + value.toNat % 16 ^ (digits + 1)) % 2 ^ 64 := by
              have hplaces : value.toNat % 16 ^ (digits + 1)
                  = value.toNat % 16 ^ digits + 16 ^ digits * (value.toNat / 16 ^ digits % 16) :=
                Nat.mod_pow_succ
              rw [hplaces]
              congr 1
              ring

/-- The digits that were read are those of the word, below what was read before them. -/
theorem hexDigits_hexWord {text : Text} {acc word : UInt64} (h : hexWord acc text = .ok word)
    (hlength : text.length ≤ 16) (hacc : acc.toNat < 16 ^ (16 - text.length)) :
    word.toNat / 16 ^ text.length = acc.toNat ∧ hexDigits word text.length = text := by
  induction text generalizing acc with
  | nil =>
      cases h
      exact ⟨Nat.div_one _, rfl⟩
  | cons c rest ih =>
      rw [List.length_cons] at hlength hacc ⊢
      rw [hexWord] at h
      cases hnibble : hexNibble c with
      | none =>
          rw [hnibble] at h
          cases h
      | some nibble =>
          rw [hnibble] at h
          obtain ⟨hlt, hdigit⟩ := nibbleDigit_of_hexNibble hnibble
          -- No digit is lost: the word has room for the ones that are still to come.
          have hroom : 16 ^ (16 - rest.length) = 16 ^ (16 - (rest.length + 1)) * 16 := by
            rw [← Nat.pow_succ]
            congr 1
            omega
          have hword : 16 ^ (16 - rest.length) ≤ 2 ^ 64 :=
            Nat.pow_le_pow_right (by decide) (Nat.sub_le 16 rest.length)
          have hshift : ((acc <<< 4) ||| nibble).toNat = acc.toNat * 16 + nibble.toNat := by
            rw [toNat_shiftIn acc nibble hlt]
            omega
          obtain ⟨hacc', hrest⟩ := ih h (Nat.le_of_succ_le hlength) (by omega)
          rw [hshift] at hacc'
          obtain ⟨place, hplace, hdigits⟩ := hexDigits_succ word (Nat.lt_of_succ_le hlength)
          have heq : place = nibble := by
            apply UInt64.toNat_inj.mp
            omega
          constructor
          · rw [Nat.pow_succ, ← Nat.div_div_eq_div_mul, hacc']
            omega
          · rw [hdigits, hrest, heq, hdigit]

theorem length_hexDigits (value : UInt64) (digits : Nat) :
    (hexDigits value digits).length = digits := by
  induction digits with
  | zero => rfl
  | succ digits ih => rw [hexDigits, List.length_cons, ih]

variable {Tag : Type}

/-- A word is read back from its sixteen digits. -/
theorem hexWord_toHex (value : UInt64) : hexWord 0 (toHex value) = .ok value := by
  obtain ⟨word, hread, hword⟩ := hexWord_hexDigits value 0 (Nat.le_refl 16)
  have hvalue := value.toNat_lt
  have heq : word = value := by
    apply UInt64.toNat_inj.mp
    rw [hword, UInt64.toNat_zero]
    omega
  rw [toHex, hread, heq]

theorem length_str (id : DigestId Tag) : id.str.length = kHexLength := by
  rw [str, List.length_append, toHex, toHex, length_hexDigits, length_hexDigits]
  rfl

theorem parse_str (id : DigestId Tag) : parse id.str = .ok id := by
  have hlength0 : (toHex id.word0).length = 16 := length_hexDigits id.word0 16
  rw [parse, failIf, if_neg (not_not.mpr id.length_str), str, List.take_left' hlength0,
    List.drop_left' hlength0, hexWord_toHex, hexWord_toHex]
  rfl

theorem str_injective : Function.Injective (str : DigestId Tag → Text) := by
  intro a b h
  exact Except.ok.inj ((parse_str a).symm.trans (by rw [h, parse_str]))

theorem str_of_parse {text : Text} {id : DigestId Tag} (h : parse text = .ok id) :
    id.str = text := by
  obtain ⟨hcheck, h⟩ := seq_eq_ok.mp h
  have hlength : text.length = 32 := not_not.mp (failIf_eq_ok.mp hcheck)
  obtain ⟨word0, hword0, h⟩ := bind_eq_ok.mp h
  obtain ⟨word1, hword1, h⟩ := bind_eq_ok.mp h
  cases h
  have htake : (text.take 16).length = 16 := by
    rw [List.length_take]
    omega
  have hdrop : (text.drop 16).length = 16 := by
    rw [List.length_drop]
    omega
  obtain ⟨-, hdigits0⟩ := hexDigits_hexWord hword0 htake.le (by rw [htake]; decide)
  obtain ⟨-, hdigits1⟩ := hexDigits_hexWord hword1 hdrop.le (by rw [hdrop]; decide)
  rw [htake] at hdigits0
  rw [hdrop] at hdigits1
  calc toHex word0 ++ toHex word1 = text.take 16 ++ text.drop 16 := by
        rw [toHex, toHex, hdigits0, hdigits1]
    _ = text := List.take_append_drop 16 text

end DigestId

/-! ### Texts and values -/

/-- Subjects and digests are in bijection with their texts, and the subjects are strictly and
totally ordered. -/
theorem texts_canonical :
    (∀ (subject : EvidenceSubject) (name : Name), Name.parse subject.nameText = .ok name →
        parseSubject subject.str = .ok subject) ∧
      (∀ (text : Text) (subject : EvidenceSubject), parseSubject text = .ok subject →
        subject.str = text) ∧
      (∀ s t : EvidenceSubject, (s = t ↔ s.str = t.str) ∧
        (EvidenceSubject.equal s t = true ↔ s.str = t.str)) ∧
      IsStrictTotalOrder EvidenceSubject (fun s t => EvidenceSubject.less s t = true) ∧
      ∀ Tag : Type, (∀ id : DigestId Tag, DigestId.parse id.str = .ok id) ∧
        ∀ (text : Text) (id : DigestId Tag), DigestId.parse text = .ok id → id.str = text := by
  have hstr : ∀ s t : EvidenceSubject, s = t ↔ s.str = t.str := fun s t =>
    EvidenceSubject.str_injective.eq_iff.symm
  have hless : (fun s t => EvidenceSubject.less s t = true) = ((· < ·) : EvidenceSubject → _) := by
    funext s t
    exact propext EvidenceSubject.less_iff_lt
  refine ⟨?_, fun text subject h => (parseSubject_ok h).1, fun s t => ⟨hstr s t, ?_⟩, ?_,
    fun Tag => ⟨DigestId.parse_str, fun text id => DigestId.str_of_parse⟩⟩
  · intro subject name h
    apply parseSubject_str
    rintro hempty
    rw [hempty] at h
    cases h
  · rw [EvidenceSubject.equal_iff_eq, hstr]
  · rw [hless]
    infer_instance

/-- A name with a colon in it. -/
def slotOfHost : EvidenceSubject := .node (EntityId.unchecked (ascii "host1:slot2"))

theorem slotOfHost_read_back : slotOfHost.str = ascii "node:host1:slot2" ∧
    parseSubject slotOfHost.str = .ok slotOfHost :=
  ⟨by decide, texts_canonical.1 slotOfHost (Name.unchecked (ascii "host1:slot2"))
    (Name.parse_str (by decide))⟩

end CongestionObservatory
