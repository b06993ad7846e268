import Mathlib.Data.List.Chain
import CongestionObservatory.Model.Identities

/-!
# `CongestionObservatory.Proofs.Model.Names`: which texts are canonical

`validate` of `name.cpp` checks the rules of a name one after the other. `validateName_eq_ok` says
what the rules are together. A subject is rendered as its kind, a colon and its name, and the
rendering is validated as a name once more: `key_valid_iff` says that it passes exactly
when the name is not the empty one and the kind and the colon leave room for it.
-/

set_option autoImplicit false

namespace CongestionObservatory

/-- No separator follows a separator. -/
def NoEmptySegment (text : Text) : Prop :=
  text.IsChain fun a b => ¬ (isSeparator b = true ∧ isSeparator a = true)

theorem emptySegmentAt_eq_none {previous : UInt8} {text : Text} {offset : Nat} :
    emptySegmentAt previous text offset = none ↔ NoEmptySegment (previous :: text) := by
  induction text generalizing previous offset with
  | nil => simp [emptySegmentAt, NoEmptySegment]
  | cons c rest ih =>
      rw [emptySegmentAt, NoEmptySegment, List.isChain_cons_cons]
      by_cases hboth : (isSeparator c && isSeparator previous) = true
      · rw [if_pos hboth]
        simp only [Bool.and_eq_true] at hboth
        simp [hboth]
      · rw [if_neg hboth, ih]
        simp only [Bool.and_eq_true] at hboth
        simp only [hboth, not_false_eq_true, true_and]
        rfl

/-- The canonical form of a name. -/
structure Canonical (text : Text) : Prop where
  nonempty : text ≠ []
  short : text.length ≤ kMaxLength
  allowed : ∀ c ∈ text, isAllowedChar c = true
  first : ∀ c ∈ text.head?, isSeparator c = false
  last : ∀ c ∈ text.getLast?, isSeparator c = false
  segments : NoEmptySegment text

/-- `validate` accepts the canonical texts. -/
theorem validateName_eq_ok {text : Text} : validateName text = .ok text ↔ Canonical text := by
  cases text with
  | nil => exact ⟨fun h => by simp [validateName] at h, fun h => absurd rfl h.nonempty⟩
  | cons first rest =>
      have hlast : (first :: rest).getLast? = some (rest.getLastD first) := by
        rw [List.getLast?_cons, List.getLastD_eq_getLast?]
      -- Each check of the source refuses what one clause of `Canonical` excludes, in the order of
      -- the checks.
      unfold validateName
      by_cases hshort : (first :: rest).length > kMaxLength
      · simp only [hshort, if_true, reduceCtorEq, false_iff]
        exact fun h => absurd h.short (Nat.not_le.mpr hshort)
      simp only [hshort, if_false]
      cases hallowed : (first :: rest).findIdx? fun c => !isAllowedChar c with
      | some i =>
          simp only [reduceCtorEq, false_iff]
          intro h
          rw [List.findIdx?_eq_some_iff_getElem] at hallowed
          obtain ⟨hi, hbad, -⟩ := hallowed
          rw [h.allowed _ (List.getElem_mem hi)] at hbad
          cases hbad
      | none =>
          have hall : ∀ c ∈ first :: rest, isAllowedChar c = true := by
            intro c hc
            have hgood := List.findIdx?_eq_none_iff.mp hallowed c hc
            simpa using hgood
          dsimp only
          by_cases hfirst : isSeparator first = true
          · rw [if_pos hfirst]
            simp only [reduceCtorEq, false_iff]
            intro h
            rw [h.first first rfl] at hfirst
            cases hfirst
          rw [if_neg hfirst]
          by_cases hend : isSeparator (rest.getLastD first) = true
          · rw [if_pos hend]
            simp only [reduceCtorEq, false_iff]
            intro h
            rw [h.last _ (by rw [hlast]; rfl)] at hend
            cases hend
          rw [if_neg hend]
          cases hsegment : emptySegmentAt first rest 1 with
          | some i =>
              simp only [reduceCtorEq, false_iff]
              intro h
              rw [emptySegmentAt_eq_none.mpr h.segments] at hsegment
              cases hsegment
          | none =>
              simp only [true_iff]
              refine ⟨by simp, Nat.not_lt.mp hshort, hall, ?_, ?_, emptySegmentAt_eq_none.mp hsegment⟩
              · intro c hc
                cases hc
                simpa using hfirst
              · intro c hc
                rw [hlast] at hc
                cases hc
                simpa using hend

/-- `unchecked` keeps exactly the canonical texts. -/
theorem Name.unchecked_valid_iff {text : Text} :
    (Name.unchecked text).valid = true ↔ Canonical text := by
  rw [← validateName_eq_ok]
  constructor
  · intro h
    have hstr := Name.unchecked_str text h
    rcases (Name.unchecked text).canonical with hnil | hok
    · simp [Name.valid, hnil] at h
    · rwa [hstr] at hok
  · intro h
    unfold Name.unchecked Name.parse
    split
    · next n hn =>
        split at hn
        · next e he =>
            rw [h] at he
            cases he
        · cases hn
    · next n hn => exact Name.parse_ok_valid (by rw [Name.parse]; exact hn)

/-- A word without separators before a text adds no empty segment. -/
theorem NoEmptySegment.prepend {word text : Text} (h : NoEmptySegment text)
    (hword : ∀ c ∈ word, isSeparator c = false) : NoEmptySegment (word ++ text) := by
  induction word with
  | nil => exact h
  | cons c rest ih =>
      obtain ⟨hc, hrest⟩ := List.forall_mem_cons.mp hword
      refine List.isChain_cons.mpr ⟨?_, ih hrest⟩
      intro b _ hboth
      rw [hc] at hboth
      exact Bool.false_ne_true hboth.2

/-- A word without separators, a colon and a canonical name are canonical when they are short
enough. -/
theorem Canonical.withKind {kind name : Text} (hname : Canonical name) (hkind : kind ≠ [])
    (hallowed : ∀ c ∈ kind, isAllowedChar c = true) (hword : ∀ c ∈ kind, isSeparator c = false)
    (hshort : (kind ++ ascii ":" ++ name).length ≤ kMaxLength) :
    Canonical (kind ++ ascii ":" ++ name) where
  nonempty := by simp [hkind]
  short := hshort
  allowed := by
    intro c hc
    simp only [List.mem_append] at hc
    rcases hc with (hc | hc) | hc
    · exact hallowed c hc
    · obtain rfl := List.mem_singleton.mp hc
      decide
    · exact hname.allowed c hc
  first := by
    intro c hc
    rw [List.append_assoc, List.head?_append_of_ne_nil _ hkind] at hc
    exact hword c (List.mem_of_mem_head? hc)
  last := by
    intro c hc
    rw [List.getLast?_append_of_ne_nil _ hname.nonempty] at hc
    exact hname.last c hc
  segments := by
    rw [List.append_assoc]
    refine NoEmptySegment.prepend ?_ hword
    refine List.isChain_cons.mpr ⟨?_, hname.segments⟩
    intro b hb hboth
    rw [hname.first b hb] at hboth
    exact Bool.false_ne_true hboth.1

/-- The words of the kinds have only letters. -/
theorem SubjectKind.toText_word (kind : SubjectKind) :
    kind.toText ≠ [] ∧
      ∀ c ∈ kind.toText, isAllowedChar c = true ∧ isSeparator c = false := by
  cases kind <;> decide +kernel

/-- A subject is determined by its rendering: the first colon ends the kind. -/
theorem EvidenceSubject.str_injective : Function.Injective EvidenceSubject.str := by
  have hkind : ∀ s : EvidenceSubject, s.str.takeWhile (fun c => !isSeparator c) = s.kind.toText := by
    intro s
    have hword : ∀ c ∈ s.kind.toText, (!isSeparator c) = true := by
      intro c hc
      rw [(s.kind.toText_word.2 c hc).2]
      rfl
    rw [str, List.append_assoc, List.takeWhile_append_of_pos hword]
    exact List.append_nil _
  intro s t h
  have hwords : s.kind.toText = t.kind.toText := by rw [← hkind s, ← hkind t, h]
  have hkinds : s.kind = t.kind := by
    revert hwords
    cases s.kind <;> cases t.kind <;> decide
  refine eq_of_kind_nameText hkinds ?_
  rw [str, str, hkinds] at h
  exact List.append_cancel_left h

/-- Subjects with the same key are the same when the key is a name. -/
theorem EvidenceSubject.eq_of_key_eq {s t : EvidenceSubject}
    (hkey : Name.unchecked s.str = Name.unchecked t.str)
    (hvalid : (Name.unchecked t.str).valid = true) : s = t := by
  have hs := Name.unchecked_str s.str (by rw [hkey]; exact hvalid)
  have ht := Name.unchecked_str t.str hvalid
  exact str_injective (by rw [← hs, ← ht, hkey])

/-- The rendering of a subject is a canonical name exactly when the subject has a name and the
rendering is not too long. -/
theorem EvidenceSubject.canonical_str_iff {subject : EvidenceSubject}
    (hname : subject.nameText = [] ∨ Canonical subject.nameText) :
    Canonical subject.str ↔ subject.nameText ≠ [] ∧ subject.str.length ≤ kMaxLength := by
  obtain ⟨hkind, hword⟩ := subject.kind.toText_word
  constructor
  · intro h
    refine ⟨?_, h.short⟩
    intro hnil
    have hcolon : subject.str.getLast? = some 0x3a := by
      rw [str, hnil, List.append_nil, List.getLast?_append_of_ne_nil _ (by decide)]
      rfl
    have hlast := h.last 0x3a hcolon
    exact absurd hlast (by decide)
  · rintro ⟨hnil, hshort⟩
    have hname' := hname.resolve_left hnil
    exact hname'.withKind hkind (fun c hc => (hword c hc).1) (fun c hc => (hword c hc).2) hshort

/-- The name of a subject is empty or canonical, as every name is. -/
theorem EvidenceSubject.nameText_canonical (subject : EvidenceSubject) :
    subject.nameText = [] ∨ Canonical subject.nameText := by
  have hentity : ∀ {Tag : Type} (id : EntityId Tag), id.str = [] ∨ Canonical id.str := by
    intro Tag id
    rcases id.name.canonical with hnil | hok
    · exact Or.inl hnil
    · exact Or.inr (validateName_eq_ok.mp hok)
  cases subject with
  | none => exact Or.inl rfl
  | _ id => exact hentity id

/-- The key under which the store files a subject is the rendering, or the empty name. -/
theorem EvidenceSubject.key_valid_iff (subject : EvidenceSubject) :
    (Name.unchecked subject.str).valid = true ↔
      subject.nameText ≠ [] ∧ subject.str.length ≤ kMaxLength := by
  rw [Name.unchecked_valid_iff, canonical_str_iff subject.nameText_canonical]

end CongestionObservatory
