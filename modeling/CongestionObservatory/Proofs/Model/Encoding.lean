import CongestionObservatory.Core.Time
import CongestionObservatory.Model.Generation
import CongestionObservatory.Proofs.Core.Hash
import CongestionObservatory.Proofs.Model.Subjects

/-!
# `CongestionObservatory.Proofs.Model.Encoding`: where a field of a hashed text ends

The hashed texts put names, renderings of subjects and numbers one after the other. A name has no
separator in it, so a name that is followed by one ends there. A rendering that is followed by none
ends where a tail of known length starts.
-/

set_option autoImplicit false

namespace CongestionObservatory

open Lib

/-! ### Names and subjects -/

/-- The separator is no character of a name. -/
theorem Name.separator_not_mem (n : Name) : separatorByte ∉ n.str := by
  intro hmem
  rcases n.canonical with hnil | hok
  · rw [hnil] at hmem
    cases hmem
  · have hallowed := (validateName_eq_ok.mp hok).allowed separatorByte hmem
    cases hallowed

theorem EvidenceSubject.separator_not_mem (s : EvidenceSubject) : separatorByte ∉ s.str := by
  have hname : separatorByte ∉ s.nameText := by
    cases s with
    | none => exact List.not_mem_nil
    | _ id => exact id.name.separator_not_mem
  have hkind : separatorByte ∉ s.kind.toText := by
    intro hmem
    have hallowed := (s.kind.toText_word.2 separatorByte hmem).1
    cases hallowed
  rw [str, List.mem_append, List.mem_append]
  rintro ((hmem | hmem) | hmem)
  · exact hkind hmem
  · exact absurd hmem (by decide)
  · exact hname hmem

theorem EntityId.str_inj {Tag : Type} {a b : EntityId Tag} : a.str = b.str ↔ a = b :=
  (Name.str_injective.comp name_injective).eq_iff

/-- A name ends at the separator. -/
theorem EntityId.str_append_inj {Tag : Type} {a b : EntityId Tag} {x y : Text} :
    a.str ++ separatorByte :: x = b.str ++ separatorByte :: y ↔ a = b ∧ x = y := by
  rw [← str_inj]
  exact append_cons_inj a.name.separator_not_mem b.name.separator_not_mem

/-- The rendering of a subject ends at the separator. -/
theorem EvidenceSubject.str_append_inj {s t : EvidenceSubject} {x y : Text} :
    s.str ++ separatorByte :: x = t.str ++ separatorByte :: y ↔ s = t ∧ x = y := by
  rw [append_cons_inj s.separator_not_mem t.separator_not_mem, str_injective.eq_iff]

/-- The rendering of a subject ends where a tail of known length starts. -/
theorem EvidenceSubject.str_append_tail_inj {s t : EvidenceSubject} {x y : Text}
    (hlength : x.length = y.length) : s.str ++ x = t.str ++ y ↔ s = t ∧ x = y := by
  constructor
  · intro h
    obtain ⟨hstr, hxy⟩ := List.append_inj' h hlength
    exact ⟨str_injective hstr, hxy⟩
  · rintro ⟨rfl, rfl⟩
    rfl

/-! ### Numbers -/

/-- What is fed for a generation vector. -/
def GenerationVector.bytes (g : GenerationVector) : Text :=
  leBytes64 g.epoch ++ leBytes64 g.generation ++ leBytes64 g.revision

theorem GenerationVector.bytes_append_inj {g h : GenerationVector} {x y : Text} :
    g.bytes ++ x = h.bytes ++ y ↔ g = h ∧ x = y := by
  cases g
  cases h
  simp only [bytes, List.append_assoc, leBytes64_append_inj, GenerationVector.mk.injEq, and_assoc]

theorem GenerationVector.bytes_inj {g h : GenerationVector} : g.bytes = h.bytes ↔ g = h := by
  rw [← List.append_left_inj [], bytes_append_inj]
  exact and_iff_left rfl

theorem Timestamp.toUInt64_inj {t u : Timestamp} :
    t.nanos.toUInt64 = u.nanos.toUInt64 ↔ t = u := by
  obtain ⟨⟨n⟩⟩ := t
  obtain ⟨⟨m⟩⟩ := u
  simp only [Timestamp.mk.injEq, Int64.ofUInt64.injEq]

end CongestionObservatory
