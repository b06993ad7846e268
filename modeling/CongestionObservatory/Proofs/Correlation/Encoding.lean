import CongestionObservatory.Correlation.Group
import CongestionObservatory.Lib.Sort
import CongestionObservatory.Proofs.Model.Encoding

/-!
# `CongestionObservatory.Proofs.Correlation.Encoding`: the texts behind the derived identities

The identity of an evidence record, of an episode and of a group is the hash of a text. This module
states the three texts, proves that they are what is hashed, and reads them back. A name has no
separator in it, so a name that is followed by one ends there. The subject of an evidence record is
followed by none, but its end is found from the other side: 24 bytes follow it. The version of a
policy has arbitrary bytes and comes last. A member of a group is written with 32 digits.

`identities_unambiguous`: equal texts come from equal fields only.
-/

set_option autoImplicit false

namespace CongestionObservatory

open Lib StableHasher

/-! ### The three texts -/

/-- What `encode_evidence_identity` feeds. -/
def EvidenceRecord.identityBytes (record : EvidenceRecord) : Text :=
  record.provenance.source.str ++ [separatorByte] ++ leBytes64 record.fence.boot
    ++ leBytes64 record.fence.incarnation ++ record.fence.gen.bytes
    ++ leBytes64 record.fence.sequence ++ leBytes64 (toUnderlying record.kind).toUInt64
    ++ leBytes64 record.subject.kind.toUInt8.toUInt64 ++ record.subject.str
    ++ leBytes64 record.observedAt.nanos.toUInt64
    ++ leBytes64 (toUnderlying record.value.unit).toUInt64
    ++ leBytes64 (toUnderlying record.value.semantics).toUInt64

/-- What `encode_episode_identity` feeds. -/
def EpisodeKey.identityBytes (key : EpisodeKey) : Text :=
  ascii "congestion-observatory/episode/1" ++ [separatorByte]
    ++ leBytes64 key.scope.kind.toUInt8.toUInt64 ++ key.scope.str ++ [separatorByte]
    ++ key.tenant.str ++ [separatorByte] ++ leBytes64 (toUnderlying key.mechanism).toUInt64
    ++ key.generation.bytes ++ key.policyVersion

/-- What `compute_group_id` feeds. -/
def groupIdentityBytes (members : List EpisodeId) : Text :=
  ascii "congestion-observatory/group/1" ++ [separatorByte]
    ++ (sortUnique members).flatMap fun member => member.str ++ [separatorByte]

theorem encodeEvidenceIdentity_eq (record : EvidenceRecord) (h : StableHasher) :
    encodeEvidenceIdentity record h = h.update record.identityBytes := by
  simp only [EvidenceRecord.identityBytes, GenerationVector.bytes, ← List.append_assoc,
    update_append]
  rfl

theorem encodeEpisodeIdentity_eq (key : EpisodeKey) (h : StableHasher) :
    encodeEpisodeIdentity key h = h.update key.identityBytes := by
  simp only [EpisodeKey.identityBytes, GenerationVector.bytes, ← List.append_assoc, update_append]
  rfl

theorem computeGroupId_eq (members : List EpisodeId) :
    computeGroupId members
      = DigestId.fromDigest (({} : StableHasher).update (groupIdentityBytes members)).digest128 := by
  have hmember : ∀ (h : StableHasher) (member : EpisodeId),
      (h.update member.str).separator = h.update (member.str ++ [separatorByte]) := by
    intro h member
    rw [update_append]
    rfl
  rw [groupIdentityBytes, update_append, update_append, ← foldl_update _ _ hmember]
  rfl

/-! ### Equal texts come from equal fields -/

theorem EvidenceRecord.identityBytes_inj {r s : EvidenceRecord} :
    r.identityBytes = s.identityBytes ↔
      r.provenance.source = s.provenance.source ∧ r.fence.boot = s.fence.boot ∧
        r.fence.incarnation = s.fence.incarnation ∧ r.fence.gen = s.fence.gen ∧
        r.fence.sequence = s.fence.sequence ∧ r.kind = s.kind ∧ r.subject = s.subject ∧
        r.observedAt = s.observedAt ∧ r.value.unit = s.value.unit ∧
        r.value.semantics = s.value.semantics := by
  have htail : ∀ a b c d e f : UInt64, (leBytes64 a ++ (leBytes64 b ++ leBytes64 c)).length
      = (leBytes64 d ++ (leBytes64 e ++ leBytes64 f)).length := fun _ _ _ _ _ _ => rfl
  simp only [identityBytes, List.append_assoc, List.cons_append, List.nil_append,
    EntityId.str_append_inj, leBytes64_append_inj, GenerationVector.bytes_append_inj,
    EvidenceSubject.str_append_tail_inj (htail _ _ _ _ _ _), leBytes64_injective.eq_iff,
    enum8_toUInt64_inj, enum16_toUInt64_inj, Timestamp.toUInt64_inj]
  -- The number of the subject's kind is there as well, and says nothing that the subject does not.
  constructor
  · rintro ⟨hsource, hboot, hincarnation, hgen, hsequence, hkind, -, hrest⟩
    exact ⟨hsource, hboot, hincarnation, hgen, hsequence, hkind, hrest⟩
  · rintro ⟨hsource, hboot, hincarnation, hgen, hsequence, hkind, hsubject, hrest⟩
    exact ⟨hsource, hboot, hincarnation, hgen, hsequence, hkind, by rw [hsubject], hsubject, hrest⟩

theorem EpisodeKey.identityBytes_inj {k l : EpisodeKey} :
    k.identityBytes = l.identityBytes ↔ k.scope = l.scope ∧ k.tenant = l.tenant ∧
      k.mechanism = l.mechanism ∧ k.generation = l.generation ∧
      k.policyVersion = l.policyVersion := by
  simp only [identityBytes, List.append_assoc, List.cons_append, List.nil_append,
    List.append_cancel_left_eq, List.cons.injEq, true_and, EntityId.str_append_inj,
    EvidenceSubject.str_append_inj, leBytes64_append_inj, GenerationVector.bytes_append_inj,
    enum8_toUInt64_inj]
  constructor
  · rintro ⟨-, hrest⟩
    exact hrest
  · rintro ⟨hscope, hrest⟩
    exact ⟨by rw [hscope], hscope, hrest⟩

/-- The digits of a member and the separator: 33 characters. -/
theorem selfDelimiting_member :
    SelfDelimiting fun member : EpisodeId => member.str ++ [separatorByte] := by
  apply SelfDelimiting.of_length (n := 33)
  · intro a b h
    exact DigestId.str_injective (List.append_cancel_right h)
  · intro member
    rw [List.length_append, member.length_str]
    rfl

theorem groupIdentityBytes_inj {members others : List EpisodeId} :
    groupIdentityBytes members = groupIdentityBytes others ↔
      ∀ id, id ∈ members ↔ id ∈ others := by
  have hinj := selfDelimiting_member.flatMap_injective fun member =>
    List.append_ne_nil_of_right_ne_nil member.str (List.cons_ne_nil separatorByte [])
  rw [groupIdentityBytes, groupIdentityBytes, List.append_cancel_left_eq, ← sortUnique_eq_iff]
  exact hinj.eq_iff

/-- What is hashed for the identity of a record, an episode and a group determines what the
identity is made from. -/
theorem identities_unambiguous :
    ((∀ (r : EvidenceRecord) (h : StableHasher),
        encodeEvidenceIdentity r h = h.update r.identityBytes) ∧
      ∀ r s : EvidenceRecord, r.identityBytes = s.identityBytes ↔
        r.provenance.source = s.provenance.source ∧ r.fence.boot = s.fence.boot ∧
          r.fence.incarnation = s.fence.incarnation ∧ r.fence.gen = s.fence.gen ∧
          r.fence.sequence = s.fence.sequence ∧ r.kind = s.kind ∧ r.subject = s.subject ∧
          r.observedAt = s.observedAt ∧ r.value.unit = s.value.unit ∧
          r.value.semantics = s.value.semantics) ∧
    ((∀ (k : EpisodeKey) (h : StableHasher),
        encodeEpisodeIdentity k h = h.update k.identityBytes) ∧
      ∀ k l : EpisodeKey, k.identityBytes = l.identityBytes ↔
        k.scope = l.scope ∧ k.tenant = l.tenant ∧ k.mechanism = l.mechanism ∧
          k.generation = l.generation ∧ k.policyVersion = l.policyVersion) ∧
    (∀ members : List EpisodeId, computeGroupId members
        = DigestId.fromDigest (({} : StableHasher).update (groupIdentityBytes members)).digest128) ∧
      ∀ members others : List EpisodeId, groupIdentityBytes members = groupIdentityBytes others ↔
        ∀ id, id ∈ members ↔ id ∈ others :=
  ⟨⟨encodeEvidenceIdentity_eq, fun _ _ => EvidenceRecord.identityBytes_inj⟩,
    ⟨encodeEpisodeIdentity_eq, fun _ _ => EpisodeKey.identityBytes_inj⟩,
    computeGroupId_eq, fun _ _ => groupIdentityBytes_inj⟩

end CongestionObservatory
