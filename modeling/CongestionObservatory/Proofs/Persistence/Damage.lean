import CongestionObservatory.Lib.Difference
import CongestionObservatory.Proofs.Core.Crc
import CongestionObservatory.Proofs.Persistence.Frame

/-!
# `CongestionObservatory.Proofs.Persistence.Damage`: one changed byte in a snapshot

A snapshot that differs from an encoded one in a single byte differs in a single field of the
header, in a single field of one table entry, or in the payload (`bytes_change`). The fields of
the header and the payload are protected: each is compared with what the reader knows, or the
checksum of the payload changes with it. The time in the header is not looked at.

The section table has no checksum of its own. Two kinds of damage there can pass:

* the identity of the episode entry, or of the evidence entry, becomes one that no section has.
  Both sections are optional, so a section that is not empty is lost without an error (`Dropped`);
* an extent is moved to other bytes of the payload that have the checksum of the entry and that
  the reader of the section accepts as something else (`Misread`).

`damage_detected_iff` says that these two are the only ones.
-/

set_option autoImplicit false

namespace CongestionObservatory

open Lib ByteReader

/-! ### A changed byte is a changed field -/

/-- Bytes of the length of a number are the bytes of another number. -/
theorem encode_change {width value : Nat} {bytes : Text}
    (h : DiffersInOne (LittleEndian.encode width value) bytes) :
    bytes = LittleEndian.encode width (LittleEndian.decode bytes) ∧
      LittleEndian.decode bytes < 256 ^ width := by
  have hlength : bytes.length = width := by
    rw [h.length_eq, LittleEndian.length_encode]
  have hlt := LittleEndian.decode_lt bytes
  have hencode := LittleEndian.encode_decode bytes
  rw [hlength] at hlt hencode
  exact ⟨hencode.symm, hlt⟩

theorem u32_change {value : UInt32} {bytes : Text} (h : DiffersInOne (ByteWriter.u32 value) bytes) :
    ∃ value', bytes = ByteWriter.u32 value' ∧ value' ≠ value := by
  obtain ⟨hbytes, hlt⟩ := encode_change h
  have htoNat : (UInt32.ofNat (LittleEndian.decode bytes)).toNat = LittleEndian.decode bytes := by
    rw [UInt32.toNat_ofNat']
    exact Nat.mod_eq_of_lt hlt
  have hvalue : bytes = ByteWriter.u32 (UInt32.ofNat (LittleEndian.decode bytes)) := by
    rw [ByteWriter.u32, htoNat]
    exact hbytes
  exact ⟨_, hvalue, fun heq => h.ne (by rw [hvalue, heq])⟩

theorem u64_change {value : UInt64} {bytes : Text} (h : DiffersInOne (ByteWriter.u64 value) bytes) :
    ∃ value', bytes = ByteWriter.u64 value' ∧ value' ≠ value := by
  obtain ⟨hbytes, hlt⟩ := encode_change h
  have htoNat : (UInt64.ofNat (LittleEndian.decode bytes)).toNat = LittleEndian.decode bytes := by
    rw [UInt64.toNat_ofNat']
    exact Nat.mod_eq_of_lt hlt
  have hvalue : bytes = ByteWriter.u64 (UInt64.ofNat (LittleEndian.decode bytes)) := by
    rw [ByteWriter.u64, htoNat]
    exact hbytes
  exact ⟨_, hvalue, fun heq => h.ne (by rw [hvalue, heq])⟩

theorem i64_change {value : Int64} {bytes : Text} (h : DiffersInOne (ByteWriter.i64 value) bytes) :
    ∃ value', bytes = ByteWriter.i64 value' := by
  obtain ⟨value', hbytes, -⟩ := u64_change h
  exact ⟨value'.toInt64, by rw [hbytes, ByteWriter.i64, UInt64.toUInt64_toInt64]⟩

/-- A table entry with another value in one field. -/
inductive EntryChange (s : SnapshotSection) : SnapshotSection → Prop
  | id (id : UInt32) (h : id ≠ s.id) : EntryChange s { s with id := id }
  | offset (offset : UInt64) : EntryChange s { s with offset := offset }
  | length (length : UInt64) : EntryChange s { s with length := length }
  | crc64 (crc : UInt64) (h : crc ≠ s.crc64) : EntryChange s { s with crc64 := crc }

theorem writeSection_change {s : SnapshotSection} {bytes : Text}
    (h : DiffersInOne (writeSection s) bytes) : ∃ s', EntryChange s s' ∧ bytes = writeSection s' := by
  rcases h.append with ⟨x, rfl, hx⟩ | ⟨x, rfl, hx⟩
  · rcases hx.append with ⟨y, rfl, hy⟩ | ⟨y, rfl, hy⟩
    · rcases hy.append with ⟨z, rfl, hz⟩ | ⟨z, rfl, hz⟩
      · obtain ⟨id, rfl, hne⟩ := u32_change hz
        exact ⟨_, .id id hne, rfl⟩
      · obtain ⟨offset, rfl, -⟩ := u64_change hz
        exact ⟨_, .offset offset, rfl⟩
    · obtain ⟨length, rfl, -⟩ := u64_change hy
      exact ⟨_, .length length, rfl⟩
  · obtain ⟨crc, rfl, hne⟩ := u64_change hx
    exact ⟨_, .crc64 crc hne, rfl⟩

namespace RawSnapshot

/-- A snapshot with another value in one field of the header, or another payload. The new value
of the time may be the old one, since nothing depends on it. -/
inductive FieldChange (raw : RawSnapshot) : RawSnapshot → Prop
  | magic (magic : Text) (hlength : magic.length = raw.magic.length) (h : magic ≠ raw.magic) :
      FieldChange raw { raw with magic := magic }
  | major (major : UInt32) (h : major ≠ raw.major) : FieldChange raw { raw with major := major }
  | minor (minor : UInt32) (h : minor ≠ raw.minor) : FieldChange raw { raw with minor := minor }
  | limitsDigest (digest : UInt64) (h : digest ≠ raw.limitsDigest) :
      FieldChange raw { raw with limitsDigest := digest }
  | policyDigest (digest : UInt64) (h : digest ≠ raw.policyDigest) :
      FieldChange raw { raw with policyDigest := digest }
  | topologyDigest (digest : UInt64) (h : digest ≠ raw.topologyDigest) :
      FieldChange raw { raw with topologyDigest := digest }
  | createdAt (createdAt : Int64) : FieldChange raw { raw with createdAt := createdAt }
  | sectionCount (count : UInt32) (h : count ≠ raw.sectionCount) :
      FieldChange raw { raw with sectionCount := count }
  | payloadBytes (length : UInt64) (h : length ≠ raw.payloadBytes) :
      FieldChange raw { raw with payloadBytes := length }
  | payloadCrc (crc : UInt64) (h : crc ≠ raw.payloadCrc) :
      FieldChange raw { raw with payloadCrc := crc }
  | payload (payload : Text) (h : DiffersInOne raw.payload payload) :
      FieldChange raw { raw with payload := payload }

theorem numbers_change {raw : RawSnapshot} {bytes : Text} (h : DiffersInOne raw.numbers bytes) :
    ∃ raw', FieldChange raw raw' ∧ raw'.magic ++ ((ByteWriter.u32 raw'.major
      ++ ByteWriter.u32 raw'.minor) ++ raw'.numbers) = raw.magic ++ ((ByteWriter.u32 raw.major
      ++ ByteWriter.u32 raw.minor) ++ bytes) ∧ raw'.table = raw.table ∧
      raw'.payload = raw.payload := by
  rcases h.append with ⟨a, rfl, ha⟩ | ⟨a, rfl, ha⟩
  · rcases ha.append with ⟨b, rfl, hb⟩ | ⟨b, rfl, hb⟩
    · rcases hb.append with ⟨c, rfl, hc⟩ | ⟨c, rfl, hc⟩
      · rcases hc.append with ⟨d, rfl, hd⟩ | ⟨d, rfl, hd⟩
        · rcases hd.append with ⟨e, rfl, he⟩ | ⟨e, rfl, he⟩
          · rcases he.append with ⟨f, rfl, hf⟩ | ⟨f, rfl, hf⟩
            · obtain ⟨value, rfl, hne⟩ := u64_change hf
              exact ⟨_, .limitsDigest value hne, rfl, rfl, rfl⟩
            · obtain ⟨value, rfl, hne⟩ := u64_change hf
              exact ⟨_, .policyDigest value hne, rfl, rfl, rfl⟩
          · obtain ⟨value, rfl, hne⟩ := u64_change he
            exact ⟨_, .topologyDigest value hne, rfl, rfl, rfl⟩
        · obtain ⟨value, rfl⟩ := i64_change hd
          exact ⟨_, .createdAt value, rfl, rfl, rfl⟩
      · obtain ⟨value, rfl, hne⟩ := u32_change hc
        exact ⟨_, .sectionCount value hne, rfl, rfl, rfl⟩
    · obtain ⟨value, rfl, hne⟩ := u64_change hb
      exact ⟨_, .payloadBytes value hne, rfl, rfl, rfl⟩
  · obtain ⟨value, rfl, hne⟩ := u64_change ha
    exact ⟨_, .payloadCrc value hne, rfl, rfl, rfl⟩

/-- Where the changed byte is: a field of the header, the payload, or an entry of the table. -/
theorem bytes_change {raw : RawSnapshot} {bytes : Text} (h : DiffersInOne raw.bytes bytes) :
    (∃ raw', FieldChange raw raw' ∧ bytes = raw'.bytes) ∨
    ∃ before s s' after, raw.table = before ++ s :: after ∧ EntryChange s s' ∧
      bytes = { raw with table := before ++ s' :: after : RawSnapshot }.bytes := by
  rcases h.append with ⟨start, rfl, hstart⟩ | ⟨tail, rfl, htail⟩
  · left
    rcases hstart.append with ⟨magic, rfl, hmagic⟩ | ⟨rest, rfl, hrest⟩
    · exact ⟨_, .magic magic hmagic.length_eq (Ne.symm hmagic.ne), rfl⟩
    · rcases hrest.append with ⟨version, rfl, hversion⟩ | ⟨numbers, rfl, hnumbers⟩
      · rcases hversion.append with ⟨major, rfl, hmajor⟩ | ⟨minor, rfl, hminor⟩
        · obtain ⟨value, rfl, hne⟩ := u32_change hmajor
          exact ⟨_, .major value hne, rfl⟩
        · obtain ⟨value, rfl, hne⟩ := u32_change hminor
          exact ⟨_, .minor value hne, rfl⟩
      · obtain ⟨raw', hchange, hhead, htable, hpayload⟩ := numbers_change hnumbers
        exact ⟨raw', hchange, by rw [bytes, head, hhead, htable, hpayload]⟩
  · rcases htail.append with ⟨table, rfl, htable⟩ | ⟨payload, rfl, hpayload⟩
    · right
      obtain ⟨before, s, after, part, hsplit, rfl, hpart⟩ := htable.flatMap
      obtain ⟨s', hchange, rfl⟩ := writeSection_change hpart
      refine ⟨before, s, s', after, hsplit, hchange, ?_⟩
      show raw.head ++ _ = raw.head ++ ((before ++ s' :: after).flatMap writeSection ++ raw.payload)
      rw [List.flatMap_append, List.flatMap_cons]
    · exact Or.inl ⟨_, .payload payload hpayload, rfl⟩

end RawSnapshot

/-! ### What the damage does to the sections -/

/-- The same topology, episodes, evidence and metadata. -/
def SameContent (content damaged : SnapshotContent) : Prop :=
  damaged.topology = content.topology ∧ damaged.episodes = content.episodes ∧
    damaged.evidence = content.evidence ∧ damaged.metadata = content.metadata

/-- The section table of a snapshot with four sections. -/
def tableOf (bytes : Text) : List SnapshotSection :=
  match times 4 readSection ⟨bytes.drop kSnapshotHeaderBytes, none⟩ with
  | .ok (table, _) => table
  | .error _ => []

/-- The payload of a snapshot with four sections. An entry of the table has 28 bytes. -/
def payloadAt (bytes : Text) : Text := bytes.drop (kSnapshotHeaderBytes + 4 * 28)

/-- The table has no entry for the episodes, or none for the evidence, although the content has
some, and no identity occurs twice in it. -/
def Dropped (content : SnapshotContent) (table : List SnapshotSection) : Prop :=
  (table.map (·.id)).Nodup ∧
    ((content.episodes ≠ [] ∧ SnapshotSectionId.episodes ∉ table.map (·.id)) ∨
      (content.evidence ≠ [] ∧ SnapshotSectionId.evidence ∉ table.map (·.id)))

/-- The reader of a section accepts the bytes `bytes'` in the place of `bytes`, and takes
something else from them. The generation of the metadata is not taken from its section. -/
def ReadsOtherwise (limits : Limits) (policy : ClassificationPolicy) (id : UInt32)
    (bytes bytes' : Text) : Prop :=
  (id = SnapshotSectionId.metadata ∧ ∃ m m', decodeMetadataSection bytes limits policy = .ok m ∧
    decodeMetadataSection bytes' limits policy = .ok m' ∧
    { m' with generation := m.generation } ≠ m) ∨
  (id = SnapshotSectionId.topology ∧ ∃ t t', decodeTopologySection bytes limits = .ok t ∧
    decodeTopologySection bytes' limits = .ok t' ∧ t'.digest = t.digest ∧ t' ≠ t) ∨
  (id = SnapshotSectionId.episodes ∧ ∃ l l', decodeEpisodeSection bytes limits = .ok l ∧
    decodeEpisodeSection bytes' limits = .ok l' ∧ l' ≠ l) ∨
  (id = SnapshotSectionId.evidence ∧ ∃ r r', decodeEvidenceSection bytes limits = .ok r ∧
    decodeEvidenceSection bytes' limits = .ok r' ∧ r'.2 ≠ r.2)

/-- An entry of the damaged table has an extent of the payload with the checksum of the entry,
where the section is read otherwise. -/
def Misread (limits : Limits) (policy : ClassificationPolicy) (payload : Text)
    (table table' : List SnapshotSection) : Prop :=
  ∃ s s', (s, s') ∈ table.zip table' ∧ SectionFits payload s' ∧
    ReadsOtherwise limits policy s.id (sliceOf payload s) (sliceOf payload s')

section

variable {limits : Limits} {policy : ClassificationPolicy}

theorem not_readsOtherwise_self (id : UInt32) (bytes : Text) :
    ¬ ReadsOtherwise limits policy id bytes bytes := by
  rintro (⟨-, m, m', hm, hm', hne⟩ | ⟨-, t, t', ht, ht', -, hne⟩ | ⟨-, l, l', hl, hl', hne⟩ |
    ⟨-, r, r', hr, hr', hne⟩)
  · rw [hm] at hm'
    cases hm'
    exact hne rfl
  · rw [ht] at ht'
    cases ht'
    exact hne rfl
  · rw [hl] at hl'
    cases hl'
    exact hne rfl
  · rw [hr] at hr'
    cases hr'
    exact hne rfl

/-- Entry by entry, a table is itself. -/
theorem eq_of_mem_zip {table : List SnapshotSection} {a b : SnapshotSection}
    (h : (a, b) ∈ table.zip table) : a = b := by
  induction table with
  | nil => simp at h
  | cons s rest ih =>
      rw [List.zip_cons_cons, List.mem_cons] at h
      rcases h with h | h
      · cases h
        rfl
      · exact ih h

/-- Entry by entry, a table with one entry replaced differs in that entry only. -/
theorem mem_zip_replace {before after : List SnapshotSection} {s s' a b : SnapshotSection}
    (h : (a, b) ∈ (before ++ s :: after).zip (before ++ s' :: after)) :
    (a = s ∧ b = s') ∨ a = b := by
  rw [List.zip_append rfl, List.zip_cons_cons, List.mem_append, List.mem_cons] at h
  rcases h with h | h | h
  · exact Or.inr (eq_of_mem_zip h)
  · cases h
    exact Or.inl ⟨rfl, rfl⟩
  · exact Or.inr (eq_of_mem_zip h)

theorem misread_replace {payload : Text} {before after : List SnapshotSection}
    {s s' : SnapshotSection} :
    Misread limits policy payload (before ++ s :: after) (before ++ s' :: after) ↔
      SectionFits payload s' ∧
        ReadsOtherwise limits policy s.id (sliceOf payload s) (sliceOf payload s') := by
  constructor
  · rintro ⟨a, b, hmem, hfits, hreads⟩
    rcases mem_zip_replace hmem with ⟨rfl, rfl⟩ | rfl
    · exact ⟨hfits, hreads⟩
    · exact absurd hreads (not_readsOtherwise_self _ _)
  · rintro ⟨hfits, hreads⟩
    have hmem : (s, s') ∈ (before ++ s :: after).zip (before ++ s' :: after) := by
      rw [List.zip_append rfl, List.zip_cons_cons]
      simp
    exact ⟨s, s', hmem, hfits, hreads⟩

theorem not_misread_self {payload : Text} {table : List SnapshotSection} :
    ¬ Misread limits policy payload table table := by
  rintro ⟨a, b, hmem, -, hreads⟩
  rw [eq_of_mem_zip hmem] at hreads
  exact not_readsOtherwise_self _ _ hreads

end

/-- The sections of a table with one entry replaced. -/
theorem sectionOf_replace {payload : Text} {before after : List SnapshotSection}
    {s s' : SnapshotSection} (hnodup : ((before ++ s :: after).map (·.id)).Nodup)
    (hnodup' : ((before ++ s' :: after).map (·.id)).Nodup) (id : UInt32) :
    sectionOf payload (before ++ s' :: after) id
      = if id = s'.id then some (sliceOf payload s') else if id = s.id then none
        else sectionOf payload (before ++ s :: after) id := by
  -- An entry that is replaced shares its identity with no other entry.
  have hbefore : ∀ {e : SnapshotSection}, ((before ++ e :: after).map (·.id)).Nodup →
      before.find? (·.id == e.id) = none ∧ after.find? (·.id == e.id) = none := by
    intro e he
    rw [List.map_append, List.map_cons, List.nodup_append] at he
    obtain ⟨-, hafter, hdisjoint⟩ := he
    rw [List.nodup_cons] at hafter
    constructor
    · rw [List.find?_eq_none]
      intro r hr heq
      exact hdisjoint r.id (List.mem_map_of_mem hr) e.id List.mem_cons_self (eq_of_beq heq)
    · rw [List.find?_eq_none]
      intro r hr heq
      apply hafter.1
      rw [← eq_of_beq heq]
      exact List.mem_map_of_mem hr
  simp only [sectionOf, List.find?_append, List.find?_cons]
  by_cases hnew : id = s'.id
  · subst hnew
    rw [(hbefore hnodup').1]
    simp
  · by_cases hold : id = s.id
    · subst hold
      have hne : (s'.id == s.id) = false := by simpa using fun h => hnew h.symm
      rw [(hbefore hnodup).1, (hbefore hnodup).2, hne]
      simp [hnew]
    · have hne : (s.id == id) = false := by simpa using fun h => hold h.symm
      have hne' : (s'.id == id) = false := by simpa using fun h => hnew h.symm
      rw [hne, hne']
      simp [hnew, hold]

/-! ### Sections that stay and sections that go -/

namespace ContentRead

variable {limits : Limits} {policy : ClassificationPolicy} {digest digest' : UInt64}
  {section? section?' : UInt32 → Option Text} {content damaged : SnapshotContent}

theorem same_topology (h : ContentRead digest limits policy section? content)
    (h' : ContentRead digest' limits policy section?' damaged)
    (hsame : section?' SnapshotSectionId.topology = section? SnapshotSectionId.topology) :
    damaged.topology = content.topology := by
  obtain ⟨bytes, hbytes, ht⟩ := h.topology
  obtain ⟨bytes', hbytes', ht'⟩ := h'.topology
  rw [hsame, hbytes] at hbytes'
  cases hbytes'
  rw [ht] at ht'
  exact (Except.ok.inj ht').symm

theorem same_metadata (h : ContentRead digest limits policy section? content)
    (h' : ContentRead digest' limits policy section?' damaged)
    (htopology : damaged.topology = content.topology)
    (hsame : section?' SnapshotSectionId.metadata = section? SnapshotSectionId.metadata) :
    damaged.metadata = content.metadata := by
  obtain ⟨bytes, m, hbytes, hm, hmetadata⟩ := h.metadata
  obtain ⟨bytes', m', hbytes', hm', hmetadata'⟩ := h'.metadata
  rw [hsame, hbytes] at hbytes'
  cases hbytes'
  rw [hm] at hm'
  cases hm'
  rw [hmetadata, hmetadata', htopology]

theorem same_episodes (h : ContentRead digest limits policy section? content)
    (h' : ContentRead digest' limits policy section?' damaged)
    (hsame : section?' SnapshotSectionId.episodes = section? SnapshotSectionId.episodes) :
    damaged.episodes = content.episodes := by
  have hread := h'.episodes
  rw [hsame, h.episodes] at hread
  exact (Except.ok.inj hread).symm

theorem same_evidence (h : ContentRead digest limits policy section? content)
    (h' : ContentRead digest' limits policy section?' damaged)
    (hsame : section?' SnapshotSectionId.evidence = section? SnapshotSectionId.evidence) :
    damaged.evidence = content.evidence := by
  have hread := h'.evidence
  rw [hsame, h.evidence] at hread
  exact (congrArg Prod.snd (Except.ok.inj hread)).symm

/-- The same sections give the same content. -/
theorem same (h : ContentRead digest limits policy section? content)
    (h' : ContentRead digest' limits policy section? damaged) : SameContent content damaged := by
  have htopology := h.same_topology h' rfl
  exact ⟨htopology, h.same_episodes h' rfl, h.same_evidence h' rfl,
    h.same_metadata h' htopology rfl⟩

section

variable {bytes bytes' : Text}

theorem replaced_metadata (h : ContentRead digest limits policy section? content)
    (hbytes : section? SnapshotSectionId.metadata = some bytes)
    (hself : section?' SnapshotSectionId.metadata = some bytes')
    (hother : ∀ id, id ≠ SnapshotSectionId.metadata → section?' id = section? id) :
    (∀ damaged, ContentRead digest limits policy section?' damaged → SameContent content damaged) ↔
      ¬ ReadsOtherwise limits policy SnapshotSectionId.metadata bytes bytes' := by
  have htopology' := hother SnapshotSectionId.topology (by decide)
  have hepisodes' := hother SnapshotSectionId.episodes (by decide)
  have hevidence' := hother SnapshotSectionId.evidence (by decide)
  obtain ⟨found, m, hfound, hm, hmetadata⟩ := h.metadata
  rw [hbytes] at hfound
  cases hfound
  constructor
  · rintro hall (⟨-, m₀, m', hm₀, hm', hne⟩ | ⟨hid, -⟩ | ⟨hid, -⟩ | ⟨hid, -⟩)
    · rw [hm] at hm₀
      cases hm₀
      -- The other sections are read as before, so the new metadata make an accepted content; their
      -- generation is the topology's in either case.
      have hread : ContentRead digest limits policy section?'
          { content with metadata := { m' with generation := content.topology.generation } } := by
        refine ⟨⟨bytes', m', hself, hm', rfl⟩, ?_, h.digest, ?_, ?_⟩
        · rw [htopology']
          exact h.topology
        · rw [hepisodes']
          exact h.episodes
        · rw [hevidence']
          exact h.evidence
      have hsame := (hall _ hread).2.2.2
      rw [hmetadata] at hsame
      exact hne (congrArg (fun x => { x with generation := m.generation }) hsame)
    all_goals exact absurd hid (by decide)
  · intro hnot damaged hread
    have htopology := h.same_topology hread htopology'
    refine ⟨htopology, h.same_episodes hread hepisodes', h.same_evidence hread hevidence', ?_⟩
    obtain ⟨found', m', hfound', hm', hmetadata'⟩ := hread.metadata
    rw [hself] at hfound'
    cases hfound'
    -- The generation is overwritten after the read, so it does not count as a difference.
    have hsame : { m' with generation := m.generation } = m := by
      by_contra hne
      exact hnot (Or.inl ⟨rfl, m, m', hm, hm', hne⟩)
    rw [hmetadata, hmetadata', htopology]
    exact congrArg (fun x => { x with generation := content.topology.generation }) hsame

theorem replaced_topology (h : ContentRead digest limits policy section? content)
    (hbytes : section? SnapshotSectionId.topology = some bytes)
    (hself : section?' SnapshotSectionId.topology = some bytes')
    (hother : ∀ id, id ≠ SnapshotSectionId.topology → section?' id = section? id) :
    (∀ damaged, ContentRead digest limits policy section?' damaged → SameContent content damaged) ↔
      ¬ ReadsOtherwise limits policy SnapshotSectionId.topology bytes bytes' := by
  have hmetadata' := hother SnapshotSectionId.metadata (by decide)
  have hepisodes' := hother SnapshotSectionId.episodes (by decide)
  have hevidence' := hother SnapshotSectionId.evidence (by decide)
  obtain ⟨found, hfound, ht⟩ := h.topology
  rw [hbytes] at hfound
  cases hfound
  constructor
  · rintro hall (⟨hid, -⟩ | ⟨-, t, t', ht₀, ht', hdigest, hne⟩ | ⟨hid, -⟩ | ⟨hid, -⟩)
    · exact absurd hid (by decide)
    · rw [ht] at ht₀
      cases ht₀
      -- Another topology under the same digest passes the check of the header, and it also decides
      -- the generation that the metadata show.
      obtain ⟨mbytes, m, hmbytes, hm, hmetadata⟩ := h.metadata
      have hread : ContentRead digest limits policy section?'
          { content with
            topology := t', metadata := { content.metadata with generation := t'.generation } } := by
        refine ⟨⟨mbytes, m, by rw [hmetadata', hmbytes], hm, ?_⟩, ⟨bytes', hself, ht'⟩, ?_, ?_, ?_⟩
        · show { content.metadata with generation := t'.generation } = _
          rw [hmetadata]
        · show t'.digest = digest
          rw [hdigest, h.digest]
        · rw [hepisodes']
          exact h.episodes
        · rw [hevidence']
          exact h.evidence
      exact hne (hall _ hread).1
    all_goals exact absurd hid (by decide)
  · intro hnot damaged hread
    obtain ⟨found', hfound', ht'⟩ := hread.topology
    rw [hself] at hfound'
    cases hfound'
    have htopology : damaged.topology = content.topology := by
      by_contra hne
      exact hnot (Or.inr (Or.inl ⟨rfl, _, _, ht, ht', by rw [hread.digest, h.digest], hne⟩))
    exact ⟨htopology, h.same_episodes hread hepisodes', h.same_evidence hread hevidence',
      h.same_metadata hread htopology hmetadata'⟩

theorem replaced_episodes (h : ContentRead digest limits policy section? content)
    (hbytes : section? SnapshotSectionId.episodes = some bytes)
    (hself : section?' SnapshotSectionId.episodes = some bytes')
    (hother : ∀ id, id ≠ SnapshotSectionId.episodes → section?' id = section? id) :
    (∀ damaged, ContentRead digest limits policy section?' damaged → SameContent content damaged) ↔
      ¬ ReadsOtherwise limits policy SnapshotSectionId.episodes bytes bytes' := by
  have hmetadata' := hother SnapshotSectionId.metadata (by decide)
  have htopology' := hother SnapshotSectionId.topology (by decide)
  have hevidence' := hother SnapshotSectionId.evidence (by decide)
  have hl := h.episodes
  rw [hbytes] at hl
  constructor
  · rintro hall (⟨hid, -⟩ | ⟨hid, -⟩ | ⟨-, l, l', hl₀, hl', hne⟩ | ⟨hid, -⟩)
    · exact absurd hid (by decide)
    · exact absurd hid (by decide)
    · -- Nothing else in the content depends on the episodes.
      have hread : ContentRead digest limits policy section?' { content with episodes := l' } := by
        refine ⟨?_, ?_, h.digest, ?_, ?_⟩
        · rw [hmetadata']
          exact h.metadata
        · rw [htopology']
          exact h.topology
        · rw [hself]
          exact hl'
        · rw [hevidence']
          exact h.evidence
      have hsame := (hall _ hread).2.1
      exact hne (hsame.trans (Except.ok.inj (hl.symm.trans hl₀)))
    · exact absurd hid (by decide)
  · intro hnot damaged hread
    have htopology := h.same_topology hread htopology'
    have hl' := hread.episodes
    rw [hself] at hl'
    have hepisodes : damaged.episodes = content.episodes := by
      by_contra hne
      exact hnot (Or.inr (Or.inr (Or.inl ⟨rfl, _, _, hl, hl', hne⟩)))
    exact ⟨htopology, hepisodes, h.same_evidence hread hevidence',
      h.same_metadata hread htopology hmetadata'⟩

theorem replaced_evidence (h : ContentRead digest limits policy section? content)
    (hbytes : section? SnapshotSectionId.evidence = some bytes)
    (hself : section?' SnapshotSectionId.evidence = some bytes')
    (hother : ∀ id, id ≠ SnapshotSectionId.evidence → section?' id = section? id) :
    (∀ damaged, ContentRead digest limits policy section?' damaged → SameContent content damaged) ↔
      ¬ ReadsOtherwise limits policy SnapshotSectionId.evidence bytes bytes' := by
  have hmetadata' := hother SnapshotSectionId.metadata (by decide)
  have htopology' := hother SnapshotSectionId.topology (by decide)
  have hepisodes' := hother SnapshotSectionId.episodes (by decide)
  have hr := h.evidence
  rw [hbytes] at hr
  constructor
  · rintro hall (⟨hid, -⟩ | ⟨hid, -⟩ | ⟨hid, -⟩ | ⟨-, r, r', hr₀, hr', hne⟩)
    · exact absurd hid (by decide)
    · exact absurd hid (by decide)
    · exact absurd hid (by decide)
    · have hread : ContentRead digest limits policy section?'
          { content with evidence := r'.2, evidenceTruncated := r'.1 } := by
        refine ⟨?_, ?_, h.digest, ?_, ?_⟩
        · rw [hmetadata']
          exact h.metadata
        · rw [htopology']
          exact h.topology
        · rw [hepisodes']
          exact h.episodes
        · rw [hself]
          exact hr'
      have hsame := (hall _ hread).2.2.1
      -- The flag is not part of `SameContent`, so only the records are compared.
      have hold := congrArg Prod.snd (Except.ok.inj (hr.symm.trans hr₀))
      exact hne (hsame.trans hold)
  · intro hnot damaged hread
    have htopology := h.same_topology hread htopology'
    have hr' := hread.evidence
    rw [hself] at hr'
    have hevidence : damaged.evidence = content.evidence := by
      by_contra hne
      exact hnot (Or.inr (Or.inr (Or.inr ⟨rfl, _, _, hr, hr', hne⟩)))
    exact ⟨htopology, h.same_episodes hread hepisodes', hevidence,
      h.same_metadata hread htopology hmetadata'⟩

end

/-- Other bytes for one section go unnoticed exactly when its reader accepts them as something
else. -/
theorem replaced_iff {id : UInt32} {bytes bytes' : Text}
    (hid : id ∈ [SnapshotSectionId.metadata, SnapshotSectionId.topology,
      SnapshotSectionId.episodes, SnapshotSectionId.evidence])
    (h : ContentRead digest limits policy section? content) (hbytes : section? id = some bytes)
    (hself : section?' id = some bytes')
    (hother : ∀ other, other ≠ id → section?' other = section? other) :
    (∀ damaged, ContentRead digest limits policy section?' damaged → SameContent content damaged) ↔
      ¬ ReadsOtherwise limits policy id bytes bytes' := by
  simp only [List.mem_cons, List.not_mem_nil, or_false] at hid
  rcases hid with rfl | rfl | rfl | rfl
  · exact h.replaced_metadata hbytes hself hother
  · exact h.replaced_topology hbytes hself hother
  · exact h.replaced_episodes hbytes hself hother
  · exact h.replaced_evidence hbytes hself hother

/-- Without the episode section the content is the same when there were no episodes. -/
theorem dropped_episodes (h : ContentRead digest limits policy section? content)
    (hself : section?' SnapshotSectionId.episodes = none)
    (hother : ∀ id ∈ [SnapshotSectionId.metadata, SnapshotSectionId.topology,
      SnapshotSectionId.evidence], section?' id = section? id) :
    (∀ damaged, ContentRead digest limits policy section?' damaged → SameContent content damaged) ↔
      content.episodes = [] := by
  have hmetadata' := hother SnapshotSectionId.metadata (by simp)
  have htopology' := hother SnapshotSectionId.topology (by simp)
  have hevidence' := hother SnapshotSectionId.evidence (by simp)
  constructor
  · intro hall
    have hread : ContentRead digest limits policy section?' { content with episodes := [] } := by
      refine ⟨?_, ?_, h.digest, ?_, ?_⟩
      · rw [hmetadata']
        exact h.metadata
      · rw [htopology']
        exact h.topology
      · rw [hself]
        rfl
      · rw [hevidence']
        exact h.evidence
    exact (hall _ hread).2.1.symm
  · intro hnil damaged hread
    have htopology := h.same_topology hread htopology'
    have hempty := hread.episodes
    rw [hself] at hempty
    exact ⟨htopology, by rw [hnil, ← Except.ok.inj hempty], h.same_evidence hread hevidence',
      h.same_metadata hread htopology hmetadata'⟩

/-- Without the evidence section the content is the same when there was no evidence. -/
theorem dropped_evidence (h : ContentRead digest limits policy section? content)
    (hself : section?' SnapshotSectionId.evidence = none)
    (hother : ∀ id ∈ [SnapshotSectionId.metadata, SnapshotSectionId.topology,
      SnapshotSectionId.episodes], section?' id = section? id) :
    (∀ damaged, ContentRead digest limits policy section?' damaged → SameContent content damaged) ↔
      content.evidence = [] := by
  have hmetadata' := hother SnapshotSectionId.metadata (by simp)
  have htopology' := hother SnapshotSectionId.topology (by simp)
  have hepisodes' := hother SnapshotSectionId.episodes (by simp)
  constructor
  · intro hall
    -- The section is optional: without it the content is accepted, with no evidence.
    have hread : ContentRead digest limits policy section?'
        { content with evidence := [], evidenceTruncated := false } := by
      refine ⟨?_, ?_, h.digest, ?_, ?_⟩
      · rw [hmetadata']
        exact h.metadata
      · rw [htopology']
        exact h.topology
      · rw [hepisodes']
        exact h.episodes
      · rw [hself]
        rfl
    exact (hall _ hread).2.2.1.symm
  · intro hnil damaged hread
    have htopology := h.same_topology hread htopology'
    have hempty := hread.evidence
    rw [hself] at hempty
    have hevidence := congrArg Prod.snd (Except.ok.inj hempty)
    exact ⟨htopology, h.same_episodes hread hepisodes', by rw [hnil]; exact hevidence.symm,
      h.same_metadata hread htopology hmetadata'⟩

end ContentRead

/-! ### Empty sections -/

section

variable {α β : Type} {read : ByteReader β} {write : α → Text}

/-- When all the bytes of the elements are used, none are read only if none were written. -/
theorem times_eq_nil_iff (hwrite : ∀ a, write a ≠ []) {n : Nat} {l : List α} {r : List β}
    (hzero : l = [] → n = 0)
    (h : times n read ⟨l.flatMap write, none⟩ = .ok (r, ⟨[], none⟩)) : r = [] ↔ l = [] := by
  have hlength := times_length h rfl
  constructor
  · intro hr
    rw [hr] at hlength
    rw [← hlength] at h
    cases l with
    | nil => rfl
    | cons a rest =>
        have hrest : (a :: rest).flatMap write = [] := by
          injection h with h
          injection h with _ h
          injection h
        rw [List.flatMap_cons, List.append_eq_nil_iff] at hrest
        exact absurd hrest.1 (hwrite a)
  · intro hl
    rw [hzero hl] at hlength
    exact List.eq_nil_of_length_eq_zero hlength

theorem ofNat_length_eq_zero {l : List α} (h : l = []) : (UInt32.ofNat l.length).toNat = 0 := by
  rw [h]
  rfl

end

section

variable {limits : Limits}

theorem digestId_ne_nil {Tag : Type} (id : DigestId Tag) : ByteWriter.digestId id ≠ [] := by
  intro h
  have hlength := congrArg List.length h
  simp [ByteWriter.digestId, ByteWriter.u64] at hlength

theorem writeEpisode_ne_nil (e : Episode) : writeEpisode e ≠ [] := by
  delta writeEpisode
  simp only [ne_eq, List.append_eq_nil_iff, digestId_ne_nil, false_and, not_false_eq_true]

theorem writeEvidence_ne_nil (r : EvidenceRecord) : writeEvidence r ≠ [] := by
  delta writeEvidence
  simp only [ne_eq, List.append_eq_nil_iff, digestId_ne_nil, false_and, not_false_eq_true]

theorem decodeEpisodeSection_eq_nil {episodes decoded : List Episode}
    (hpos : 0 < limits.maxSnapshotEpisodes)
    (h : decodeEpisodeSection (encodeEpisodeSection episodes limits) limits = .ok decoded) :
    decoded = [] ↔ episodes = [] := by
  rw [decodeEpisodeSection, readWhole_eq_ok] at h
  obtain ⟨n, c, hcount, htimes⟩ := Decoder.bind_eq_ok.mp h
  have hreads := reads_count_u32 limits.maxSnapshotEpisodes "episode count exceeds the limit"
    (UInt32.ofNat (episodes.take limits.maxSnapshotEpisodes).length)
  by_cases hfits : (UInt32.ofNat (episodes.take limits.maxSnapshotEpisodes).length).toNat
      ≤ limits.maxSnapshotEpisodes
  · have hread := hreads.accepts hfits
      ((episodes.take limits.maxSnapshotEpisodes).flatMap writeEpisode)
    rw [encodeEpisodeSection, ByteWriter.list, ByteWriter.size, hread] at hcount
    cases hcount
    rw [times_eq_nil_iff writeEpisode_ne_nil ofNat_length_eq_zero htimes, List.take_eq_nil_iff]
    simp [Nat.ne_of_gt hpos]
  · -- A count that is refused leaves a failure, which the loop keeps.
    have hfailure := hreads.rejects hfits _ n c hcount
    exact absurd rfl (sticky_times n _ c hfailure _ _ htimes)

theorem decodeEvidenceSection_eq_nil {evidence : List EvidenceRecord}
    {decoded : Bool × List EvidenceRecord} (hpos : 0 < limits.maxSnapshotEvidence)
    (h : decodeEvidenceSection (encodeEvidenceSection evidence limits) limits = .ok decoded) :
    decoded.2 = [] ↔ evidence = [] := by
  rw [decodeEvidenceSection, readWhole_eq_ok] at h
  obtain ⟨n, c, hcount, hrest⟩ := Decoder.bind_eq_ok.mp h
  have hread := (reads_u32 (UInt32.ofNat (evidence.take limits.maxSnapshotEvidence).length)).accepts
    trivial ((evidence.take limits.maxSnapshotEvidence).flatMap writeEvidence)
  rw [encodeEvidenceSection, ByteWriter.list, ByteWriter.size, hread] at hcount
  cases hcount
  obtain ⟨records, c₁, htimes, hpure⟩ := Decoder.bind_eq_ok.mp hrest
  cases hpure
  rw [times_eq_nil_iff writeEvidence_ne_nil ?_ htimes, List.take_eq_nil_iff]
  · simp [Nat.ne_of_gt hpos]
  · intro hnil
    rw [ofNat_length_eq_zero hnil]
    simp

end

/-! ### The damage that is detected -/

namespace RawSnapshot

variable {limits : Limits} {policy : ClassificationPolicy} {content : SnapshotContent}
  {raw : RawSnapshot}

theorem tableOf_bytes (hmagic : raw.magic.length = 8) (hcount : raw.table.length = 4) :
    tableOf raw.bytes = raw.table := by
  have hdrop : raw.bytes.drop kSnapshotHeaderBytes
      = raw.table.flatMap writeSection ++ raw.payload := by
    rw [bytes, ← length_head hmagic, List.drop_left]
  have hread := (reads_table raw.table).accepts trivial raw.payload
  rw [hcount] at hread
  simp only [tableOf, hdrop, hread]

theorem payloadAt_bytes (hmagic : raw.magic.length = 8) (hcount : raw.table.length = 4) :
    payloadAt raw.bytes = raw.payload := by
  have hlength : kSnapshotHeaderBytes + 4 * 28
      = (raw.head ++ raw.table.flatMap writeSection).length := by
    rw [List.length_append, length_head hmagic, length_tableBytes, hcount]
  rw [payloadAt, bytes, ← List.append_assoc, hlength, List.drop_left]

theorem HeaderAccepted.checks (h : raw.HeaderAccepted limits policy) :
    raw.limitsDigest = limits.digest ∧ raw.policyDigest = policy.digest := by
  have hheader := h.header
  unfold checkHeader at hheader
  rw [seq_eq_ok, seq_eq_ok, failIf_eq_ok, failIf_eq_ok, failIf_eq_ok] at hheader
  exact ⟨not_not.mp hheader.2.1, not_not.mp hheader.2.2⟩

/-- A changed field of the header, or a changed payload, is an error or leaves the content. -/
theorem fieldChange_detected {raw' : RawSnapshot} {damaged : SnapshotContent}
    (h : raw.Decodes limits policy content) (hcount : raw.table.length = raw.sectionCount.toNat)
    (hchange : FieldChange raw raw')
    (hdecode : decodeSnapshot raw'.bytes limits policy = .ok damaged) :
    SameContent content damaged := by
  have hmagic := h.header.length_magic
  cases hchange with
  | magic magic hlength hne =>
      have h' := decodes_of_decode hdecode (hlength.trans hmagic) hcount
      exact absurd (h'.header.magic.trans h.header.magic.symm) hne
  | major major hne =>
      have h' := decodes_of_decode hdecode hmagic hcount
      exact absurd (h'.header.major.trans h.header.major.symm) hne
  | minor minor hne =>
      have h' := decodes_of_decode hdecode hmagic hcount
      -- The format has minor version zero, so both versions are zero.
      have hzero : ∀ m : UInt32, ¬ m > kSnapshotFormatMinor → m = 0 := by
        intro m hm
        rw [gt_iff_lt, UInt32.lt_iff_toNat_lt] at hm
        apply UInt32.toNat_inj.mp
        show m.toNat = 0
        have hminor : kSnapshotFormatMinor.toNat = 0 := rfl
        omega
      exact absurd ((hzero _ h'.header.minor).trans (hzero _ h.header.minor).symm) hne
  | limitsDigest digest hne =>
      have h' := decodes_of_decode hdecode hmagic hcount
      exact absurd (h'.header.checks.1.trans h.header.checks.1.symm) hne
  | policyDigest digest hne =>
      have h' := decodes_of_decode hdecode hmagic hcount
      exact absurd (h'.header.checks.2.trans h.header.checks.2.symm) hne
  | topologyDigest digest hne =>
      have h' := decodes_of_decode hdecode hmagic hcount
      have htopology := h.content.same_topology h'.content rfl
      exact absurd (by rw [← h.content.digest, ← htopology, h'.content.digest]) hne
  | createdAt createdAt =>
      have h' := decodes_of_decode hdecode hmagic hcount
      exact h.content.same h'.content
  | sectionCount count hne =>
      have hcount' := sectionCount_of_decode hdecode hmagic h.length
      exact absurd (UInt32.toNat_inj.mp (hcount'.symm.trans hcount)) hne
  | payloadBytes length hne =>
      have h' := decodes_of_decode hdecode hmagic hcount
      exact absurd (UInt64.toNat_inj.mp (h'.length.symm.trans h.length)) hne
  | payloadCrc crc hne =>
      have h' := decodes_of_decode hdecode hmagic hcount
      exact absurd (h'.crc.symm.trans h.crc) hne
  | payload payload hdiffers =>
      have h' := decodes_of_decode hdecode hmagic hcount
      exact absurd (h.crc.trans h'.crc.symm) (crc64_ne_of_differsInOne hdiffers)

section

variable {before after : List SnapshotSection} {s s' : SnapshotSection}

/-- With one entry of the table replaced, the header and the payload still pass. -/
theorem replaced_decodes_iff (h : raw.Decodes limits policy content)
    (hsplit : raw.table = before ++ s :: after) (damaged : SnapshotContent) :
    { raw with table := before ++ s' :: after : RawSnapshot }.Decodes limits policy damaged ↔
      SectionFits raw.payload s' ∧ ((before ++ s' :: after).map (·.id)).Nodup ∧
        ContentRead raw.topologyDigest limits policy
          (sectionOf raw.payload (before ++ s' :: after)) damaged := by
  constructor
  · intro h'
    exact ⟨h'.fits s' (by simp), h'.nodup, h'.content⟩
  · rintro ⟨hfits, hnodup, hcontent⟩
    have hothers : ∀ e ∈ before ++ s' :: after, SectionFits raw.payload e := by
      intro e he
      have hold := h.fits e
      rw [hsplit] at hold
      rw [List.mem_append, List.mem_cons] at he
      rcases he with he | rfl | he
      · exact hold (by simp [he])
      · exact hfits
      · exact hold (by simp [he])
    exact ⟨⟨h.header.magic, h.header.major, h.header.minor, h.header.sectionCount,
      h.header.header⟩, h.length, h.crc, hothers, hnodup, hcontent⟩

/-- An entry with another extent. -/
theorem extentChange_iff (h : raw.Decodes limits policy content)
    (hsplit : raw.table = before ++ s :: after) (hid : s'.id = s.id)
    (hknown : s.id ∈ [SnapshotSectionId.metadata, SnapshotSectionId.topology,
      SnapshotSectionId.episodes, SnapshotSectionId.evidence]) :
    (∀ damaged, { raw with table := before ++ s' :: after : RawSnapshot }.Decodes limits policy
        damaged → SameContent content damaged) ↔
      ¬ (SectionFits raw.payload s' ∧
        ReadsOtherwise limits policy s.id (sliceOf raw.payload s) (sliceOf raw.payload s')) := by
  have hnodup := h.nodup
  rw [hsplit] at hnodup
  have hnodup' : ((before ++ s' :: after).map (·.id)).Nodup := by
    rw [List.map_append, List.map_cons, hid]
    rw [List.map_append, List.map_cons] at hnodup
    exact hnodup
  have hcontent := h.content
  rw [hsplit] at hcontent
  -- An identity occurs once in the table, so it finds the changed entry and no other.
  have hold : sectionOf raw.payload (before ++ s :: after) s.id
      = some (sliceOf raw.payload s) := by
    rw [sectionOf_replace hnodup hnodup, if_pos rfl]
  have hnew : sectionOf raw.payload (before ++ s' :: after) s.id
      = some (sliceOf raw.payload s') := by
    rw [sectionOf_replace hnodup hnodup', if_pos hid.symm]
  have hothers : ∀ id, id ≠ s.id → sectionOf raw.payload (before ++ s' :: after) id
      = sectionOf raw.payload (before ++ s :: after) id := by
    intro id hne
    rw [sectionOf_replace hnodup hnodup', if_neg (by rw [hid]; exact hne), if_neg hne]
  have hiff := hcontent.replaced_iff hknown hold hnew hothers
  simp only [replaced_decodes_iff h hsplit]
  constructor
  · rintro hall ⟨hfits, hreads⟩
    exact hiff.mp (fun damaged hread => hall damaged ⟨hfits, hnodup', hread⟩) hreads
  · rintro hnot damaged ⟨hfits, -, hread⟩
    exact hiff.mpr (fun hreads => hnot ⟨hfits, hreads⟩) damaged hread

/-- The identities of the other entries stay in the table, apart from the new one. -/
theorem mem_ids_replace {id : UInt32}
    (hnodup' : ((before ++ s' :: after).map (·.id)).Nodup)
    (hmem : id ∈ (before ++ s :: after).map (·.id)) (hne : id ≠ s.id) :
    id ∈ (before ++ s' :: after).map (·.id) ∧ id ≠ s'.id := by
  rw [List.map_append, List.map_cons, List.nodup_append, List.nodup_cons] at hnodup'
  rw [List.map_append, List.map_cons, List.mem_append, List.mem_cons] at hmem ⊢
  rcases hmem with hmem | hmem | hmem
  · exact ⟨Or.inl hmem, hnodup'.2.2 id hmem s'.id List.mem_cons_self⟩
  · exact absurd hmem hne
  · exact ⟨Or.inr (Or.inr hmem), fun heq => hnodup'.2.1.1 (heq ▸ hmem)⟩

/-- The old identity of a replaced entry is gone. -/
theorem not_mem_ids_replace (hnodup : ((before ++ s :: after).map (·.id)).Nodup)
    (hid : s'.id ≠ s.id) : s.id ∉ (before ++ s' :: after).map (·.id) := by
  intro hmem
  rw [List.map_append, List.map_cons, List.nodup_append, List.nodup_cons] at hnodup
  rw [List.map_append, List.map_cons, List.mem_append, List.mem_cons] at hmem
  rcases hmem with hmem | hmem | hmem
  · exact hnodup.2.2 s.id hmem s.id List.mem_cons_self rfl
  · exact hid hmem.symm
  · exact hnodup.2.1.1 hmem

/-- An entry with another identity. `original` is the content that was written, which has
episodes and evidence when the content that is read back has. -/
theorem identityChange_iff {original : SnapshotContent} (h : raw.Decodes limits policy content)
    (hsplit : raw.table = before ++ s :: after) (hid : s'.id ≠ s.id)
    (hfits : SectionFits raw.payload s')
    (hids : raw.table.map (·.id) = [SnapshotSectionId.metadata, SnapshotSectionId.topology,
      SnapshotSectionId.episodes, SnapshotSectionId.evidence])
    (hepisodes : content.episodes = [] ↔ original.episodes = [])
    (hevidence : content.evidence = [] ↔ original.evidence = []) :
    (∀ damaged, { raw with table := before ++ s' :: after : RawSnapshot }.Decodes limits policy
        damaged → SameContent content damaged) ↔ ¬ Dropped original (before ++ s' :: after) := by
  simp only [replaced_decodes_iff h hsplit]
  by_cases hnodup' : ((before ++ s' :: after).map (·.id)).Nodup
  case neg =>
    -- An identity that occurs twice is an error.
    exact ⟨fun _ hdropped => hnodup' hdropped.1, fun _ _ hread => absurd hread.2.1 hnodup'⟩
  have hnodup := h.nodup
  have hcontent := h.content
  rw [hsplit] at hnodup hcontent hids
  simp only [hfits, hnodup', true_and]
  have hgone := not_mem_ids_replace hnodup hid
  have hnone : sectionOf raw.payload (before ++ s' :: after) s.id = none := by
    rw [sectionOf_replace hnodup hnodup', if_neg (Ne.symm hid), if_pos rfl]
  -- The other sections and their identities are as before.
  have hkept : ∀ id ∈ [SnapshotSectionId.metadata, SnapshotSectionId.topology,
      SnapshotSectionId.episodes, SnapshotSectionId.evidence], id ≠ s.id →
      id ∈ (before ++ s' :: after).map (·.id) ∧
        sectionOf raw.payload (before ++ s' :: after) id
          = sectionOf raw.payload (before ++ s :: after) id := by
    intro id hmem hne
    rw [← hids] at hmem
    obtain ⟨hmem', hne'⟩ := mem_ids_replace hnodup' hmem hne
    exact ⟨hmem', by rw [sectionOf_replace hnodup hnodup', if_neg hne', if_neg hne]⟩
  have hknown : s.id ∈ (before ++ s :: after).map (·.id) := by simp
  rw [hids] at hknown
  simp only [List.mem_cons, List.not_mem_nil, or_false] at hknown
  generalize s.id = old at *
  rcases hknown with rfl | rfl | rfl | rfl
  · -- Without the metadata section nothing is read.
    have hfirst := (hkept SnapshotSectionId.episodes (by simp) (by decide)).1
    have hsecond := (hkept SnapshotSectionId.evidence (by simp) (by decide)).1
    refine iff_of_true (fun damaged hread => ?_) (by unfold Dropped; tauto)
    obtain ⟨bytes, -, hbytes, -⟩ := hread.metadata
    rw [hnone] at hbytes
    cases hbytes
  · have hfirst := (hkept SnapshotSectionId.episodes (by simp) (by decide)).1
    have hsecond := (hkept SnapshotSectionId.evidence (by simp) (by decide)).1
    refine iff_of_true (fun damaged hread => ?_) (by unfold Dropped; tauto)
    obtain ⟨bytes, hbytes, -⟩ := hread.topology
    rw [hnone] at hbytes
    cases hbytes
  · have hsecond := (hkept SnapshotSectionId.evidence (by simp) (by decide)).1
    rw [hcontent.dropped_episodes hnone, hepisodes]
    · unfold Dropped
      tauto
    · simp only [List.forall_mem_cons]
      exact ⟨(hkept _ (by simp) (by decide)).2, (hkept _ (by simp) (by decide)).2,
        (hkept _ (by simp) (by decide)).2, by simp⟩
  · have hfirst := (hkept SnapshotSectionId.episodes (by simp) (by decide)).1
    rw [hcontent.dropped_evidence hnone, hevidence]
    · unfold Dropped
      tauto
    · simp only [List.forall_mem_cons]
      exact ⟨(hkept _ (by simp) (by decide)).2, (hkept _ (by simp) (by decide)).2,
        (hkept _ (by simp) (by decide)).2, by simp⟩

end

end RawSnapshot

section

variable {limits : Limits} {policy : ClassificationPolicy} {content decoded : SnapshotContent}

/-- The content that is read back has episodes, and evidence, when the one that was written has. -/
theorem eq_nil_of_decodes (hvalid : limits.validate = .ok ())
    (hlength : (rawOf content limits).payload.length < 2 ^ 64)
    (h : (rawOf content limits).Decodes limits policy decoded) :
    (decoded.episodes = [] ↔ content.episodes = []) ∧
      (decoded.evidence = [] ↔ content.evidence = []) := by
  have hpos := Limits.pos_of_validate hvalid
  constructor
  · have hread := h.content.episodes
    rw [sectionOf_rawOf hlength] at hread
    exact decodeEpisodeSection_eq_nil
      (hpos (limits.maxSnapshotEpisodes, "max_snapshot_episodes") (by simp [Limits.positives]))
      hread
  · have hread := h.content.evidence
    rw [sectionOf_rawOf hlength] at hread
    exact decodeEvidenceSection_eq_nil
      (hpos (limits.maxSnapshotEvidence, "max_snapshot_evidence") (by simp [Limits.positives]))
      hread

/-- A table with the identities of the encoder drops nothing. -/
theorem not_dropped {table : List SnapshotSection}
    (hids : table.map (·.id) = [SnapshotSectionId.metadata, SnapshotSectionId.topology,
      SnapshotSectionId.episodes, SnapshotSectionId.evidence]) : ¬ Dropped content table := by
  unfold Dropped
  rw [hids]
  simp

/-- A changed byte is an error, or leaves the content, unless it drops a section or moves the
extent of one to bytes that are read otherwise. -/
theorem damage_detected_iff {bytes bytes' : Text} (hencode : encodeSnapshot content limits = .ok bytes)
    (hdecode : decodeSnapshot bytes limits policy = .ok decoded)
    (hdamage : DiffersInOne bytes bytes') :
    (∀ damaged, decodeSnapshot bytes' limits policy = .ok damaged → SameContent decoded damaged) ↔
      ¬ Dropped content (tableOf bytes') ∧
        ¬ Misread limits policy (payloadAt bytes) (tableOf bytes) (tableOf bytes') := by
  obtain ⟨hvalid, hlength, -, rfl⟩ := encodeSnapshot_raw.mp hencode
  have hmagic : (rawOf content limits).magic.length = 8 := rfl
  have h := RawSnapshot.decodes_of_decode hdecode hmagic rfl
  have hids := ids_rawOf content limits
  obtain ⟨hepisodes, hevidence⟩ := eq_nil_of_decodes hvalid hlength h
  rw [RawSnapshot.tableOf_bytes hmagic length_table_rawOf,
    RawSnapshot.payloadAt_bytes hmagic length_table_rawOf]
  rcases RawSnapshot.bytes_change hdamage with
    ⟨raw', hchange, rfl⟩ | ⟨before, s, s', after, hsplit, hchange, rfl⟩
  · -- Outside the table the damage is detected, and the table is as it was.
    have htable : tableOf raw'.bytes = (rawOf content limits).table := by
      cases hchange with
      | magic magic hlen hne => exact RawSnapshot.tableOf_bytes (hlen.trans hmagic) rfl
      | _ => exact RawSnapshot.tableOf_bytes hmagic rfl
    rw [htable]
    exact iff_of_true (fun damaged => RawSnapshot.fieldChange_detected h rfl hchange)
      ⟨not_dropped hids, not_misread_self⟩
  · have hcount : (before ++ s' :: after).length = 4 := by
      have hfour : (before ++ s :: after).length = 4 := hsplit ▸ length_table_rawOf
      simpa using hfour
    have hmem : s ∈ (rawOf content limits).table := by
      rw [hsplit]
      simp
    have hknown : s.id ∈ (rawOf content limits).table.map (·.id) := List.mem_map_of_mem hmem
    rw [hids] at hknown
    have hiff : ∀ damaged, decodeSnapshot { rawOf content limits with
        table := before ++ s' :: after : RawSnapshot }.bytes limits policy = .ok damaged ↔
        { rawOf content limits with table := before ++ s' :: after : RawSnapshot }.Decodes limits
          policy damaged := fun damaged => RawSnapshot.decodeSnapshot_iff hmagic hcount
    have htable : tableOf { rawOf content limits with
        table := before ++ s' :: after : RawSnapshot }.bytes = before ++ s' :: after :=
      RawSnapshot.tableOf_bytes hmagic hcount
    simp only [hiff]
    rw [htable, hsplit, misread_replace]
    cases hchange with
    | id id hne =>
        have hfits : SectionFits (rawOf content limits).payload { s with id := id } :=
          h.fits s hmem
        rw [RawSnapshot.identityChange_iff h hsplit hne hfits hids hepisodes hevidence]
        exact (and_iff_left fun hmisread => not_readsOtherwise_self _ _ hmisread.2).symm
    | offset offset =>
        apply (RawSnapshot.extentChange_iff h hsplit (by rfl) hknown).trans
        exact (and_iff_right (not_dropped (by rw [← hids, hsplit]; simp))).symm
    | length length =>
        apply (RawSnapshot.extentChange_iff h hsplit (by rfl) hknown).trans
        exact (and_iff_right (not_dropped (by rw [← hids, hsplit]; simp))).symm
    | crc64 crc hne =>
        refine iff_of_true (fun damaged hread => ?_)
          ⟨not_dropped (by rw [← hids, hsplit]; simp),
            fun hmisread => not_readsOtherwise_self _ _ hmisread.2⟩
        have hfits := ((RawSnapshot.replaced_decodes_iff h hsplit damaged).mp hread).1
        exact absurd (hfits.2.symm.trans (h.fits s hmem).2) hne

end

/-! ### A lost episode -/

/-- The key of an episode on a link. -/
def linkKey : EpisodeKey :=
  { scope := .link (EntityId.unchecked (ascii "l1")), mechanism := .packetDrop }

/-- A content with one episode, under the default policy. -/
def episodeContent : SnapshotContent :=
  { metadata :=
    { policyVersion := ({} : ClassificationPolicy).version
      policyDigest := ({} : ClassificationPolicy).digest }
    episodes := [{ id := computeEpisodeId linkKey, key := linkKey, revision := 1 }] }

/-- The snapshot of the content, under the default limits. -/
def episodeSnapshot : Text := (encodeSnapshot episodeContent {}).toOption.getD []

/-- What the snapshot is read as. -/
def readBack (bytes : Text) : SnapshotContent := (decodeSnapshot bytes {} {}).toOption.getD {}

theorem readBack_of_isOk {bytes : Text} (h : (decodeSnapshot bytes {} {}).isOk = true) :
    decodeSnapshot bytes {} {} = .ok (readBack bytes) :=
  eq_ok_of_isOk h {}

theorem encode_episodeContent : encodeSnapshot episodeContent {} = .ok episodeSnapshot :=
  eq_ok_of_isOk (by decide +kernel) []

theorem decode_episodeSnapshot :
    decodeSnapshot episodeSnapshot {} {} = .ok (readBack episodeSnapshot) :=
  readBack_of_isOk (by decide +kernel)

/-- Byte 40 is in the time of the header, and a change there leaves the content. -/
theorem damage_detected_created_at :
    decodeSnapshot (episodeSnapshot.set 40 1) {} {} = .ok (readBack (episodeSnapshot.set 40 1)) ∧
      SameContent (readBack episodeSnapshot) (readBack (episodeSnapshot.set 40 1)) := by
  have hdecode : decodeSnapshot (episodeSnapshot.set 40 1) {} {}
      = .ok (readBack (episodeSnapshot.set 40 1)) := readBack_of_isOk (by decide +kernel)
  have htable : tableOf (episodeSnapshot.set 40 1) = tableOf episodeSnapshot := by decide +kernel
  have hids : (tableOf episodeSnapshot).map (·.id) = [SnapshotSectionId.metadata,
      SnapshotSectionId.topology, SnapshotSectionId.episodes, SnapshotSectionId.evidence] := by
    decide +kernel
  have hbyte : episodeSnapshot[40]? = some 0 := by decide +kernel
  have hdamage : DiffersInOne episodeSnapshot (episodeSnapshot.set 40 1) :=
    DiffersInOne.set hbyte (by decide)
  have hdetected := (damage_detected_iff encode_episodeContent decode_episodeSnapshot hdamage).mpr
  rw [htable] at hdetected
  exact ⟨hdecode, hdetected ⟨not_dropped hids, not_misread_self⟩ _ hdecode⟩

/-- Byte 124 is the identity of the episode entry. With another value there the snapshot is still
accepted, without its episode. -/
theorem changed_identity_loses_episode :
    encodeSnapshot episodeContent {} = .ok episodeSnapshot ∧
      decodeSnapshot episodeSnapshot {} {} = .ok (readBack episodeSnapshot) ∧
      DiffersInOne episodeSnapshot (episodeSnapshot.set 124 9) ∧
      decodeSnapshot (episodeSnapshot.set 124 9) {} {}
        = .ok (readBack (episodeSnapshot.set 124 9)) ∧
      ¬ SameContent (readBack episodeSnapshot) (readBack (episodeSnapshot.set 124 9)) := by
  have hbyte : episodeSnapshot[124]? = some 2 := by decide +kernel
  have hepisodes : (readBack (episodeSnapshot.set 124 9)).episodes
      ≠ (readBack episodeSnapshot).episodes := by decide +kernel
  exact ⟨encode_episodeContent, decode_episodeSnapshot, DiffersInOne.set hbyte (by decide),
    readBack_of_isOk (by decide +kernel), fun hsame => hepisodes hsame.2.1⟩

end CongestionObservatory
