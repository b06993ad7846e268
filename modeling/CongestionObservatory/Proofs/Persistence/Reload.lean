import CongestionObservatory.Proofs.Persistence.Accepted
import CongestionObservatory.Proofs.Persistence.SaveLoad

/-!
# `CongestionObservatory.Proofs.Persistence.Reload`: a content and what is decoded from it

`Storable` is what a content has to be for its snapshot to be a faithful copy: it is of the active
policy, its topology was built under the limits, its identities are derived, and its counts and
texts are within the limits. `Survives` says that a decoded content is that copy.

It is not enough. Three more things decide, and the encoder checks none of them. A length and the
count of citations of an assessment have to fit 32 bits. A node label must not be empty. And a
metadata entry has to be within its own bounds, which the decoder checks. These are `Reloadable`,
and `survives_iff` says that a storable content survives exactly when it is reloadable. That they
are needed comes from `prefixed_of_contentRead`: whatever is decoded fits 32 bits.
-/

set_option autoImplicit false

namespace CongestionObservatory

open Lib ByteReader

namespace SnapshotContent

variable (content decoded : SnapshotContent) (limits : Limits) (policy : ClassificationPolicy)

/-- Every text that is written for a content. -/
def texts : List Text :=
  content.metadata.texts ++ content.topology.texts ++ content.episodes.flatMap Episode.texts
    ++ content.evidence.flatMap EvidenceRecord.texts

/-- The content is of the active policy, its topology was built under the limits with attributed
flows and at most 64 labels for each node, its names are canonical, its identities are derived, and
its counts and texts are within the limits. -/
structure Storable : Prop where
  policyDigest : content.metadata.policyDigest = policy.digest
  policyVersion : content.metadata.policyVersion = policy.version
  topology : content.topology.BuiltUnder limits
  attributed : ∀ flow ∈ content.topology.flows.values,
    flow.tenant.valid = true ∧ flow.trafficClass.valid = true
  labelCount : ∀ node ∈ content.topology.nodes.values, node.labels.length ≤ 64
  episodes : ∀ e ∈ content.episodes, e.Canonical ∧ e.Within limits
  evidence : ∀ r ∈ content.evidence, r.Canonical ∧ r.Within limits
  texts : ∀ text ∈ content.texts, text.length ≤ limits.maxDocumentBytes
  episodeCount : content.episodes.length ≤ limits.maxSnapshotEpisodes
  evidenceCount : content.evidence.length ≤ limits.maxSnapshotEvidence

/-- The decoded content is the encoded one, apart from the insertion indexes, the two digests that
are stamped and the generation, which is that of the topology. -/
structure Survives : Prop where
  topology : decoded.topology = content.topology
  episodes : decoded.episodes = content.episodes
  evidence : (decoded.evidence.map fun r => { r with insertionIndex := 0 })
    = content.evidence.map fun r => { r with insertionIndex := 0 }
  metadata : decoded.metadata = { content.metadata with
    limitsDigest := limits.digest, topologyDigest := content.topology.digest
    generation := content.topology.generation }

/-- Lengths and counts of citations fit 32 bits, no label is empty and the metadata entries are
within their bounds. -/
structure Reloadable : Prop where
  prefixed : content.Prefixed limits
  citationCounts : ∀ e ∈ content.episodes, e.CitationCountsFit
  labels : ∀ node ∈ content.topology.nodes.values, ∀ label ∈ node.labels, label.valid = true
  entries : ∀ r ∈ content.evidence, ∀ entry ∈ r.metadata,
    entry.1.length ≤ limits.maxMetadataKeyBytes ∧ entry.2.length ≤ limits.maxMetadataValueBytes

end SnapshotContent

section

variable {content decoded : SnapshotContent} {limits : Limits} {policy : ClassificationPolicy}

/-! ### What is decoded fits 32 bits -/

theorem prefixed_of_decodeMetadataSection {bytes : Text} {m : SnapshotMetadata}
    (h : decodeMetadataSection bytes limits policy = .ok m) :
    ∀ text ∈ m.texts, text.length < 2 ^ 32 := by
  obtain ⟨⟨m', c⟩, hrun, hrest⟩ := bind_eq_ok.mp h
  obtain ⟨-, hpure⟩ := seq_eq_ok.mp hrest
  cases hpure
  obtain ⟨m', c₁, hread, htail⟩ := Decoder.bind_eq_ok.mp hrun
  obtain ⟨u, c₂, -, hlast⟩ := Decoder.bind_eq_ok.mp htail
  cases hlast
  exact yields_readSnapshotMetadata limits _ _ _ hread

theorem prefixed_of_decodeEpisodeSection {bytes : Text} {episodes : List Episode}
    (h : decodeEpisodeSection bytes limits = .ok episodes) :
    episodes.length < 2 ^ 32 ∧ ∀ e ∈ episodes, e.Prefixed ∧ e.CitationCountsFit :=
  yields_list (yields_readEpisode limits) _ _ _ _ _ (readWhole_eq_ok.mp h)

theorem prefixed_of_decodeEvidenceSection {bytes : Text} {result : Bool × List EvidenceRecord}
    (h : decodeEvidenceSection bytes limits = .ok result) :
    result.2.length < 2 ^ 32 ∧ ∀ r ∈ result.2, r.Prefixed := by
  refine yields_readWhole (P := fun result : Bool × List EvidenceRecord =>
    result.2.length < 2 ^ 32 ∧ ∀ r ∈ result.2, r.Prefixed) ?_ h
  refine (Yields.any u32).bind fun rawCount _ => ?_
  refine (yields_times (yields_readEvidence limits) _).bind fun records hrecords => ?_
  refine Yields.pure ⟨lt_of_le_of_lt hrecords.1 ?_, hrecords.2⟩
  split
  · decide
  · exact rawCount.toNat_lt

theorem prefixed_of_contentRead {digest : UInt64} {section? : UInt32 → Option Text}
    (h : ContentRead digest limits policy section? decoded) :
    decoded.Prefixed limits ∧ ∀ e ∈ decoded.episodes, e.CitationCountsFit := by
  obtain ⟨bytes, m, -, hm, hmetadata⟩ := h.metadata
  obtain ⟨bytes', -, ht⟩ := h.topology
  -- An optional section that is missing stands for an empty list.
  have hepisodes : decoded.episodes.length < 2 ^ 32 ∧
      ∀ e ∈ decoded.episodes, e.Prefixed ∧ e.CitationCountsFit := by
    have hread := h.episodes
    cases hsection : section? SnapshotSectionId.episodes with
    | none =>
        rw [hsection] at hread
        rw [← Except.ok.inj hread]
        exact ⟨by decide, fun e he => absurd he List.not_mem_nil⟩
    | some bytes =>
        rw [hsection] at hread
        exact prefixed_of_decodeEpisodeSection hread
  have hevidence : decoded.evidence.length < 2 ^ 32 ∧ ∀ r ∈ decoded.evidence, r.Prefixed := by
    have hread := h.evidence
    cases hsection : section? SnapshotSectionId.evidence with
    | none =>
        rw [hsection] at hread
        rw [← (Prod.mk.inj (Except.ok.inj hread)).2]
        exact ⟨by decide, fun r hr => absurd hr List.not_mem_nil⟩
    | some bytes =>
        rw [hsection] at hread
        exact prefixed_of_decodeEvidenceSection hread
  refine ⟨⟨?_, prefixed_of_decodeTopologySection ht, ?_, ?_, ?_, ?_⟩,
    fun e he => (hepisodes.2 e he).2⟩
  · have htexts := prefixed_of_decodeMetadataSection hm
    rw [hmetadata]
    exact htexts
  · exact lt_of_le_of_lt (List.length_take_le' _ _) hepisodes.1
  · exact lt_of_le_of_lt (List.length_take_le' _ _) hevidence.1
  · exact fun e he => (hepisodes.2 e (List.mem_of_mem_take he)).1
  · exact fun r hr => hevidence.2 r (List.mem_of_mem_take hr)

/-! ### The round trip -/

theorem SnapshotContent.Storable.savable (h : content.Storable limits policy)
    (hlabels : ∀ node ∈ content.topology.nodes.values, ∀ label ∈ node.labels,
      label.valid = true) : content.Savable limits policy where
  policyDigest := h.policyDigest
  policyVersion := h.policyVersion
  built := h.topology.built.1
  topology := ⟨hlabels, h.labelCount, h.attributed⟩
  topologyWithin := h.topology.built.2
  episodes := h.episodes
  evidence := h.evidence

/-- Nothing is cut off. -/
theorem SnapshotContent.Storable.take_eq (h : content.Storable limits policy) :
    content.episodes.take limits.maxSnapshotEpisodes = content.episodes ∧
      content.evidence.take limits.maxSnapshotEvidence = content.evidence :=
  ⟨List.take_of_length_le h.episodeCount, List.take_of_length_le h.evidenceCount⟩

/-- The texts are within the document bound, so only the metadata entries are left to check. -/
theorem SnapshotContent.Storable.fits_iff (h : content.Storable limits policy) :
    content.Fits limits ↔ ∀ r ∈ content.evidence, ∀ entry ∈ r.metadata,
      entry.1.length ≤ limits.maxMetadataKeyBytes ∧
        entry.2.length ≤ limits.maxMetadataValueBytes := by
  obtain ⟨hepisodes, hevidence⟩ := h.take_eq
  have htexts := h.texts
  simp only [SnapshotContent.texts, List.forall_mem_append, List.forall_mem_flatMap] at htexts
  obtain ⟨⟨⟨hmetadata, htopology⟩, hepisode⟩, hrecord⟩ := htexts
  constructor
  · intro hfits r hr
    exact (hfits.evidence r (by rw [hevidence]; exact hr)).metadata
  · intro hentries
    refine ⟨hmetadata, htopology, ?_, ?_⟩
    · rw [hepisodes]
      exact hepisode
    · rw [hevidence]
      exact fun r hr => ⟨hrecord r hr, hentries r hr⟩

/-- An episode is stored as it is when its counts of citations fit. -/
theorem Episode.stored_eq_self {e : Episode} (h : e.CitationCountsFit) : e.stored = e := by
  have hassessments : (e.assessments.map fun d =>
      { d with citationCount := (UInt32.ofNat d.citationCount).toNat }) = e.assessments := by
    refine (List.map_congr_left fun d hd => ?_).trans (List.map_id _)
    rw [toNat_size (h d hd)]
    rfl
  rw [Episode.stored, hassessments]

/-- The content that is read back is the encoded one. -/
theorem SnapshotContent.Storable.survives (h : content.Storable limits policy)
    (hcounts : ∀ e ∈ content.episodes, e.CitationCountsFit) :
    content.Survives (content.reloaded limits) limits := by
  obtain ⟨hepisodes, hevidence⟩ := h.take_eq
  obtain ⟨hmetadata, htopology, hes, hrs⟩ := reloaded_parts content limits
  have hstamped : ∀ a b, ({ { content.metadata with limitsDigest := a, topologyDigest := b } with
      generation := content.topology.generation } : SnapshotMetadata)
        = { content.metadata with
            limitsDigest := a, topologyDigest := b, generation := content.topology.generation } :=
    fun _ _ => rfl
  refine ⟨htopology, ?_, ?_, hmetadata.trans (hstamped _ _)⟩
  · rw [hes, hepisodes]
    exact (List.map_congr_left fun e he => Episode.stored_eq_self (hcounts e he)).trans
      (List.map_id _)
  · rw [hrs, hevidence, List.map_map]
    rfl

/-- The decoded records fit 32 bits, so the encoded ones do: the insertion index is no text. -/
theorem EvidenceRecord.prefixed_of_map_eq {decoded evidence : List EvidenceRecord}
    (heq : (decoded.map fun r => { r with insertionIndex := 0 })
      = evidence.map fun r => { r with insertionIndex := 0 })
    (h : ∀ r ∈ decoded, r.Prefixed) : ∀ r ∈ evidence, r.Prefixed := by
  intro r hr
  have hmem : { r with insertionIndex := 0 } ∈ decoded.map fun r =>
      { r with insertionIndex := 0 } := by
    rw [heq]
    exact List.mem_map_of_mem hr
  obtain ⟨d, hd, hsame⟩ := List.mem_map.mp hmem
  have hprefixed : ({ d with insertionIndex := 0 } : EvidenceRecord).Prefixed :=
    ⟨(h d hd).texts, (h d hd).labels, (h d hd).metadata⟩
  rw [hsame] at hprefixed
  exact ⟨hprefixed.texts, hprefixed.labels, hprefixed.metadata⟩

theorem SnapshotContent.Survives.prefixed (h : content.Survives decoded limits)
    (hprefixed : decoded.Prefixed limits)
    (hepisodes : decoded.episodes.length ≤ limits.maxSnapshotEpisodes)
    (hevidence : decoded.evidence.length ≤ limits.maxSnapshotEvidence) :
    content.Prefixed limits := by
  have hlength : decoded.evidence.length = content.evidence.length := by
    simpa using congrArg List.length h.evidence
  have hstamped : ∀ a b g, ({ content.metadata with
      limitsDigest := a, topologyDigest := b, generation := g } : SnapshotMetadata).texts
        = content.metadata.texts := fun _ _ _ => rfl
  have htexts : decoded.metadata.texts = content.metadata.texts := by
    rw [h.metadata]
    exact hstamped _ _ _
  have hprefixed' := hprefixed
  obtain ⟨hmetadata, htopology, hecount, hrcount, hes, hrs⟩ := hprefixed'
  rw [List.take_of_length_le hepisodes] at hecount hes
  rw [List.take_of_length_le hevidence] at hrcount hrs
  rw [htexts] at hmetadata
  rw [h.topology] at htopology
  rw [h.episodes] at hecount hes hepisodes
  rw [hlength] at hrcount hevidence
  refine ⟨hmetadata, htopology, ?_, ?_, ?_, ?_⟩
  · rwa [List.take_of_length_le hepisodes]
  · rwa [List.take_of_length_le hevidence]
  · rwa [List.take_of_length_le hepisodes]
  · rw [List.take_of_length_le hevidence]
    exact EvidenceRecord.prefixed_of_map_eq h.evidence hrs

/-- A storable content whose encoding succeeds survives exactly when it is reloadable. -/
theorem SnapshotContent.survives_iff {bytes : Text} (hsections : 4 ≤ limits.maxSnapshotSections)
    (h : content.Storable limits policy) (hencode : encodeSnapshot content limits = .ok bytes) :
    (∃ decoded, decodeSnapshot bytes limits policy = .ok decoded ∧
      content.Survives decoded limits) ↔ content.Reloadable limits := by
  obtain ⟨-, hlength, hbound, rfl⟩ := encodeSnapshot_raw.mp hencode
  constructor
  · rintro ⟨decoded, hdecode, hsurvives⟩
    have hread := (RawSnapshot.decodes_of_decode hdecode rfl rfl).content
    obtain ⟨hprefixed', hcounts⟩ := prefixed_of_contentRead hread
    have hprefixed : content.Prefixed limits := by
      refine hsurvives.prefixed hprefixed' ?_ ?_
      · rw [hsurvives.episodes]
        exact h.episodeCount
      · have hlength := congrArg List.length hsurvives.evidence
        rw [List.length_map, List.length_map] at hlength
        rw [hlength]
        exact h.evidenceCount
    -- The topology came back, so its labels are not empty.
    have hlabels : ∀ node ∈ content.topology.nodes.values, ∀ label ∈ node.labels,
        label.valid = true := by
      obtain ⟨bytes, hbytes, htopology⟩ := hread.topology
      rw [(sections_rawOf hlength).2.1] at hbytes
      cases hbytes
      rw [hsurvives.topology] at htopology
      exact (Topology.accepted_of_decode h.topology htopology).2.2.labels
    have hfits := ((contentRead_rawOf_iff (h.savable hlabels) hprefixed hlength decoded).mp hread).1
    refine ⟨hprefixed, ?_, hlabels, h.fits_iff.mp hfits⟩
    rw [← hsurvives.episodes]
    exact hcounts
  · rintro ⟨hprefixed, hcounts, hlabels, hentries⟩
    refine ⟨content.reloaded limits, ?_, h.survives hcounts⟩
    exact (decodeSnapshot_rawOf_iff (h.savable hlabels) hprefixed hlength hbound _).mpr
      ⟨hsections, h.fits_iff.mpr hentries, rfl⟩

end

/-- The content with a topology, an episode and a record can be stored. -/
theorem storable_furnishedContent : SnapshotStore.furnishedContent.Storable {} {} where
  policyDigest := rfl
  policyVersion := rfl
  topology := SnapshotStore.builtUnder_furnishedTopology
  attributed := SnapshotStore.savable_furnishedContent.topology.attributed
  labelCount := SnapshotStore.savable_furnishedContent.topology.labelCount
  episodes := SnapshotStore.savable_furnishedContent.episodes
  evidence := SnapshotStore.savable_furnishedContent.evidence
  texts := by decide +kernel
  episodeCount := by decide +kernel
  evidenceCount := by decide +kernel

/-- It survives, with its labels, its flow, its episode and its record. -/
theorem survives_furnished :
    ∃ bytes decoded, encodeSnapshot SnapshotStore.furnishedContent {} = .ok bytes ∧
      decodeSnapshot bytes {} {} = .ok decoded ∧
      SnapshotStore.furnishedContent.Survives decoded {} := by
  have hencode := eq_ok_of_isOk (show (encodeSnapshot SnapshotStore.furnishedContent {}).isOk = true
    by decide +kernel) []
  obtain ⟨decoded, hdecode, hsurvives⟩ := (SnapshotContent.survives_iff (by decide)
    storable_furnishedContent hencode).mpr ⟨SnapshotStore.prefixed_furnishedContent,
      fun e he => by
        rw [List.mem_singleton.mp (show e ∈ [SnapshotStore.lossEpisode] from he)]
        unfold Episode.CitationCountsFit
        decide,
      by decide +kernel, by decide +kernel⟩
  exact ⟨_, decoded, hencode, hdecode, hsurvives⟩

/-! ### An empty label -/

/-- A node with one label. -/
def labelledNode (label : Name) : TopologyBuilder :=
  { nodes := OrdMap.ofValues (·.id.name)
      [{ id := EntityId.unchecked (ascii "n"), labels := [label] }] }

/-- The default content with such a node. -/
def labelledContent (label : Name) : SnapshotContent :=
  { SnapshotStore.emptyContent with topology := (labelledNode label).assemble }

theorem builtUnder_labelledNode (label : Name) : (labelledNode label).assemble.BuiltUnder {} := by
  have hfits : 1 ≤ ({} : Limits).maxLabels := by decide
  have hadd : TopologyBuilder.addNode {} { id := EntityId.unchecked (ascii "n"), labels := [label] }
      = .ok (labelledNode label) :=
    TopologyBuilder.addNode_eq_ok.mpr ⟨⟨rfl, rfl⟩, by decide, hfits, rfl⟩
  have hreachable := TopologyBuilder.ReachableUnder.addNode .new hadd
  refine ⟨_, hreachable, seq_eq_ok.mpr ⟨TopologyBuilder.buildCheck_eq_ok
    (TopologyBuilder.wellFormed_of_reachable hreachable.reachable)
    (TopologyBuilder.within_of_reachableUnder hreachable).2, rfl⟩⟩

theorem storable_labelledContent {label : Name} (htexts : ∀ text ∈ (labelledContent label).texts,
    text.length ≤ ({} : Limits).maxDocumentBytes) : (labelledContent label).Storable {} {} where
  policyDigest := rfl
  policyVersion := rfl
  topology := builtUnder_labelledNode label
  attributed := fun flow hflow => absurd hflow List.not_mem_nil
  labelCount := by
    intro node hnode
    have hmem : node ∈ [{ id := EntityId.unchecked (ascii "n"), labels := [label] : Node }] := hnode
    rw [List.mem_singleton.mp hmem]
    exact (by decide : 1 ≤ 64)
  episodes := fun e he => absurd he List.not_mem_nil
  evidence := fun r hr => absurd hr List.not_mem_nil
  texts := htexts
  episodeCount := Nat.zero_le _
  evidenceCount := Nat.zero_le _

/-- With an empty label, which the builder accepts, the snapshot is encoded and cannot be
decoded. -/
theorem empty_label_lost :
    ({} : Limits).validate = .ok () ∧ (labelledContent Name.default).Storable {} {} ∧
      ∃ bytes, encodeSnapshot (labelledContent Name.default) {} = .ok bytes ∧
        (decodeSnapshot bytes {} {}).isOk = false :=
  ⟨by decide, storable_labelledContent (by decide +kernel), _,
    eq_ok_of_isOk (by decide +kernel) [], by decide +kernel⟩

end CongestionObservatory
