import CongestionObservatory.Proofs.Persistence.Accepted
import CongestionObservatory.Proofs.Persistence.Crash

/-!
# `CongestionObservatory.Proofs.Persistence.SaveLoad`: loading what was saved

A save checks the size of the payload. A load checks more. The file, which is the payload and 180
bytes of header and table, has to be within the same bound. The number of sections, which is
always four, has to be within its own bound. Each text has to be within the bound on documents,
and each metadata entry within its bounds. None of these follows from the limits being valid, so
a save can succeed and leave a file that the next load refuses.

`Savable` is what the callers of a save guarantee. For such a content, `load_after_save_iff` says
exactly when the load accepts the file: when the content `FileFits` and `Fits`, as long as every
length fits its prefix of 32 bits (`Prefixed`).
-/

set_option autoImplicit false

namespace CongestionObservatory

open Lib ByteReader

namespace SnapshotContent

variable (content : SnapshotContent) (limits : Limits) (policy : ClassificationPolicy)

/-- The content is that of the active policy, its topology was built, its names are canonical, its
identities are derived and its counts are within the limits. -/
structure Savable : Prop where
  policyDigest : content.metadata.policyDigest = policy.digest
  policyVersion : content.metadata.policyVersion = policy.version
  built : content.topology.Built
  topology : content.topology.Canonical
  topologyWithin : (content.topology.toBuilder limits).Within limits
  episodes : ∀ e ∈ content.episodes, e.Canonical ∧ e.Within limits
  evidence : ∀ r ∈ content.evidence, r.Canonical ∧ r.Within limits

/-- Every length that is written fits its prefix. -/
structure Prefixed : Prop where
  metadata : ∀ text ∈ content.metadata.texts, text.length < 2 ^ 32
  topology : content.topology.Prefixed
  episodeCount : (content.episodes.take limits.maxSnapshotEpisodes).length < 2 ^ 32
  evidenceCount : (content.evidence.take limits.maxSnapshotEvidence).length < 2 ^ 32
  episodes : ∀ e ∈ content.episodes.take limits.maxSnapshotEpisodes, e.Prefixed
  evidence : ∀ r ∈ content.evidence.take limits.maxSnapshotEvidence, r.Prefixed

/-- Every text that is written is within the bounds of the reader. -/
structure Fits : Prop where
  metadata : ∀ text ∈ content.metadata.texts, text.length ≤ limits.maxDocumentBytes
  topology : content.topology.Fits limits
  episodes : ∀ e ∈ content.episodes.take limits.maxSnapshotEpisodes, e.Fits limits
  evidence : ∀ r ∈ content.evidence.take limits.maxSnapshotEvidence, r.Fits limits

/-- The header, the table and the payload are within the bound of the payload, and the number of
sections is within its bound. -/
@[mk_iff] structure FileFits : Prop where
  size : kSnapshotHeaderBytes + 4 * 28 + (payloadOf (pendingSections content limits)).length
    ≤ limits.maxSnapshotBytes
  sections : 4 ≤ limits.maxSnapshotSections

/-- The content that is read back. The counts of citations are stored in 32 bits, and the insertion
indexes are not written. -/
def reloaded : SnapshotContent where
  metadata := { stagedMetadata content limits with generation := content.topology.generation }
  topology := content.topology
  episodes := (content.episodes.take limits.maxSnapshotEpisodes).map Episode.stored
  evidence := (content.evidence.take limits.maxSnapshotEvidence).map fun r =>
    { r with insertionIndex := 0 }

/-- The parts of the content that is read back. They are generalised, so that no digest is
computed. -/
theorem reloaded_parts : (content.reloaded limits).metadata
      = { stagedMetadata content limits with generation := content.topology.generation } ∧
    (content.reloaded limits).topology = content.topology ∧
    (content.reloaded limits).episodes
      = (content.episodes.take limits.maxSnapshotEpisodes).map Episode.stored ∧
    (content.reloaded limits).evidence
      = (content.evidence.take limits.maxSnapshotEvidence).map fun r =>
        { r with insertionIndex := 0 } := by
  have hparts : ∀ m t es rs (c : SnapshotContent),
      c = { metadata := m, topology := t, episodes := es, evidence := rs } →
      c.metadata = m ∧ c.topology = t ∧ c.episodes = es ∧ c.evidence = rs := by
    rintro m t es rs c rfl
    exact ⟨rfl, rfl, rfl, rfl⟩
  exact hparts _ _ _ _ _ rfl

/-- A content is the one that is read back when its parts are. -/
theorem eq_reloaded {content decoded : SnapshotContent} {limits : Limits}
    (hmetadata : decoded.metadata
      = { stagedMetadata content limits with generation := content.topology.generation })
    (htopology : decoded.topology = content.topology)
    (hepisodes : decoded.episodes
      = (content.episodes.take limits.maxSnapshotEpisodes).map Episode.stored)
    (hevidence : decoded.evidence = (content.evidence.take limits.maxSnapshotEvidence).map fun r =>
      { r with insertionIndex := 0 }) (hflag : decoded.evidenceTruncated = false) :
    decoded = content.reloaded limits := by
  have hparts : ∀ m t es rs, decoded.metadata = m → decoded.topology = t → decoded.episodes = es →
      decoded.evidence = rs → decoded
        = { metadata := m, topology := t, episodes := es, evidence := rs } := by
    rintro _ _ _ _ rfl rfl rfl rfl
    rw [← hflag]
  exact hparts _ _ _ _ hmetadata htopology hepisodes hevidence

end SnapshotContent

section

variable {content decoded : SnapshotContent} {limits : Limits} {policy : ClassificationPolicy}

theorem length_bytes_rawOf : (rawOf content limits).bytes.length
    = kSnapshotHeaderBytes + 4 * 28 + (payloadOf (pendingSections content limits)).length := by
  rw [RawSnapshot.bytes, List.length_append, List.length_append,
    RawSnapshot.length_head (show (rawOf content limits).magic.length = 8 from rfl),
    length_tableBytes, length_table_rawOf, Nat.add_assoc]
  rfl

/-- The header of a content that is saved under the active policy passes its checks when four
sections are allowed. -/
theorem headerAccepted_rawOf_iff (hpolicy : content.metadata.policyDigest = policy.digest)
    (hlength : (rawOf content limits).payload.length < 2 ^ 64)
    (hbound : (rawOf content limits).payload.length ≤ limits.maxSnapshotBytes) :
    (rawOf content limits).HeaderAccepted limits policy ↔ 4 ≤ limits.maxSnapshotSections := by
  have htoNat : (rawOf content limits).payloadBytes.toNat
      = (rawOf content limits).payload.length := by
    show (UInt64.ofNat (rawOf content limits).payload.length).toNat = _
    rw [UInt64.toNat_ofNat']
    exact Nat.mod_eq_of_lt hlength
  constructor
  · intro h
    exact h.sectionCount
  · intro hsections
    refine ⟨rfl, rfl, UInt32.lt_irrefl _, hsections, ?_⟩
    unfold checkHeader
    rw [seq_eq_ok, seq_eq_ok, failIf_eq_ok, failIf_eq_ok, failIf_eq_ok]
    refine ⟨?_, not_not.mpr rfl, not_not.mpr hpolicy⟩
    show ¬ (rawOf content limits).payloadBytes.toNat > limits.maxSnapshotBytes
    omega

/-- The texts of the metadata are written as they are: only digests are replaced. The digests are
generalised, so that none is computed. -/
theorem stagedMetadata_texts (content : SnapshotContent) (limits : Limits) :
    (stagedMetadata content limits).texts = content.metadata.texts ∧
    (stagedMetadata content limits).policyVersion = content.metadata.policyVersion := by
  have hdigests : ∀ a b : UInt64,
      { content.metadata with limitsDigest := a, topologyDigest := b : SnapshotMetadata }.texts
          = content.metadata.texts ∧
        { content.metadata with limitsDigest := a, topologyDigest := b }.policyVersion
          = content.metadata.policyVersion := fun _ _ => ⟨rfl, rfl⟩
  exact hdigests _ _

/-- The four sections are the four sections that were written. -/
theorem sections_rawOf (hlength : (rawOf content limits).payload.length < 2 ^ 64) :
    sectionOf (rawOf content limits).payload (rawOf content limits).table
        SnapshotSectionId.metadata = some (encodeMetadataSection (stagedMetadata content limits)) ∧
      sectionOf (rawOf content limits).payload (rawOf content limits).table
        SnapshotSectionId.topology = some (encodeTopologySection content.topology) ∧
      sectionOf (rawOf content limits).payload (rawOf content limits).table
        SnapshotSectionId.episodes = some (encodeEpisodeSection content.episodes limits) ∧
      sectionOf (rawOf content limits).payload (rawOf content limits).table
        SnapshotSectionId.evidence = some (encodeEvidenceSection content.evidence limits) := by
  simp only [sectionOf_rawOf hlength]
  exact ⟨rfl, rfl, rfl, rfl⟩

/-- The sections of a content that is saved are read when its texts are within the bounds. -/
theorem contentRead_rawOf_iff (hsavable : content.Savable limits policy)
    (hprefixed : content.Prefixed limits)
    (hlength : (rawOf content limits).payload.length < 2 ^ 64) (decoded : SnapshotContent) :
    ContentRead (rawOf content limits).topologyDigest limits policy
      (sectionOf (rawOf content limits).payload (rawOf content limits).table) decoded ↔
      content.Fits limits ∧ decoded = content.reloaded limits := by
  have hepisodes : ∀ e ∈ content.episodes.take limits.maxSnapshotEpisodes,
      e.Canonical ∧ e.Prefixed ∧ e.Within limits := by
    intro e he
    obtain ⟨hcanonical, hwithin⟩ := hsavable.episodes e (List.mem_of_mem_take he)
    exact ⟨hcanonical, hprefixed.episodes e he, hwithin⟩
  have hevidence : ∀ r ∈ content.evidence.take limits.maxSnapshotEvidence,
      r.Canonical ∧ r.Prefixed ∧ r.Within limits := by
    intro r hr
    obtain ⟨hcanonical, hwithin⟩ := hsavable.evidence r (List.mem_of_mem_take hr)
    exact ⟨hcanonical, hprefixed.evidence r hr, hwithin⟩
  obtain ⟨hmetadata, htopology, hepisode, hrecord⟩ := sections_rawOf hlength
  obtain ⟨htexts, hversion⟩ := stagedMetadata_texts content limits
  -- The staged metadata differ from the content's own in two digests only, not in texts or version.
  have hm : ∀ m, decodeMetadataSection (encodeMetadataSection (stagedMetadata content limits))
      limits policy = .ok m ↔ (∀ text ∈ content.metadata.texts,
        text.length ≤ limits.maxDocumentBytes) ∧ m = stagedMetadata content limits := by
    intro m
    rw [← htexts]
    exact decodeMetadataSection_iff (by rw [htexts]; exact hprefixed.metadata)
      (by rw [hversion]; exact hsavable.policyVersion) m
  have ht := decodeTopologySection_iff hsavable.built hsavable.topology hprefixed.topology
    hsavable.topologyWithin
  have he := decodeEpisodeSection_iff hprefixed.episodeCount hepisodes
  have hr := decodeEvidenceSection_iff hprefixed.evidenceCount hevidence
  constructor
  · intro hread
    obtain ⟨bytes, m, hbytes, hmread, hdecoded⟩ := hread.metadata
    obtain ⟨bytes', hbytes', htread⟩ := hread.topology
    have heread := hread.episodes
    have hrread := hread.evidence
    rw [hmetadata] at hbytes
    rw [htopology] at hbytes'
    rw [hepisode] at heread
    rw [hrecord] at hrread
    cases hbytes
    cases hbytes'
    obtain ⟨hmfits, hmsame⟩ := (hm m).mp hmread
    obtain ⟨htfits, htsame⟩ := (ht _).mp htread
    obtain ⟨hefits, hesame⟩ := (he _).mp heread
    obtain ⟨hrfits, hpair⟩ := (hr _).mp hrread
    obtain ⟨hflag, hrsame⟩ := Prod.mk.inj hpair
    refine ⟨⟨hmfits, htfits, hefits, hrfits⟩, ?_⟩
    rw [htsame, hmsame] at hdecoded
    exact SnapshotContent.eq_reloaded hdecoded htsame hesame hrsame hflag
  · rintro ⟨hfits, rfl⟩
    obtain ⟨hmetadata', htopology', -⟩ := SnapshotContent.reloaded_parts content limits
    refine ⟨?_, ?_, ?_, ?_, ?_⟩
    · rw [hmetadata', htopology']
      exact ⟨_, _, hmetadata, (hm _).mpr ⟨hfits.metadata, rfl⟩, rfl⟩
    · rw [htopology']
      exact ⟨_, htopology, (ht _).mpr ⟨hfits.topology, rfl⟩⟩
    · rw [htopology']
      simp only [rawOf]
    · rw [hepisode]
      exact (he _).mpr ⟨hfits.episodes, rfl⟩
    · rw [hrecord]
      exact (hr _).mpr ⟨hfits.evidence, rfl⟩

/-- What was saved is decoded when four sections are allowed and the texts are within the bounds. -/
theorem decodeSnapshot_rawOf_iff (hsavable : content.Savable limits policy)
    (hprefixed : content.Prefixed limits)
    (hlength : (rawOf content limits).payload.length < 2 ^ 64)
    (hbound : (rawOf content limits).payload.length ≤ limits.maxSnapshotBytes)
    (decoded : SnapshotContent) :
    decodeSnapshot (rawOf content limits).bytes limits policy = .ok decoded ↔
      4 ≤ limits.maxSnapshotSections ∧ content.Fits limits ∧
        decoded = content.reloaded limits := by
  have hheader := headerAccepted_rawOf_iff hsavable.policyDigest hlength hbound
  have hcontent := contentRead_rawOf_iff hsavable hprefixed hlength decoded
  rw [RawSnapshot.decodeSnapshot_iff rfl rfl]
  constructor
  · intro h
    exact ⟨hheader.mp h.header, hcontent.mp h.content⟩
  · rintro ⟨hsections, hread⟩
    have hpayload : (rawOf content limits).payload.length
        = (rawOf content limits).payloadBytes.toNat := by
      show _ = (UInt64.ofNat (rawOf content limits).payload.length).toNat
      rw [UInt64.toNat_ofNat', Nat.mod_eq_of_lt hlength]
    have hnodup : ((rawOf content limits).table.map (·.id)).Nodup := by
      rw [ids_rawOf]
      decide
    exact ⟨hheader.mpr hsections, hpayload, rfl, sectionFits_rawOf hlength, hnodup,
      hcontent.mpr hread⟩

end

namespace SnapshotStore

variable {store : SnapshotStore} {policy : ClassificationPolicy}

theorem outcome_loadedPrimary_iff {files : SnapshotFiles} :
    (store.load policy files).outcome = .loadedPrimary ↔
      ∃ content, Usable store policy files.primary content := by
  unfold load
  cases hprimary : store.tryFile policy "primary" files.primary store.primaryPath with
  | ok content => exact iff_of_true rfl ⟨content, tryFile_eq_ok_iff.mp hprimary⟩
  | error e =>
      obtain ⟨note, integrity, version⟩ := e
      refine iff_of_false ?_ ?_
      · cases store.tryFile policy "fallback" files.fallback store.fallbackPath with
        | ok content => simp
        | error e => simp
      · rintro ⟨content, husable⟩
        rw [tryFile_eq_ok_iff.mpr husable] at hprimary
        cases hprimary

/-- A save that succeeds leaves the encoded content in the primary. -/
theorem save_eq_ok {faults : Faults} {content : SnapshotContent} {files files' : SnapshotFiles}
    {report : SaveReport} (h : store.save faults content files = (.ok report, files')) :
    ∃ bytes, encodeSnapshot content store.limits = .ok bytes ∧ files'.primary = some bytes := by
  unfold save at h
  cases hencode : encodeSnapshot content store.limits with
  | error e =>
      rw [hencode] at h
      cases h
  | ok bytes =>
      refine ⟨bytes, rfl, ?_⟩
      rw [hencode] at h
      simp only at h
      split at h
      · cases h
      · split at h
        · cases h
        · rename_i files₁ _
          -- The write succeeded, so no fault stopped it before the rename.
          unfold writeFileAtomic at h
          simp only at h
          split at h
          · cases h
          · rename_i hwrite
            cases h
            split at hwrite
            · cases hwrite
            · split at hwrite
              · cases hwrite
              · split at hwrite
                · cases hwrite
                · cases hwrite
                  rfl

/-- A load after a save returns what was saved exactly when the file and its texts are within the
bounds that only the load checks, as long as every length fits its prefix. The bounds on the file
are needed in any case. -/
theorem load_after_save_iff {faults : Faults} {content : SnapshotContent}
    {files files' : SnapshotFiles} {report : SaveReport}
    (hsavable : content.Savable store.limits policy)
    (hsave : store.save faults content files = (.ok report, files')) :
    (content.Prefixed store.limits →
      ((store.load policy files').outcome = .loadedPrimary ↔
        content.FileFits store.limits ∧ content.Fits store.limits)) ∧
    ((store.load policy files').outcome = .loadedPrimary → content.FileFits store.limits) := by
  obtain ⟨bytes, hencode, hprimary⟩ := save_eq_ok hsave
  obtain ⟨-, hlength, hbound, rfl⟩ := encodeSnapshot_raw.mp hencode
  have husable : (store.load policy files').outcome = .loadedPrimary ↔
      kSnapshotHeaderBytes + 4 * 28
        + (payloadOf (pendingSections content store.limits)).length
          ≤ store.limits.maxSnapshotBytes ∧
      ∃ decoded, decodeSnapshot (rawOf content store.limits).bytes store.limits policy
        = .ok decoded := by
    rw [outcome_loadedPrimary_iff, hprimary, ← length_bytes_rawOf]
    simp [Usable]
  rw [husable]
  constructor
  · intro hprefixed
    simp only [decodeSnapshot_rawOf_iff hsavable hprefixed hlength hbound, exists_and_left,
      exists_eq, and_true, SnapshotContent.fileFits_iff, and_assoc]
  · rintro ⟨hsize, decoded, hdecode⟩
    have h := RawSnapshot.decodes_of_decode hdecode rfl rfl
    exact ⟨hsize, h.header.sectionCount⟩

/-- The empty content can be saved under any limits. -/
theorem savable_emptyContent (limits : Limits) : emptyContent.Savable limits {} where
  policyDigest := rfl
  policyVersion := rfl
  built := ⟨{}, {}, .new, by decide⟩
  topology := ⟨by simp [emptyContent, OrdMap.values, OrdMap.empty],
    by simp [emptyContent, OrdMap.values, OrdMap.empty],
    by simp [emptyContent, OrdMap.values, OrdMap.empty]⟩
  topologyWithin := by
    constructor <;> simp [Topology.toBuilder, emptyContent, OrdMap.values, OrdMap.size, OrdMap.empty]
  episodes := by simp [emptyContent]
  evidence := by simp [emptyContent]

/-- A flow with a tenant and a class. -/
def tenantFlow : Flow :=
  { id := EntityId.unchecked (ascii "f"), path := EntityId.unchecked (ascii "p")
    tenant := EntityId.unchecked (ascii "t"), trafficClass := EntityId.unchecked (ascii "c") }

/-- A node with a label. -/
def labelledLeaf : Node :=
  { id := EntityId.unchecked (ascii "leaf"), labels := [Name.unchecked (ascii "tor")] }

/-- Two nodes, of which one has a label, a link, a path and a flow along it. -/
def furnishedTopology : Topology :=
  (((Topology.oneFlow tenantFlow).addNode labelledLeaf).toOption.getD {}).assemble

theorem builtUnder_furnishedTopology : furnishedTopology.BuiltUnder {} := by
  have hflow : Topology.onePath.addFlow tenantFlow = .ok (Topology.oneFlow tenantFlow) := by
    decide +kernel
  have hleaf := eq_ok_of_isOk (show ((Topology.oneFlow tenantFlow).addNode labelledLeaf).isOk = true
    by decide +kernel) {}
  have hreachable := TopologyBuilder.ReachableUnder.addNode
    (.addFlow Topology.reachableUnder_onePath hflow) hleaf
  exact ⟨_, hreachable, seq_eq_ok.mpr ⟨TopologyBuilder.buildCheck_eq_ok
    (TopologyBuilder.wellFormed_of_reachable hreachable.reachable)
    (TopologyBuilder.within_of_reachableUnder hreachable).2, rfl⟩⟩

/-- The key of an episode on the link. -/
def lossOnLink : EpisodeKey :=
  { scope := .link (EntityId.unchecked (ascii "l")), mechanism := .packetDrop }

/-- An episode that was opened by one assessment. -/
def lossEpisode : Episode :=
  { id := computeEpisodeId lossOnLink, key := lossOnLink, revision := 1, citations := [⟨7, 8⟩]
    sources := [EntityId.unchecked (ascii "agent1")]
    transitions := [{ revision := 1, cause := ascii "opened", citations := [⟨7, 8⟩] }]
    assessments := [{ citationCount := 1, representativeCitation := ⟨7, 8⟩ }] }

/-- A drop observation about the link, with a label and an entry of metadata. -/
def lossRecord : EvidenceRecord :=
  let record : EvidenceRecord :=
    { kind := .dropCount
      subject := .link (EntityId.unchecked (ascii "l"))
      provenance := { source := EntityId.unchecked (ascii "agent1"), authority := .measured }
      fence := { source := EntityId.unchecked (ascii "agent1"), boot := 1, incarnation := 1
                 sequence := 1 }
      clock := .collectorWallClock
      value := { unit := .packets, semantics := .deltaCounter }
      labels := [Name.unchecked (ascii "tor")]
      metadata := [(ascii "queue", ascii "0")] }
  { record with id := computeEvidenceId record }

/-- A content with a topology, an episode and a record, under the default policy. -/
def furnishedContent : SnapshotContent :=
  { emptyContent with
    topology := furnishedTopology, episodes := [lossEpisode], evidence := [lossRecord] }

theorem savable_furnishedContent : furnishedContent.Savable {} {} where
  policyDigest := rfl
  policyVersion := rfl
  built := builtUnder_furnishedTopology.built.1
  topology := ⟨by decide +kernel, by decide +kernel, by decide +kernel⟩
  topologyWithin := builtUnder_furnishedTopology.built.2
  episodes := by
    intro e he
    rw [List.mem_singleton.mp he]
    exact ⟨⟨Or.inr (by decide), by decide +kernel, rfl⟩, by constructor <;> decide +kernel⟩
  evidence := by
    intro r hr
    rw [List.mem_singleton.mp hr]
    exact ⟨⟨Or.inr (by decide), by decide +kernel, by decide +kernel, by decide +kernel,
      by decide +kernel⟩, by constructor <;> decide +kernel⟩

theorem prefixed_furnishedContent : furnishedContent.Prefixed {} where
  metadata := by decide +kernel
  topology := by constructor <;> decide +kernel
  episodeCount := by decide +kernel
  evidenceCount := by decide +kernel
  episodes := by
    intro e he
    rw [List.mem_singleton.mp (show e ∈ [lossEpisode] from he)]
    constructor <;> decide +kernel
  evidence := by
    intro r hr
    rw [List.mem_singleton.mp (show r ∈ [lossRecord] from hr)]
    constructor <;> decide +kernel

theorem fits_furnishedContent : furnishedContent.Fits {} where
  metadata := by decide +kernel
  topology := by
    unfold Topology.Fits
    decide +kernel
  episodes := by
    intro e he
    rw [List.mem_singleton.mp (show e ∈ [lossEpisode] from he)]
    unfold Episode.Fits
    decide +kernel
  evidence := by
    intro r hr
    rw [List.mem_singleton.mp (show r ∈ [lossRecord] from hr)]
    exact ⟨by decide +kernel, by decide +kernel⟩

/-- The default limits leave room for a topology with labels and flows, an episode and a record. -/
theorem load_after_save_furnished :
    ∃ report files, defaultStore.save {} furnishedContent {} = (.ok report, files) ∧
      (defaultStore.load {} files).outcome = .loadedPrimary := by
  have hok : (defaultStore.save {} furnishedContent {}).1.isOk = true := by decide +kernel
  cases hsave : defaultStore.save {} furnishedContent {} with
  | mk result files =>
      cases result with
      | error e =>
          rw [hsave] at hok
          cases hok
      | ok report =>
          have hfile : furnishedContent.FileFits defaultStore.limits := ⟨by decide +kernel, by decide⟩
          exact ⟨report, files, rfl, ((load_after_save_iff savable_furnishedContent hsave).1
            prefixed_furnishedContent).mpr ⟨hfile, fits_furnishedContent⟩⟩

/-- A store whose bound is the size of the payload of the empty content. -/
def tightStore : SnapshotStore :=
  { defaultStore with limits := { maxSnapshotBytes := 163 } }

/-- The payload is within the bound, so the save succeeds. The file is not, so the load refuses
it. -/
theorem tight_bound_refuses_saved :
    tightStore.limits.validate = .ok () ∧ emptyContent.Savable tightStore.limits {} ∧
      (tightStore.save {} emptyContent {}).1.isOk = true ∧
      (tightStore.load {} (tightStore.save {} emptyContent {}).2).outcome = .loadedNothing :=
  ⟨by decide, savable_emptyContent _, by decide +kernel, by decide +kernel⟩

end SnapshotStore

end CongestionObservatory
