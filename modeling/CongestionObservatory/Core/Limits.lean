import CongestionObservatory.Core.Hash

/-!
# `CongestionObservatory.Core.Limits`: the resource bounds

`Limits` (`core/limits.hpp`) bounds every growth vector of the runtime. `validate` checks the
bounds against each other, and `digest` ties a snapshot to the bounds it was written under.
-/

set_option autoImplicit false

namespace CongestionObservatory

/-- `Limits`, with the defaults of the source. -/
structure Limits where
  maxSources : Nat := 512
  maxRetainedEvidence : Nat := 200000
  maxEvidencePerSubject : Nat := 8192
  maxMetadataEntries : Nat := 16
  maxMetadataKeyBytes : Nat := 48
  maxMetadataValueBytes : Nat := 128
  maxNoteBytes : Nat := 256
  maxLabels : Nat := 16
  maxFrameBytes : Nat := 1048576
  maxJsonDepth : Nat := 32
  maxJsonNodes : Nat := 100000
  maxDocumentBytes : Nat := 8388608
  maxNodes : Nat := 4096
  maxPorts : Nat := 16384
  maxLinks : Nat := 16384
  maxQueues : Nat := 65536
  maxBuffers : Nat := 16384
  maxPaths : Nat := 16384
  maxFlows : Nat := 65536
  maxPathHops : Nat := 64
  maxPortsPerNode : Nat := 512
  maxWindowRecords : Nat := 8192
  maxCitations : Nat := 64
  maxExplanationSteps : Nat := 128
  maxResultCandidates : Nat := 16
  maxLocalizationDepth : Nat := 8
  maxGraphNodes : Nat := 8192
  maxGraphEdges : Nat := 32768
  maxBlockers : Nat := 32
  maxEpisodes : Nat := 4096
  maxEpisodeAssessments : Nat := 64
  maxEpisodeTransitions : Nat := 512
  maxGroups : Nat := 1024
  maxGroupMembers : Nat := 64
  maxEpisodeFilterResults : Nat := 1024
  workerThreads : Nat := 2
  maxPendingTasks : Nat := 1024
  maxIngestQueueDepth : Nat := 4096
  maxSnapshotBytes : Nat := 67108864
  maxSnapshotSections : Nat := 32
  maxSnapshotEvidence : Nat := 100000
  maxSnapshotEpisodes : Nat := 4096
  deriving DecidableEq, Repr

namespace Limits

/-- `require_positive`. -/
def requirePositive (value : Nat) (name : String) : Status :=
  failIf (value = 0) (makeError .invalidArgument ("limit must be positive: " ++ name))

/-- The bounds that must be positive, with their names. -/
def positives (l : Limits) : List (Nat × String) :=
  [(l.maxSources, "max_sources"), (l.maxRetainedEvidence, "max_retained_evidence"),
   (l.maxEvidencePerSubject, "max_evidence_per_subject"),
   (l.maxMetadataKeyBytes, "max_metadata_key_bytes"),
   (l.maxMetadataValueBytes, "max_metadata_value_bytes"), (l.maxNoteBytes, "max_note_bytes"),
   (l.maxFrameBytes, "max_frame_bytes"), (l.maxJsonDepth, "max_json_depth"),
   (l.maxJsonNodes, "max_json_nodes"), (l.maxDocumentBytes, "max_document_bytes"),
   (l.maxNodes, "max_nodes"), (l.maxPorts, "max_ports"), (l.maxLinks, "max_links"),
   (l.maxQueues, "max_queues"), (l.maxBuffers, "max_buffers"), (l.maxPaths, "max_paths"),
   (l.maxFlows, "max_flows"), (l.maxPathHops, "max_path_hops"),
   (l.maxPortsPerNode, "max_ports_per_node"), (l.maxWindowRecords, "max_window_records"),
   (l.maxCitations, "max_citations"), (l.maxExplanationSteps, "max_explanation_steps"),
   (l.maxResultCandidates, "max_result_candidates"),
   (l.maxLocalizationDepth, "max_localization_depth"), (l.maxGraphNodes, "max_graph_nodes"),
   (l.maxGraphEdges, "max_graph_edges"), (l.maxBlockers, "max_blockers"),
   (l.maxEpisodes, "max_episodes"), (l.maxEpisodeAssessments, "max_episode_assessments"),
   (l.maxEpisodeTransitions, "max_episode_transitions"), (l.maxGroups, "max_groups"),
   (l.maxGroupMembers, "max_group_members"),
   (l.maxEpisodeFilterResults, "max_episode_filter_results"),
   (l.maxPendingTasks, "max_pending_tasks"), (l.maxIngestQueueDepth, "max_ingest_queue_depth"),
   (l.maxSnapshotBytes, "max_snapshot_bytes"), (l.maxSnapshotSections, "max_snapshot_sections"),
   (l.maxSnapshotEvidence, "max_snapshot_evidence"),
   (l.maxSnapshotEpisodes, "max_snapshot_episodes")]

/-- `Limits::validate`. -/
def validate (l : Limits) : Status := do
  failIf (l.workerThreads > 64)
    (makeError .outOfRange "worker_threads exceeds the supported maximum"
      (ascii "worker_threads=" ++ decimal l.workerThreads))
  checkAll (fun bound => requirePositive bound.1 bound.2) l.positives
  failIf (l.maxEvidencePerSubject > l.maxRetainedEvidence)
    (makeError .invalidArgument "max_evidence_per_subject exceeds max_retained_evidence")
  failIf (l.maxWindowRecords > l.maxRetainedEvidence)
    (makeError .invalidArgument "max_window_records exceeds max_retained_evidence")
  failIf (l.maxGroupMembers > l.maxEpisodes)
    (makeError .invalidArgument "max_group_members exceeds max_episodes")
  failIf (l.maxSnapshotEpisodes > l.maxEpisodes)
    (makeError .invalidArgument "max_snapshot_episodes exceeds max_episodes")
  failIf (l.maxSnapshotEvidence > l.maxRetainedEvidence)
    (makeError .invalidArgument "max_snapshot_evidence exceeds max_retained_evidence")
  failIf (l.maxLocalizationDepth > 32)
    (makeError .outOfRange "max_localization_depth exceeds 32")

/-- The bounds in the order `digest` feeds them to the hasher. -/
def digestValues (l : Limits) : List Nat :=
  [l.maxSources, l.maxRetainedEvidence, l.maxEvidencePerSubject, l.maxMetadataEntries,
   l.maxMetadataKeyBytes, l.maxMetadataValueBytes, l.maxNoteBytes, l.maxLabels, l.maxFrameBytes,
   l.maxJsonDepth, l.maxJsonNodes, l.maxDocumentBytes, l.maxNodes, l.maxPorts, l.maxLinks,
   l.maxQueues, l.maxBuffers, l.maxPaths, l.maxFlows, l.maxPathHops, l.maxPortsPerNode,
   l.maxWindowRecords, l.maxCitations, l.maxExplanationSteps, l.maxResultCandidates,
   l.maxLocalizationDepth, l.maxGraphNodes, l.maxGraphEdges, l.maxBlockers, l.maxEpisodes,
   l.maxEpisodeAssessments, l.maxEpisodeTransitions, l.maxGroups, l.maxGroupMembers,
   l.maxEpisodeFilterResults, l.workerThreads, l.maxPendingTasks, l.maxIngestQueueDepth,
   l.maxSnapshotBytes, l.maxSnapshotSections, l.maxSnapshotEvidence, l.maxSnapshotEpisodes]

/-- `Limits::digest`. -/
def digest (l : Limits) : UInt64 :=
  (l.digestValues.foldl (fun hasher value => hasher.updateU64 (UInt64.ofNat value))
    ({} : StableHasher)).digest64

/-- Every bound of the positive table is positive in validated limits. -/
theorem pos_of_validate {l : Limits} (h : l.validate = .ok ()) :
    ∀ bound ∈ l.positives, 0 < bound.1 := by
  unfold validate at h
  simp only [seq_eq_ok, checkAll_eq_ok, requirePositive, failIf_eq_ok] at h
  obtain ⟨-, hpos, -⟩ := h
  intro bound hbound
  exact Nat.pos_of_ne_zero (hpos bound hbound)

end Limits

end CongestionObservatory
