import CongestionObservatory.Evidence.Evidence

/-!
# `CongestionObservatory.Evidence.Names`: the texts of the enumerations

`to_string` gives an enumerator its text and a `..._from_string` finds the enumerator with a text.
Where an enumeration has both, one table of pairs is behind them: `nameOf` looks a value up and
`fromName` looks a text up. A value without an enumerator gets the fallback of its `to_string`.
-/

set_option autoImplicit false

namespace CongestionObservatory

section Tables

variable {α : Type} [DecidableEq α]

/-- The enumerators with their texts. -/
abbrev NameTable (α : Type) : Type := List (α × String)

/-- `lookup_enum`. -/
def nameOf (table : NameTable α) (fallback : String) (value : α) : Text :=
  ascii (((table.find? fun entry => entry.1 = value).map Prod.snd).getD fallback)

/-- The shape of every `..._from_string`. -/
def fromName {α : Type} (table : NameTable α) (message : String) (text : Text) : Result α :=
  match table.find? fun entry => text = ascii entry.2 with
  | some entry => .ok entry.1
  | none => .error (makeError .invalidArgument message text)

/-- Where no text is there twice, a name is read back. -/
theorem fromName_nameOf {table : NameTable α} {fallback message : String}
    (hnodup : (table.map fun entry => ascii entry.2).Nodup) {value : α}
    (hmem : value ∈ table.map Prod.fst) :
    fromName table message (nameOf table fallback value) = .ok value := by
  obtain ⟨entry, hentry⟩ : ∃ entry, table.find? (fun entry => entry.1 = value) = some entry := by
    obtain ⟨found, hfound, hvalue⟩ := List.mem_map.mp hmem
    exact Option.isSome_iff_exists.mp (List.find?_isSome.mpr ⟨found, hfound, by simpa using hvalue⟩)
  have hvalue : entry.1 = value := by simpa using List.find?_some hentry
  have hself := List.mem_of_find?_eq_some hentry
  have hname : nameOf table fallback value = ascii entry.2 := by rw [nameOf, hentry]; rfl
  rw [hname, fromName]
  cases hback : table.find? (fun other => ascii entry.2 = ascii other.2) with
  | none => exact absurd (List.find?_eq_none.mp hback entry hself) (by simp)
  | some other =>
      have htext : ascii entry.2 = ascii other.2 := by simpa using List.find?_some hback
      have hsame := List.inj_on_of_nodup_map hnodup hself (List.mem_of_find?_eq_some hback) htext
      show Except.ok other.1 = Except.ok value
      rw [← hsame, hvalue]

end Tables

/-! ### Evidence -/

/-- The kinds and names of `kKindTable`. -/
def kKindTable : NameTable EvidenceKind :=
  [(.unknown, "unknown"), (.linkUtilization, "link_utilization"),
    (.portUtilization, "port_utilization"), (.queueOccupancy, "queue_occupancy"),
    (.queueDepth, "queue_depth"), (.bufferOccupancy, "buffer_occupancy"),
    (.dropCount, "drop_count"), (.markCount, "mark_count"), (.pauseCount, "pause_count"),
    (.pauseDuration, "pause_duration"), (.latencySample, "latency_sample"),
    (.offeredDemand, "offered_demand"), (.achievedThroughput, "achieved_throughput"),
    (.activeFlowCount, "active_flow_count"), (.activeClassCount, "active_class_count"),
    (.operState, "oper_state"), (.sourceHeartbeat, "source_heartbeat"),
    (.topologyAdvertisement, "topology_advertisement"),
    (.capacityAdvertisement, "capacity_advertisement"), (.retransmitCount, "retransmit_count")]

/-- `to_string(EvidenceKind)`. -/
def EvidenceKind.toText (kind : EvidenceKind) : Text := nameOf kKindTable "unknown" kind

/-- `evidence_kind_from_string`. -/
def evidenceKindFromString (text : Text) : Result EvidenceKind :=
  fromName kKindTable "unknown evidence kind" text

/-- `kUnitTable`. -/
def kUnitTable : NameTable ObservationUnit :=
  [(.unknown, "unknown"), (.ratio, "ratio"), (.cells, "cells"), (.packets, "packets"),
    (.bytes, "bytes"), (.nanoseconds, "nanoseconds"), (.bitsPerSecond, "bps"), (.count, "count"),
    (.boolean, "boolean"), (.frames, "frames")]

/-- `to_string(ObservationUnit)`. -/
def ObservationUnit.toText (unit : ObservationUnit) : Text := nameOf kUnitTable "unknown" unit

/-- `observation_unit_from_string`. -/
def observationUnitFromString (text : Text) : Result ObservationUnit :=
  fromName kUnitTable "unknown observation unit" text

/-- `kSemanticsTable`. -/
def kSemanticsTable : NameTable ValueSemantics :=
  [(.unknown, "unknown"), (.gauge, "gauge"), (.cumulativeCounter, "cumulative_counter"),
    (.deltaCounter, "delta_counter"), (.rate, "rate")]

/-- `to_string(ValueSemantics)`. -/
def ValueSemantics.toText (semantics : ValueSemantics) : Text :=
  nameOf kSemanticsTable "unknown" semantics

/-- `value_semantics_from_string`. -/
def valueSemanticsFromString (text : Text) : Result ValueSemantics :=
  fromName kSemanticsTable "unknown value semantics" text

/-- The texts of `Support`. -/
def supportNames : NameTable Support :=
  [(.supported, "supported"), (.unsupported, "unsupported"), (.unknown, "unknown")]

/-- `to_string(Support)`. -/
def Support.toText (support : Support) : Text := nameOf supportNames "unknown" support

/-- `support_from_string`. -/
def supportFromString (text : Text) : Result Support :=
  fromName supportNames "unknown support value" text

/-- The texts of `Completeness`. -/
def completenessNames : NameTable Completeness :=
  [(.complete, "complete"), (.partially, "partial"), (.incomplete, "incomplete"),
    (.unknown, "unknown")]

/-- `to_string(Completeness)`. -/
def Completeness.toText (completeness : Completeness) : Text :=
  nameOf completenessNames "unknown" completeness

/-- `completeness_from_string`. -/
def completenessFromString (text : Text) : Result Completeness :=
  fromName completenessNames "unknown completeness value" text

/-- `to_string(Freshness)`. -/
def Freshness.toText : Freshness → Text
  | .fresh => ascii "fresh"
  | .aging => ascii "aging"
  | .stale => ascii "stale"
  | .expired => ascii "expired"
  | .unknown => ascii "unknown"

/-! ### Sources and clocks -/

/-- The texts of `AuthorityLevel`. -/
def authorityNames : NameTable AuthorityLevel :=
  [(.unknown, "unknown"), (.unverified, "unverified"), (.reported, "reported"),
    (.measured, "measured"), (.corroborated, "corroborated")]

theorem AuthorityLevel.toText_eq (level : AuthorityLevel) :
    level.toText = nameOf authorityNames "unknown" level := by
  cases level <;> rfl

/-- `authority_from_string`. -/
def authorityFromString (text : Text) : Result AuthorityLevel :=
  fromName authorityNames "unknown authority level" text

/-- The texts of `ClockDomain`. -/
def clockDomainNames : NameTable ClockDomain :=
  [(.unknown, "unknown"), (.sourceMonotonic, "source_monotonic"),
    (.sourceWallClock, "source_wall_clock"), (.collectorMonotonic, "collector_monotonic"),
    (.collectorWallClock, "collector_wall_clock")]

/-- `to_string(ClockDomain)`. -/
def ClockDomain.toText (domain : ClockDomain) : Text := nameOf clockDomainNames "unknown" domain

/-- `clock_domain_from_string`. -/
def clockDomainFromString (text : Text) : Result ClockDomain :=
  fromName clockDomainNames "unknown clock domain" text

/-- `to_string(FenceDecision)`. -/
def FenceDecision.toText : FenceDecision → Text
  | .acceptedFirstObservation => ascii "accepted_first_observation"
  | .acceptedInOrder => ascii "accepted_in_order"
  | .acceptedGapDetected => ascii "accepted_gap_detected"
  | .acceptedReboot => ascii "accepted_reboot"
  | .acceptedEpochAdvance => ascii "accepted_epoch_advance"
  | .acceptedGenerationAdvance => ascii "accepted_generation_advance"
  | .rejectedUnknownSource => ascii "rejected_unknown_source"
  | .rejectedStaleEpoch => ascii "rejected_stale_epoch"
  | .rejectedStaleGeneration => ascii "rejected_stale_generation"
  | .rejectedStaleRevision => ascii "rejected_stale_revision"
  | .rejectedIncomparableGeneration => ascii "rejected_incomparable_generation"
  | .rejectedReplayedSequence => ascii "rejected_replayed_sequence"
  | .rejectedStaleIncarnation => ascii "rejected_stale_incarnation"
  | .rejectedAuthorityTooLow => ascii "rejected_authority_too_low"
  | .rejectedInconsistentBoot => ascii "rejected_inconsistent_boot"

/-! ### Errors -/

/-- `to_string(ErrorCode)`. -/
def ErrorCode.toText : ErrorCode → Text
  | .ok => ascii "ok"
  | .invalidArgument => ascii "invalid_argument"
  | .outOfRange => ascii "out_of_range"
  | .limitExceeded => ascii "limit_exceeded"
  | .arithmeticOverflow => ascii "arithmetic_overflow"
  | .notFound => ascii "not_found"
  | .alreadyExists => ascii "already_exists"
  | .conflict => ascii "conflict"
  | .staleEpoch => ascii "stale_epoch"
  | .staleGeneration => ascii "stale_generation"
  | .staleRevision => ascii "stale_revision"
  | .replayedSequence => ascii "replayed_sequence"
  | .incarnationChanged => ascii "incarnation_changed"
  | .authorityTooLow => ascii "authority_too_low"
  | .unsupported => ascii "unsupported"
  | .incomplete => ascii "incomplete"
  | .conflictingEvidence => ascii "conflicting_evidence"
  | .integrityFailure => ascii "integrity_failure"
  | .versionMismatch => ascii "version_mismatch"
  | .ioError => ascii "io_error"
  | .cancelled => ascii "cancelled"
  | .shuttingDown => ascii "shutting_down"
  | .queueFull => ascii "queue_full"
  | .protocolError => ascii "protocol_error"
  | .unauthorized => ascii "unauthorized"
  | .preconditionFailed => ascii "precondition_failed"
  | .internal => ascii "internal"

end CongestionObservatory
