import CongestionObservatory.Evidence.Evidence
import CongestionObservatory.Model.Topology
import CongestionObservatory.Lib.Run

/-!
# `CongestionObservatory.Evidence.Store`: the bounded evidence store

`EvidenceStore` (`evidence/store.hpp`) owns fencing, retention and bounded growth. It keeps its
records twice: per subject in insertion order, and in a global index from insertion number to
subject. The model passes the state explicitly: an operation gives its result and the next
state. Calls are serialised by the store's mutex, so a run is a list of calls.

Insertion numbers, the retained count and the statistics count calls made in this process, and
are natural numbers.
-/

set_option autoImplicit false

namespace CongestionObservatory

open Lib

/-- `IngestPolicy`. -/
structure IngestPolicy where
  minimumAuthority : AuthorityLevel := .unknown
  requireKnownSubject : Bool := true
  requireIncarnation : Bool := true
  rejectUnknownClock : Bool := false
  freshness : FreshnessPolicy := {}
  deriving DecidableEq

/-- `IngestOutcome`. -/
structure IngestOutcome where
  id : EvidenceId := DigestId.default
  stored : Bool := false
  fence : FenceDecision := .rejectedUnknownSource
  detail : Text := []
  freshness : Freshness := .unknown
  livenessReset : Bool := false
  sequenceGap : Bool := false
  evicted : Nat := 0
  deriving DecidableEq

/-- `EvidenceQuery`. An absent subject or kind matches all of them. -/
structure EvidenceQuery where
  subject : Option EvidenceSubject := none
  kind : Option EvidenceKind := none
  windowStart : Timestamp := Timestamp.zero
  windowEnd : Timestamp := Timestamp.zero
  maxRecords : Nat := 1024
  includeRecovered : Bool := true
  includeNonLive : Bool := true
  newestFirst : Bool := false
  deriving DecidableEq

/-- The counters of `StoreStats` the store itself bumps. -/
structure StoreStats where
  accepted : Nat := 0
  rejectedFence : Nat := 0
  rejectedInvalid : Nat := 0
  rejectedUnknownSubject : Nat := 0
  evicted : Nat := 0
  retentionSweeps : Nat := 0
  deriving DecidableEq

/-- What a record is known to keep when it is move-assigned to itself: its numbers and flags.
Its strings and vectors are left valid but unspecified. -/
def EvidenceRecord.withoutOwnedMembers (r : EvidenceRecord) : EvidenceRecord :=
  { r with
    subject := .none
    provenance := { authority := r.provenance.authority }
    fence := { r.fence with source := EntityId.default }
    labels := []
    metadata := []
    note := [] }

/-- The effect of `record = std::move(record)` on one object. -/
structure SelfMove where
  apply : EvidenceRecord → EvidenceRecord
  keeps : ∀ r, (apply r).withoutOwnedMembers = r.withoutOwnedMembers

/-- A self-move that leaves the record as it is. -/
def SelfMove.transfer : SelfMove := ⟨id, fun _ => rfl⟩

/-- `EvidenceStore`. -/
structure EvidenceStore where
  limits : Limits
  bySubject : OrdMap Name (List EvidenceRecord) := OrdMap.empty
  insertionOrder : OrdMap Nat Name := OrdMap.empty
  sources : OrdMap Name SourceFenceState := OrdMap.empty
  nextInsertionIndex : Nat := 1
  retained : Nat := 0
  stats : StoreStats := {}
  deriving DecidableEq

namespace EvidenceStore

/-- `by_subject_[key]`, empty when there is no entry. -/
def bucket (s : EvidenceStore) (key : Name) : List EvidenceRecord := (s.bySubject.find? key).getD []

/-- All retained records, bucket by bucket. -/
def records (s : EvidenceStore) : List EvidenceRecord := s.bySubject.values.flatten

/-- The first half of `admit_locked`: when the store is full, the record with the smallest
insertion index goes. The result counts the evictions. -/
def evictOldest (s : EvidenceStore) : Nat × EvidenceStore :=
  if s.retained ≥ s.limits.maxRetainedEvidence then
    match s.insertionOrder.front? with
    | none => (0, s)
    | some (index, key) =>
      (1, { s with
        bySubject := s.bySubject.insert key (s.bucket key).tail
        insertionOrder := s.insertionOrder.erase index
        retained := s.retained - 1
        stats := { s.stats with evicted := s.stats.evicted + 1 } })
  else (0, s)

/-- The second half: when the subject's bucket is full, its front record goes. The lookup
creates the bucket. -/
def evictFromSubject (s : EvidenceStore) (key : Name) : Nat × EvidenceStore :=
  match s.bucket key with
  | front :: rest =>
    if (front :: rest).length ≥ s.limits.maxEvidencePerSubject then
      (1, { s with
        bySubject := s.bySubject.insert key rest
        insertionOrder := s.insertionOrder.erase front.insertionIndex
        retained := s.retained - 1
        stats := { s.stats with evicted := s.stats.evicted + 1 } })
    else (0, s)
  | [] => (0, { s with bySubject := s.bySubject.insert key [] })

/-- The record as it is stored. -/
def stamp (s : EvidenceStore) (record : EvidenceRecord) (recovered : Bool) : EvidenceRecord :=
  { record with
    id := computeEvidenceId record
    insertionIndex := s.nextInsertionIndex
    recoveredFromSnapshot := record.recoveredFromSnapshot || recovered }

/-- The end of `admit_locked`: the record joins its bucket and the global index. -/
def append (s : EvidenceStore) (key : Name) (stored : EvidenceRecord) : EvidenceStore :=
  { s with
    bySubject := s.bySubject.insert key (s.bucket key ++ [stored])
    insertionOrder := s.insertionOrder.emplace stored.insertionIndex key
    retained := s.retained + 1 }

/-- `EvidenceStore::admit_locked`: the number of evicted records and the next state. -/
def admitLocked (s : EvidenceStore) (record : EvidenceRecord) (recovered : Bool) :
    Result (Nat × EvidenceStore) :=
  let key := Name.unchecked record.subject.str
  if !key.valid then
    .error (makeError .invalidArgument "evidence subject is not a canonical name"
      record.subject.str)
  else
    let stored := s.stamp record recovered
    let s := { s with nextInsertionIndex := s.nextInsertionIndex + 1 }
    let (evictedGlobally, s) := s.evictOldest
    let (evictedLocally, s) := s.evictFromSubject key
    .ok (evictedGlobally + evictedLocally, s.append key stored)

/-- The loop of `ingest` after a reboot: every record of the source is retired. -/
def retireSource (s : EvidenceStore) (source : Name) : EvidenceStore :=
  { s with
    bySubject := s.bySubject.mapValues (fun _ bucket => bucket.map (fun existing =>
      if existing.provenance.source.name = source then { existing with retired := true }
      else existing)) }

/-- A fence outcome that resets the liveness of the source retires its records. -/
def retireOnReset (s : EvidenceStore) (fence : FenceOutcome) (source : Name) : EvidenceStore :=
  if fence.livenessReset then s.retireSource source else s

/-- `sources_[key]`, the default state when there is none. -/
def sourceState (s : EvidenceStore) (key : Name) : SourceFenceState := (s.sources.find? key).getD {}

/-- Another rejected record is counted as invalid. -/
def countInvalid (s : EvidenceStore) : EvidenceStore :=
  { s with stats := { s.stats with rejectedInvalid := s.stats.rejectedInvalid + 1 } }

/-- The part of `ingest` after the fence accepted the record. -/
def ingestAccepted (s : EvidenceStore) (record : EvidenceRecord) (now : Timestamp)
    (policy : IngestPolicy) (fence : FenceOutcome) (outcome : IngestOutcome) :
    Result IngestOutcome × EvidenceStore :=
  let sourceKey := record.provenance.source.name
  let s := s.retireOnReset fence sourceKey
  match s.admitLocked record false with
  | .error e => (.error e, s)
  | .ok (evicted, s) =>
    let state := s.sourceState sourceKey
    (.ok { outcome with
        evicted := evicted
        stored := true
        freshness := (assessFreshness record now policy.freshness).freshness },
     { s with
       sources := s.sources.insert sourceKey
         { state with
           source := record.provenance.source
           last := record.fence
           lastSeen := now
           lastAuthority := record.provenance.authority
           live := true
           hasState := true
           accepted := state.accepted + 1 }
       stats := { s.stats with accepted := s.stats.accepted + 1 } })

/-- The part of `ingest` under the lock: the source limit, the fence and the admission. -/
def ingestLocked (s : EvidenceStore) (record : EvidenceRecord) (now : Timestamp)
    (policy : IngestPolicy) : Result IngestOutcome × EvidenceStore :=
  let sourceKey := record.provenance.source.name
  if !s.sources.contains sourceKey && decide (s.sources.size ≥ s.limits.maxSources) then
    (.error (makeError .limitExceeded "source limit reached" sourceKey.str), s.countInvalid)
  else
    let previous := s.sourceState sourceKey
    let fence := evaluateFence record.fence record.provenance.authority policy.minimumAuthority
      previous
    let outcome : IngestOutcome :=
      { id := computeEvidenceId record
        fence := fence.decision
        detail := fence.detail
        livenessReset := fence.livenessReset
        sequenceGap := fence.sequenceGap }
    if !fence.accepted then
      (.ok outcome,
       { s with
         sources := s.sources.insert sourceKey
           { previous with
             source := record.provenance.source, rejected := previous.rejected + 1 }
         stats := { s.stats with rejectedFence := s.stats.rejectedFence + 1 } })
    else s.ingestAccepted record now policy fence outcome

/-- `EvidenceStore::ingest`. -/
def ingest (s : EvidenceStore) (record : EvidenceRecord) (now : Timestamp) (policy : IngestPolicy)
    (topology : Option Topology) : Result IngestOutcome × EvidenceStore :=
  match validateEvidence record s.limits with
  | .error e => (.error e, s.countInvalid)
  | .ok () =>
    let present : Status := match topology with
      | some t => if policy.requireKnownSubject then t.require record.subject else .ok ()
      | none => .ok ()
    match present with
    | .error e =>
      (.error e, { s with stats := { s.stats with
        rejectedUnknownSubject := s.stats.rejectedUnknownSubject + 1 } })
    | .ok () =>
      if policy.requireIncarnation && record.fence.incarnation == 0 then
        (.error (makeError .invalidArgument "evidence carries no source incarnation"
          record.provenance.source.str), s.countInvalid)
      else s.ingestLocked record now policy

/-- A recovered source is known but not live: nothing was heard from it in this process. -/
def knowSource (s : EvidenceStore) (source : SourceId) : EvidenceStore :=
  { s with sources := s.sources.emplace source.name { source := source } }

/-- `EvidenceStore::ingest_recovered`. The fence is bypassed, and the source becomes known
without a fence state. -/
def ingestRecovered (s : EvidenceStore) (record : EvidenceRecord) :
    Result IngestOutcome × EvidenceStore :=
  match validateEvidence record s.limits with
  | .error e => (.error e, s.countInvalid)
  | .ok () =>
    let sourceKey := record.provenance.source.name
    if !s.sources.contains sourceKey && decide (s.sources.size ≥ s.limits.maxSources) then
      (.error (makeError .limitExceeded "source limit reached" sourceKey.str), s.countInvalid)
    else
      let s := s.knowSource record.provenance.source
      match s.admitLocked record true with
      | .error e => (.error e, s)
      | .ok (evicted, s) =>
        (.ok
          { id := computeEvidenceId record
            stored := true
            fence := .acceptedFirstObservation
            detail := ascii "recovered from snapshot"
            freshness := .unknown
            evicted := evicted }, s)

/-- The variables the loops of `sweep` thread through the buckets. -/
structure SweepState where
  insertionOrder : OrdMap Nat Name
  retained : Nat
  removed : Nat
  token : CancellationToken
  cancelled : Bool

/-- The inner loop of `sweep` over one bucket. The records kept are moved to the front of the
bucket: until one is removed (`shifted`) the target of the move is the record itself. When the
budget is used up or the token is cancelled, the rest of the bucket is moved the same way. -/
def sweepBucket (move : SelfMove) (horizon : Timestamp) (maxRecords : Nat) :
    Bool → SweepState → List EvidenceRecord → SweepState × List EvidenceRecord
  | _, st, [] => (st, [])
  | shifted, st, r :: rest =>
    let keep (record : EvidenceRecord) := if shifted then record else move.apply record
    if st.removed ≥ maxRecords then (st, (r :: rest).map keep)
    else
      let (cancelled, token) := st.token.cancelled
      let st := { st with token := token }
      if cancelled then ({ st with cancelled := true }, (r :: rest).map keep)
      else if r.observedAt < horizon then
        sweepBucket move horizon maxRecords true
          { st with
            insertionOrder := st.insertionOrder.erase r.insertionIndex
            retained := st.retained - 1
            removed := st.removed + 1 } rest
      else
        let (st, rest) := sweepBucket move horizon maxRecords shifted st rest
        (st, keep r :: rest)

/-- The outer loop of `sweep`, which a cancellation ends. -/
def sweepLoop (s : EvidenceStore) (move : SelfMove) (horizon : Timestamp) (maxRecords : Nat)
    (token : CancellationToken) : SweepState × OrdMap Name (List EvidenceRecord) :=
  s.bySubject.mapAccum
    (fun st _ bucket =>
      if st.cancelled then (st, bucket)
      else sweepBucket move horizon maxRecords false st bucket)
    { insertionOrder := s.insertionOrder, retained := s.retained, removed := 0
      token := token, cancelled := false }

/-- `EvidenceStore::sweep`. -/
def sweep (s : EvidenceStore) (move : SelfMove) (horizon : Timestamp) (maxRecords : Nat)
    (token : CancellationToken) : Result Nat × EvidenceStore :=
  if maxRecords = 0 then (.ok 0, s)
  else
    let (cancelled, token) := token.cancelled
    if cancelled then (.error (makeError .cancelled "retention sweep cancelled"), s)
    else
      let (st, bySubject) := s.sweepLoop move horizon maxRecords token
      let s := { s with
        bySubject := bySubject
        insertionOrder := st.insertionOrder
        retained := st.retained
        stats := { s.stats with retentionSweeps := s.stats.retentionSweeps + 1 } }
      if st.cancelled then (.error (makeError .cancelled "retention sweep cancelled"), s)
      else (.ok st.removed, s)

/-- `EvidenceStore::reset_liveness`. -/
def resetLiveness (s : EvidenceStore) : EvidenceStore :=
  { s with sources := s.sources.mapValues (fun _ state => { state with live := false }) }

/-- The filter of `query`. -/
def considers (query : EvidenceQuery) (record : EvidenceRecord) : Bool :=
  let unboundedWindow := query.windowStart.isZero && query.windowEnd.isZero
  (query.kind == none || query.kind == some record.kind)
    && (unboundedWindow
      || !(decide (record.observedAt < query.windowStart)
        || decide (record.observedAt > query.windowEnd)))
    && (query.includeRecovered || !record.recoveredFromSnapshot)
    && (query.includeNonLive || !(record.retired || record.recoveredFromSnapshot))

/-- What `sort_records` compares. -/
def querySortKey (r : EvidenceRecord) : Timestamp ×ₗ Nat ×ₗ EvidenceId :=
  toLex (r.observedAt, toLex (r.insertionIndex, r.id))

/-- `EvidenceStore::query`. The budget counts matches in bucket order, before the sort. -/
def query (s : EvidenceStore) (query : EvidenceQuery) : List EvidenceRecord :=
  let candidates := match query.subject with
    | some subject => s.bucket (Name.unchecked subject.str)
    | none => s.records
  let out := (candidates.filter (considers query)).take query.maxRecords
  let sorted := out.insertionSort (fun a b => querySortKey a ≤ querySortKey b)
  if query.newestFirst then sorted.reverse else sorted

/-! ### Runs -/

/-- A call on the store. -/
inductive Call where
  | ingest (record : EvidenceRecord) (now : Timestamp) (policy : IngestPolicy)
      (topology : Option Topology)
  | ingestRecovered (record : EvidenceRecord)
  | sweep (move : SelfMove) (horizon : Timestamp) (maxRecords : Nat) (token : CancellationToken)
  | resetLiveness

/-- What a call returns. -/
inductive Reply where
  | admitted (result : Result IngestOutcome)
  | swept (result : Result Nat)
  | done

/-- One call. -/
def step (s : EvidenceStore) : Call → Reply × EvidenceStore
  | .ingest record now policy topology =>
    let (result, s) := s.ingest record now policy topology
    (.admitted result, s)
  | .ingestRecovered record =>
    let (result, s) := s.ingestRecovered record
    (.admitted result, s)
  | .sweep move horizon maxRecords token =>
    let (result, s) := s.sweep move horizon maxRecords token
    (.swept result, s)
  | .resetLiveness => (.done, s.resetLiveness)

end EvidenceStore

end CongestionObservatory
