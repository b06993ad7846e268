import CongestionObservatory.Proofs.Evidence.StoreCases
import CongestionObservatory.Proofs.Model.Names
import CongestionObservatory.Proofs.Model.Topology

/-!
# `CongestionObservatory.Proofs.Evidence.Admission`: the last check of an admission

The store files a record under the rendering of its subject, and checks that the rendering is a
canonical name when everything else is done. A name may have 96 bytes and the kind is put before
it, so an object with a long name passes every check but this one.

Two things follow. Evidence about an object of an admitted topology is stored exactly when the
rendering of the object has at most 96 bytes. And the check comes after the store has been
changed: `ingest` has retired the records of a source that rebooted, `ingest_recovered` has written
a new source. Both return an error and keep these changes.
-/

set_option autoImplicit false

namespace CongestionObservatory

open Lib

namespace EvidenceStore

/-! ### Errors -/

/-- Nothing but the counters of rejected records differs. -/
structure SameContent (s s' : EvidenceStore) : Prop where
  limits : s'.limits = s.limits
  bySubject : s'.bySubject = s.bySubject
  insertionOrder : s'.insertionOrder = s.insertionOrder
  sources : s'.sources = s.sources
  nextInsertionIndex : s'.nextInsertionIndex = s.nextInsertionIndex
  retained : s'.retained = s.retained
  accepted : s'.stats.accepted = s.stats.accepted
  evicted : s'.stats.evicted = s.stats.evicted
  retentionSweeps : s'.stats.retentionSweeps = s.stats.retentionSweeps

theorem SameContent.refl (s : EvidenceStore) : SameContent s s :=
  ⟨rfl, rfl, rfl, rfl, rfl, rfl, rfl, rfl, rfl⟩

theorem SameContent.countInvalid (s : EvidenceStore) : SameContent s s.countInvalid :=
  ⟨rfl, rfl, rfl, rfl, rfl, rfl, rfl, rfl, rfl⟩

/-- The record gets as far as the fence: it is valid, its subject is known where that is asked for,
it has an incarnation where that is asked for, and there is room for its source. -/
structure ReachesFence (s : EvidenceStore) (record : EvidenceRecord) (policy : IngestPolicy)
    (topology : Option Topology) : Prop where
  valid : validateEvidence record s.limits = .ok ()
  present : ∀ t, topology = some t → policy.requireKnownSubject = true →
    t.require record.subject = .ok ()
  incarnation : policy.requireIncarnation = true → record.fence.incarnation ≠ 0
  room : s.SourceRoom record.provenance.source.name

/-- The rendering of the subject is a canonical name. -/
def Named (record : EvidenceRecord) : Prop := (Name.unchecked record.subject.str).valid = true

section

variable (s : EvidenceStore) (record : EvidenceRecord) (now : Timestamp) (policy : IngestPolicy)
  (topology : Option Topology)

theorem sourceRoom_iff_not_full (key : Name) :
    s.SourceRoom key ↔
      ¬ (!s.sources.contains key && decide (s.sources.size ≥ s.limits.maxSources)) = true := by
  unfold SourceRoom
  cases s.sources.contains key <;> simp

/-- A record that does not get to the fence only changes a counter. -/
theorem ingest_of_not_reaches (h : ¬ s.ReachesFence record policy topology) :
    SameContent s (s.ingest record now policy topology).2 := by
  unfold ingest
  cases hvalid : validateEvidence record s.limits with
  | error e => exact SameContent.countInvalid s
  | ok _ =>
      dsimp only
      split
      · exact ⟨rfl, rfl, rfl, rfl, rfl, rfl, rfl, rfl, rfl⟩
      · next hpresent =>
          split
          · exact SameContent.countInvalid s
          · next hincarnation =>
              unfold ingestLocked
              dsimp only
              split
              · exact SameContent.countInvalid s
              · next hroom =>
                  -- Every check has passed, so the record does get there.
                  refine absurd ⟨hvalid, ?_, ?_, (sourceRoom_iff_not_full s _).mpr hroom⟩ h
                  · rintro t rfl hknown
                    rw [hknown] at hpresent
                    simpa using hpresent
                  · intro hrequired hzero
                    simp [hrequired, hzero] at hincarnation

/-- A record that gets to the fence is rejected there, refused for its name after the records of
its source were retired, or stored. -/
theorem ingest_of_reaches (h : s.ReachesFence record policy topology) :
    ((s.fenceOf record policy).accepted = false ∧ ∃ outcome s',
      s.ingest record now policy topology = (.ok outcome, s') ∧ outcome.stored = false) ∨
    ((s.fenceOf record policy).accepted = true ∧ ¬ Named record ∧ ∃ e,
      s.ingest record now policy topology
        = (.error e, s.retireOnReset (s.fenceOf record policy) record.provenance.source.name)) ∨
    ((s.fenceOf record policy).accepted = true ∧ Named record ∧ ∃ outcome s',
      s.ingest record now policy topology = (.ok outcome, s') ∧ outcome.stored = true) := by
  -- The checks in front of the lock are passed.
  have hlocked : s.ingest record now policy topology = s.ingestLocked record now policy := by
    have hincarnation : (policy.requireIncarnation && record.fence.incarnation == 0) = false := by
      cases hrequired : policy.requireIncarnation with
      | false => rfl
      | true => simp [h.incarnation hrequired]
    unfold ingest
    rw [h.valid]
    cases topology with
    | none => simp [hincarnation]
    | some t =>
        cases hknown : policy.requireKnownSubject with
        | false => simp [hincarnation]
        | true => simp [h.present t rfl hknown, hincarnation]
  rw [hlocked]
  unfold ingestLocked
  dsimp only
  rw [if_neg ((sourceRoom_iff_not_full s _).mp h.room)]
  cases haccepted : (s.fenceOf record policy).accepted with
  | false =>
      left
      rw [if_pos (by rw [← fenceOf, haccepted]; rfl)]
      exact ⟨rfl, _, _, rfl, rfl⟩
  | true =>
      right
      rw [if_neg (by rw [← fenceOf, haccepted]; decide), ← fenceOf]
      unfold ingestAccepted
      dsimp only
      unfold Named admitLocked
      dsimp only
      cases (Name.unchecked record.subject.str).valid with
      | false => exact Or.inl ⟨rfl, by decide, _, rfl⟩
      | true => exact Or.inr ⟨rfl, rfl, _, _, rfl, rfl⟩

/-- Retiring the records of a source changes nothing exactly when they are all retired. -/
theorem retireSource_bySubject_eq_iff (source : Name) :
    (s.retireSource source).bySubject = s.bySubject ↔
      ∀ r ∈ s.records, r.provenance.source.name = source → r.retired = true := by
  rw [retireSource, OrdMap.mapValues_eq_self_iff]
  constructor
  · intro h r hr hsource
    obtain ⟨e, he, hre⟩ := mem_records.mp hr
    have hretired := List.map_inj_left.mp ((h e he).trans (List.map_id e.2).symm) r hre
    rw [if_pos hsource] at hretired
    exact (congrArg (·.retired) hretired).symm
  · intro h e he
    conv => rhs; rw [← List.map_id e.2]
    apply List.map_congr_left
    intro r hr
    split
    · next hsource =>
        have hretired := h r (mem_records.mpr ⟨e, he, hr⟩) hsource
        rw [← hretired]
        rfl
    · rfl

/-- `ingest` loses the old state: the record comes from a source that rebooted, its subject has no
canonical rendering, and a record of the source is still live. -/
structure RetiresInVain (s : EvidenceStore) (record : EvidenceRecord) (policy : IngestPolicy)
    (topology : Option Topology) : Prop where
  reaches : s.ReachesFence record policy topology
  accepted : (s.fenceOf record policy).accepted = true
  reboot : (s.fenceOf record policy).livenessReset = true
  unnamed : ¬ Named record
  live : ∃ r ∈ s.records, r.provenance.source = record.provenance.source ∧ r.retired = false

/-- `ingest_recovered` loses the old state: the record is valid, its subject has no canonical
rendering, and its source is new and finds room. -/
structure KnowsInVain (s : EvidenceStore) (record : EvidenceRecord) : Prop where
  valid : validateEvidence record s.limits = .ok ()
  room : s.SourceRoom record.provenance.source.name
  unnamed : ¬ Named record
  fresh : s.sources.find? record.provenance.source.name = none

/-- A failed `ingest` leaves the store as it was, but for one case. -/
theorem ingest_error_iff :
    (∀ e, (s.ingest record now policy topology).1 = .error e →
      SameContent s (s.ingest record now policy topology).2) ↔
      ¬ s.RetiresInVain record policy topology := by
  have hlive : (∃ r ∈ s.records, r.provenance.source = record.provenance.source ∧
      r.retired = false) ↔
      ¬ (s.retireSource record.provenance.source.name).bySubject = s.bySubject := by
    rw [retireSource_bySubject_eq_iff]
    simp only [not_forall, Bool.not_eq_true, exists_prop]
    constructor
    · rintro ⟨r, hr, hsource, hretired⟩
      exact ⟨r, hr, congrArg _ hsource, hretired⟩
    · rintro ⟨r, hr, hsource, hretired⟩
      exact ⟨r, hr, EntityId.name_injective hsource, hretired⟩
  by_cases hreaches : s.ReachesFence record policy topology
  swap
  · have hsame := ingest_of_not_reaches s record now policy topology hreaches
    exact iff_of_true (fun _ _ => hsame) fun h => hreaches h.reaches
  rcases ingest_of_reaches s record now policy topology hreaches with
    ⟨hfence, outcome, s', hok, -⟩ | ⟨hfence, hname, e, herror⟩ | ⟨-, hname, outcome, s', hok, -⟩
  · rw [hok]
    refine iff_of_true (fun e he => by cases he) fun h => ?_
    exact Bool.false_ne_true (hfence.symm.trans h.accepted)
  · -- The error of the last check: what the reboot did before it stays.
    rw [herror]
    cases hreset : (s.fenceOf record policy).livenessReset with
    | false =>
        have hkept : s.retireOnReset (s.fenceOf record policy) record.provenance.source.name = s := by
          simp [retireOnReset, hreset]
        rw [hkept]
        refine iff_of_true (fun _ _ => SameContent.refl s) fun h => ?_
        exact Bool.false_ne_true (hreset.symm.trans h.reboot)
    | true =>
        have hretired : s.retireOnReset (s.fenceOf record policy) record.provenance.source.name
            = s.retireSource record.provenance.source.name := by
          simp [retireOnReset, hreset]
        rw [hretired]
        constructor
        · intro h hvain
          exact hlive.mp hvain.live (h e rfl).bySubject
        · intro h e' _
          refine ⟨rfl, ?_, rfl, rfl, rfl, rfl, rfl, rfl, rfl⟩
          by_contra hchanged
          exact h ⟨hreaches, hfence, hreset, hname, hlive.mpr hchanged⟩
  · rw [hok]
    exact iff_of_true (fun e he => by cases he) fun h => h.unnamed hname

/-- A failed `ingest_recovered` leaves the store as it was, but for one case. -/
theorem ingestRecovered_error_iff :
    (∀ e, (s.ingestRecovered record).1 = .error e → SameContent s (s.ingestRecovered record).2) ↔
      ¬ s.KnowsInVain record := by
  unfold ingestRecovered
  cases hvalid : validateEvidence record s.limits with
  | error e =>
      refine iff_of_true (fun _ _ => SameContent.countInvalid s) fun h => ?_
      have hbad := h.valid
      rw [hvalid] at hbad
      cases hbad
  | ok _ =>
      dsimp only
      by_cases hroom : s.SourceRoom record.provenance.source.name
      swap
      · rw [if_pos (by rw [sourceRoom_iff_not_full, not_not] at hroom; exact hroom)]
        exact iff_of_true (fun _ _ => SameContent.countInvalid s) fun h => hroom h.room
      rw [if_neg ((sourceRoom_iff_not_full s _).mp hroom)]
      unfold admitLocked
      dsimp only
      cases hname : (Name.unchecked record.subject.str).valid with
      | true =>
          refine iff_of_true (fun e he => by cases he) fun h => h.unnamed hname
      | false =>
          -- The name is only checked after the source was entered into its table.
          have hknows := knowSource_sources_eq_iff s record.provenance.source
          constructor
          · intro h hvain
            exact hknows.mp (h _ rfl).sources hvain.fresh
          · intro h e _
            refine ⟨rfl, rfl, rfl, hknows.mpr fun hnew => ?_, rfl, rfl, rfl, rfl, rfl⟩
            exact h ⟨hvalid, hroom, by rw [Named, hname]; exact Bool.false_ne_true, hnew⟩

end

/-- An error of `ingest` or of `ingest_recovered` changes nothing but the counters of rejected
records, unless the rendering of the subject is what is at fault and the store was changed before it
was looked at: by a reboot that retires a live record, or by a recovered source that is new. -/
theorem error_atomic_iff (s : EvidenceStore) (record : EvidenceRecord) (now : Timestamp)
    (policy : IngestPolicy) (topology : Option Topology) :
    ((∀ e, (s.ingest record now policy topology).1 = .error e →
        SameContent s (s.ingest record now policy topology).2) ↔
      ¬ s.RetiresInVain record policy topology) ∧
    ((∀ e, (s.ingestRecovered record).1 = .error e →
        SameContent s (s.ingestRecovered record).2) ↔
      ¬ s.KnowsInVain record) :=
  ⟨ingest_error_iff s record now policy topology, ingestRecovered_error_iff s record⟩

/-- A drop observation about a link, by a source in some boot. -/
def dropAbout (link : Text) (boot : UInt64) : EvidenceRecord :=
  { kind := .dropCount
    subject := .link (EntityId.unchecked link)
    provenance := { source := EntityId.unchecked (ascii "agent1"), authority := .measured }
    fence := { source := EntityId.unchecked (ascii "agent1"), boot := boot, incarnation := 1
               sequence := 1 }
    value := { unit := .packets, semantics := .deltaCounter } }

/-- A canonical name of 92 bytes. With `link:` before it, it has 97. -/
def longName : Text := List.replicate 92 0x61

/-- The store of a source that was heard in its first boot. -/
def heardOnce : EvidenceStore :=
  (({ limits := {} } : EvidenceStore).ingest (dropAbout (ascii "leaf1-up") 1) Timestamp.zero {}
    none).2

/-- An observation about the long name after a reboot, and the same recovered into an empty store:
both are refused, the first retires what the store holds, the second leaves its source behind. -/
theorem refused_name_changes_store :
    (heardOnce.ingest (dropAbout longName 2) Timestamp.zero {} none).1.isOk = false ∧
      ¬ SameContent heardOnce (heardOnce.ingest (dropAbout longName 2) Timestamp.zero {} none).2 ∧
      (({ limits := {} } : EvidenceStore).ingestRecovered (dropAbout longName 1)).1.isOk = false ∧
      ¬ SameContent { limits := {} }
        (({ limits := {} } : EvidenceStore).ingestRecovered (dropAbout longName 1)).2 := by
  refine ⟨by decide +kernel, fun h => ?_, by decide +kernel, fun h => ?_⟩
  · have hrecords := congrArg (fun m => m.values.map (List.map (·.retired))) h.bySubject
    revert hrecords
    decide +kernel
  · have hsources := congrArg OrdMap.size h.sources
    revert hsources
    decide +kernel

/-! ### Objects of a topology -/

/-- The kinds of the objects a topology consists of. -/
def topologyKinds : List SubjectKind := [.node, .port, .link, .queue, .buffer, .path, .flow]

/-- An object of a topology has a name. -/
theorem nameText_of_contains {t : Topology} (hbuilt : t.Built) {subject : EvidenceSubject}
    (hkind : subject.kind ∈ topologyKinds) (hcontains : t.contains subject = true) :
    subject.nameText ≠ [] := by
  obtain ⟨b, limits, hreachable, hbuild⟩ := hbuilt
  have hwell := TopologyBuilder.wellFormed_of_reachable hreachable
  obtain ⟨-, -, hassemble⟩ := bind_eq_ok.mp hbuild
  obtain rfl := pure_eq_ok.mp hassemble
  have hname : ∀ {Tag : Type} (id : EntityId Tag), id.name.valid = true → id.str ≠ [] := by
    intro Tag id hvalid hnil
    simp [Name.valid, show id.name.str = [] from hnil] at hvalid
  cases subject with
  | node id => exact hname id (hwell.nodes.valid_of_contains hcontains)
  | port id => exact hname id (hwell.ports.valid_of_contains hcontains)
  | link id => exact hname id (hwell.links.valid_of_contains hcontains)
  | queue id => exact hname id (hwell.queues.valid_of_contains hcontains)
  | buffer id => exact hname id (hwell.buffers.valid_of_contains hcontains)
  | path id => exact hname id (hwell.paths.valid_of_contains hcontains)
  | flow id => exact hname id (hwell.flows.valid_of_contains hcontains)
  | _ => simp [topologyKinds, EvidenceSubject.kind] at hkind

/-- A valid record about an object of a topology, with an incarnation, from a source there is room
for, and accepted by the fence, is stored exactly when the rendering of the object has at most 96
bytes. -/
theorem stored_iff_short (t : Topology) (hbuilt : t.Built) (s : EvidenceStore)
    (record : EvidenceRecord) (now : Timestamp) (policy : IngestPolicy)
    (hkind : record.subject.kind ∈ topologyKinds) (hcontains : t.contains record.subject = true)
    (hvalid : validateEvidence record s.limits = .ok ()) (hincarnation : record.fence.incarnation ≠ 0)
    (hroom : s.SourceRoom record.provenance.source.name)
    (haccepted : (s.fenceOf record policy).accepted = true) :
    (∃ outcome, (s.ingest record now policy (some t)).1 = .ok outcome ∧ outcome.stored = true) ↔
      record.subject.str.length ≤ kMaxLength := by
  have hname := nameText_of_contains hbuilt hkind hcontains
  have hkey := record.subject.key_valid_iff
  -- An object of the topology passes every check but the length of its rendering, which is not one
  -- of them.
  have hreaches : s.ReachesFence record policy (some t) := by
    refine ⟨hvalid, ?_, fun _ => hincarnation, hroom⟩
    rintro _ ⟨⟩ -
    have hnone : record.subject.kind ≠ .none := by
      intro heq
      rw [heq] at hkind
      exact absurd hkind (by decide)
    rw [Topology.require, if_neg hnone, if_pos hcontains]
  rcases ingest_of_reaches s record now policy (some t) hreaches with
    ⟨hfence, -⟩ | ⟨-, hunnamed, e, herror⟩ | ⟨-, hnamed, outcome, s', hok, hstored⟩
  · rw [haccepted] at hfence
    cases hfence
  · rw [herror]
    refine iff_of_false ?_ ?_
    · rintro ⟨outcome, hok, -⟩
      cases hok
    · intro hshort
      exact hunnamed (hkey.mpr ⟨hname, hshort⟩)
  · rw [hok]
    exact iff_of_true ⟨outcome, rfl, hstored⟩ (hkey.mp hnamed).2

/-- A builder with one node. -/
def oneNode (name : Text) : TopologyBuilder :=
  { nodes := OrdMap.empty.emplace (Name.unchecked name) { id := EntityId.unchecked name } }

/-- An observation about that node. -/
def nodeObservation (name : Text) : EvidenceRecord :=
  { dropAbout (ascii "leaf1-up") 1 with subject := .node (EntityId.unchecked name) }

theorem built_oneNode {name : Text}
    (h : ({} : TopologyBuilder).addNode { id := EntityId.unchecked name } = .ok (oneNode name))
    (hbuild : (oneNode name).build {} = .ok (oneNode name).assemble) :
    (oneNode name).assemble.Built :=
  ⟨oneNode name, {}, .addNode .new h, hbuild⟩

/-- An observation about a node `n1` is stored. -/
theorem nodeObservation_stored :
    ∃ outcome, (({ limits := {} } : EvidenceStore).ingest (nodeObservation (ascii "n1"))
        Timestamp.zero {} (some (oneNode (ascii "n1")).assemble)).1 = .ok outcome ∧
      outcome.stored = true :=
  (stored_iff_short (oneNode (ascii "n1")).assemble
    (built_oneNode (by decide +kernel) (by decide +kernel)) { limits := {} }
    (nodeObservation (ascii "n1")) Timestamp.zero {} (by decide +kernel) (by decide +kernel)
    (by decide +kernel) (by decide +kernel) (Or.inr (by decide +kernel)) (by decide +kernel)).mpr
    (by decide +kernel)

/-- The same observation about a node with the long name is not, although the topology admits the
node, the record is valid and the fence accepts it. -/
theorem long_node_not_stored :
    (oneNode longName).assemble.Built ∧
      (oneNode longName).assemble.contains (nodeObservation longName).subject = true ∧
      validateEvidence (nodeObservation longName) {} = .ok () ∧
      (nodeObservation longName).fence.incarnation ≠ 0 ∧
      ({ limits := {} } : EvidenceStore).sources.size < ({} : Limits).maxSources ∧
      (({ limits := {} } : EvidenceStore).fenceOf (nodeObservation longName) {}).accepted = true ∧
      (({ limits := {} } : EvidenceStore).ingest (nodeObservation longName) Timestamp.zero {}
        (some (oneNode longName).assemble)).1.isOk = false :=
  ⟨built_oneNode (by decide +kernel) (by decide +kernel), by decide +kernel, by decide +kernel,
    by decide +kernel, by decide +kernel, by decide +kernel, by decide +kernel⟩

end EvidenceStore

end CongestionObservatory
