import CongestionObservatory.Proofs.Assessment.Decisive
import CongestionObservatory.Proofs.Evidence.Provenance
import CongestionObservatory.Runtime.Runtime

/-!
# `CongestionObservatory.Proofs.Runtime.Soundness`: an asserted congestion is supported

A congestion assertion of the runtime goes a long way back: the rule cascade confirms congestion
only from usable impairment records, these come out of a query on the evidence store, and what the
store retains comes from the calls made so far. `exists_store_calls` shows that a run of the runtime
is a run of its store, so `EvidenceStore.Vouched` holds there. `asserted_supported` puts the three
together.
-/

set_option autoImplicit false

namespace CongestionObservatory

open Lib

namespace EvidenceStore

/-- The bucket of a subject and the whole store are retained. -/
theorem mem_candidates {s : EvidenceStore} {q : EvidenceQuery} {r : EvidenceRecord}
    (h : r ∈ match q.subject with
      | some subject => s.bucket (Name.unchecked subject.str)
      | none => s.records) : r ∈ s.records := by
  split at h
  · exact mem_records_of_bucket h
  · exact h

/-- A query returns retained records that pass its filter. -/
theorem mem_query {s : EvidenceStore} {q : EvidenceQuery} {r : EvidenceRecord}
    (h : r ∈ s.query q) : r ∈ s.records ∧ considers q r = true := by
  have hsorted : ∀ l : List EvidenceRecord, r ∈ (if q.newestFirst then l.reverse else l) → r ∈ l := by
    intro l hl
    split at hl
    · exact List.mem_reverse.mp hl
    · exact hl
  have htaken := (List.mem_insertionSort _).mp (hsorted _ h)
  obtain ⟨hmem, hconsiders⟩ := List.mem_filter.mp (List.mem_of_mem_take htaken)
  exact ⟨mem_candidates hmem, hconsiders⟩

end EvidenceStore

namespace Runtime

/-! ### The store of a run -/

/-- The record a call stored, when `ingest` reported it as stored. -/
def acceptedRecord : Call × Reply → Option EvidenceRecord
  | (.ingest record _, .admitted (.ok outcome)) => if outcome.stored then some record else none
  | _ => none

/-- The records `ingest` accepted in a history, in call order. -/
def acceptedRecords (history : List (Call × Reply)) : List EvidenceRecord :=
  history.filterMap acceptedRecord

/-- The accepted records of one source, in call order. -/
def acceptedFrom (source : SourceId) (history : List (Call × Reply)) : List EvidenceRecord :=
  (acceptedRecords history).filter fun record => record.provenance.source = source

/-- A call on the store from a sweep moves records only in the given way. -/
def MovesBy (move : SelfMove) : EvidenceStore.Call → Prop
  | .sweep move' _ _ _ => move' = move
  | _ => True

/-- The calls on the store that do not ingest anything live. -/
def Silent (move : SelfMove) (store store' : EvidenceStore) : Prop :=
  ∃ own, store' = run EvidenceStore.step store own ∧
    (trace EvidenceStore.step store own).filterMap EvidenceStore.acceptedRecord = [] ∧
    ∀ c ∈ own, MovesBy move c

theorem Silent.refl (move : SelfMove) (store : EvidenceStore) : Silent move store store :=
  ⟨[], rfl, rfl, fun _ hc => absurd hc List.not_mem_nil⟩

/-- The loop of `load` over the evidence recovers records one by one. -/
theorem silent_recoverAll (move : SelfMove) (records : List EvidenceRecord)
    (store : EvidenceStore) : Silent move store (store.recoverAll records).2 := by
  induction records generalizing store with
  | nil => exact Silent.refl move store
  | cons record rest ih =>
      have hone : (store.step (.ingestRecovered record)).2 = (store.ingestRecovered record).2 := rfl
      rw [EvidenceStore.recoverAll]
      cases hresult : store.ingestRecovered record with
      | mk result store' =>
          rw [hresult] at hone
          cases result with
          | error e =>
              refine ⟨[.ingestRecovered record], hone.symm, rfl, fun c hc => ?_⟩
              rw [List.mem_singleton.mp hc]
              trivial
          | ok outcome =>
              obtain ⟨own, hrun, htrace, hmoves⟩ := ih store'
              refine ⟨.ingestRecovered record :: own, ?_, ?_, ?_⟩
              · rw [run, hone]
                exact hrun
              · rw [trace, hone, List.filterMap_cons_none rfl]
                exact htrace
              · intro c hc
                rcases List.mem_cons.mp hc with rfl | hc
                · trivial
                · exact hmoves c hc

theorem Silent.andThen {move : SelfMove} {store store' : EvidenceStore}
    (h : Silent move store store') (call : EvidenceStore.Call)
    (hcall : ∀ reply, EvidenceStore.acceptedRecord (call, reply) = none)
    (hmoves : MovesBy move call) : Silent move store (store'.step call).2 := by
  obtain ⟨own, hrun, htrace, hown⟩ := h
  refine ⟨own ++ [call], ?_, ?_, ?_⟩
  · rw [run_append, ← hrun]
    rfl
  · rw [trace_append, List.filterMap_append, htrace, ← hrun]
    simp [trace, hcall]
  · intro c hc
    rcases List.mem_append.mp hc with hc | hc
    · exact hown c hc
    · rw [List.mem_singleton.mp hc]
      exact hmoves

@[simp] theorem rebuildCausalGraph_store (rt : Runtime) :
    rt.rebuildCausalGraph.2.store = rt.store := by
  unfold rebuildCausalGraph
  split <;> rfl

@[simp] theorem rebuildCausalGraph_config (rt : Runtime) :
    rt.rebuildCausalGraph.2.config = rt.config := by
  unfold rebuildCausalGraph
  split <;> rfl

theorem silent_apply (move : SelfMove) (rt : Runtime) (loaded : LoadReport) :
    Silent move rt.store (rt.apply loaded).2.store := by
  have hrecover := silent_recoverAll move loaded.content.evidence rt.store
  unfold apply
  dsimp only
  split
  · exact Silent.refl move rt.store
  · split
    · rename_i heq
      rw [heq] at hrecover
      exact hrecover
    · rename_i store' heq
      rw [heq] at hrecover
      have hreset : Silent move rt.store store'.resetLiveness :=
        hrecover.andThen .resetLiveness (fun _ => rfl) trivial
      split
      · rename_i hrebuild
        have hstore := congrArg (fun out => out.2.store) hrebuild
        simp only [rebuildCausalGraph_store] at hstore
        exact hstore ▸ hreset
      · rename_i hrebuild
        have hstore := congrArg (fun out => out.2.store) hrebuild
        simp only [rebuildCausalGraph_store] at hstore
        exact hstore ▸ hreset

theorem silent_load (move : SelfMove) (rt : Runtime) (files : SnapshotFiles) :
    Silent move rt.store (rt.load files).2.store := by
  unfold load
  split
  · exact Silent.refl move rt.store
  · dsimp only
    split
    · exact Silent.refl move rt.store
    · exact silent_apply move rt _

theorem silent_runMaintenance (move : SelfMove) (rt : Runtime) (now : Timestamp)
    (advanceToken sweepToken : CancellationToken) :
    Silent move rt.store (rt.runMaintenance move now advanceToken sweepToken).2.store := by
  have hsweep : Silent move rt.store (rt.store.sweep move
      (now - retentionHorizon rt.config.classification) rt.config.limits.maxWindowRecords
      sweepToken).2 :=
    (Silent.refl move rt.store).andThen (.sweep move _ _ _) (fun _ => rfl) rfl
  unfold runMaintenance
  dsimp only
  split
  · exact Silent.refl move rt.store
  · split
    · rename_i heq
      rw [heq] at hsweep
      exact hsweep
    · rename_i heq
      rw [heq] at hsweep
      exact hsweep

theorem evaluate_store (rt : Runtime) (subject : EvidenceSubject) (window : Duration)
    (now : Timestamp) : (rt.evaluate subject window now).2.store = rt.store := by
  unfold evaluate
  split
  · rfl
  · split <;> rfl

/-- Each call of the runtime is a list of calls on its store, which accept the same record. -/
theorem step_store (move : SelfMove) (rt : Runtime) (call : Call) :
    ∃ own, (rt.step move call).2.store = run EvidenceStore.step rt.store own ∧
      (trace EvidenceStore.step rt.store own).filterMap EvidenceStore.acceptedRecord
        = (acceptedRecord (call, (rt.step move call).1)).toList ∧
      ∀ c ∈ own, MovesBy move c := by
  cases call with
  | ingest record now =>
      unfold step ingest
      dsimp only
      split
      · exact Silent.refl move rt.store
      · refine ⟨[.ingest record now rt.config.ingest (some rt.topology)], rfl, ?_, ?_⟩
        · show (List.filterMap EvidenceStore.acceptedRecord [(_, .admitted
            (rt.store.ingest record now rt.config.ingest (some rt.topology)).1)]) = _
          cases (rt.store.ingest record now rt.config.ingest (some rt.topology)).1 with
          | error e => rfl
          | ok outcome =>
              simp only [List.filterMap_cons, EvidenceStore.acceptedRecord, acceptedRecord]
              cases outcome.stored <;> rfl
        · intro c hc
          rw [List.mem_singleton.mp hc]
          trivial
  | ingestRecovered record =>
      exact (Silent.refl move rt.store).andThen (.ingestRecovered record) (fun _ => rfl)
        trivial
  | load files => exact silent_load move rt files
  | admitTopology topology =>
      have hstore : (rt.step move (.admitTopology topology)).2.store = rt.store :=
        rebuildCausalGraph_store { rt with topology := topology }
      rw [hstore]
      exact Silent.refl move rt.store
  | rebuildCausalGraph =>
      have hstore : (rt.step move .rebuildCausalGraph).2.store = rt.store :=
        rebuildCausalGraph_store rt
      rw [hstore]
      exact Silent.refl move rt.store
  | advanceEpisodes now token => exact Silent.refl move rt.store
  | runMaintenance now advanceToken sweepToken =>
      exact silent_runMaintenance move rt now advanceToken sweepToken
  | evaluate subject window now =>
      have hstore : (rt.step move (.evaluate subject window now)).2.store = rt.store :=
        evaluate_store rt subject window now
      rw [hstore]
      exact Silent.refl move rt.store
  | requestShutdown => exact Silent.refl move rt.store

/-- A created runtime has an empty store under the configured limits. -/
theorem create_store {config : RuntimeConfig} {rt : Runtime} (h : create config = .ok rt) :
    rt.config = config ∧ rt.store = { limits := config.limits } := by
  obtain ⟨-, hrest⟩ := seq_eq_ok.mp h
  obtain ⟨-, hrest⟩ := seq_eq_ok.mp hrest
  obtain ⟨-, hrest⟩ := seq_eq_ok.mp hrest
  rw [pure_eq_ok] at hrest
  rw [hrest]
  exact ⟨rebuildCausalGraph_config _, rebuildCausalGraph_store _⟩

/-- The store of a run from a created runtime is the store of a run of its own. -/
theorem exists_store_calls {config : RuntimeConfig} {rt : Runtime} (h : create config = .ok rt)
    (move : SelfMove) (calls : List Call) :
    ∃ own, (run (step move) rt calls).store
        = run EvidenceStore.step { limits := config.limits } own ∧
      EvidenceStore.acceptedRecords (trace EvidenceStore.step { limits := config.limits } own)
        = acceptedRecords (trace (step move) rt calls) ∧
      ∀ c ∈ own, MovesBy move c := by
  have hown := exists_component_run (step move) (step_store move) rt calls
  rwa [(create_store h).2] at hown

/-! ### From the assertion to a record -/

/-- A record that supports an assertion about the subject: retained, accepted by `ingest` in this
run, live, an impairment of the subject, fresh and in the window, of the admitted generation, and
from the last boot of its source. -/
structure Supports (policy : ClassificationPolicy) (history : List (Call × Reply)) (rt : Runtime)
    (subject : EvidenceSubject) (window : Duration) (now : Timestamp) (r : EvidenceRecord) :
    Prop where
  retained : r ∈ rt.store.records
  accepted : ∃ a ∈ acceptedRecords history, EvidenceStore.StoredAs a r
  notRecovered : r.recoveredFromSnapshot = false
  notRetired : r.retired = false
  subject : r.subject = subject
  impairment : roleOf r.kind = .impairment
  supported : r.support ≠ .unsupported
  fresh : (assessFreshness r now policy.freshness).freshness = .fresh
  windowStart : now.nanos.toInt - window.nanos.toInt ≤ r.observedAt.nanos.toInt
  windowEnd : r.observedAt.nanos.toInt ≤ now.nanos.toInt
  generation : rt.topology.generation = {} ∨ r.fence.gen = rt.topology.generation
  current : ∃ last, (acceptedFrom r.provenance.source history).getLast? = some last ∧
    r.fence.boot = last.fence.boot ∧ r.fence.incarnation = last.fence.incarnation

/-- A fresh record is neither recovered nor retired. -/
theorem live_of_fresh {r : EvidenceRecord} {now : Timestamp} {policy : FreshnessPolicy}
    (h : (assessFreshness r now policy).freshness = .fresh) :
    r.recoveredFromSnapshot = false ∧ r.retired = false := by
  unfold assessFreshness at h
  cases hrecovered : r.recoveredFromSnapshot with
  | true => simp [hrecovered] at h
  | false =>
      cases hretired : r.retired with
      | true => simp [hrecovered, hretired] at h
      | false => exact ⟨rfl, rfl⟩

/-- An asserted congestion has a usable impairment record among the records it is classified
from. -/
theorem usable_of_asserted {request : ClassificationRequest} {policy : ClassificationPolicy}
    {records : List (Option EvidenceRecord)} {assessment : CongestionAssessment}
    (h : classifySubject Double request records policy = .ok assessment)
    (hasserted : assessment.congestionAsserted = true) :
    ∃ r, r ∈ usableImpairment request policy records := by
  have hvalid : ValidRequest request := validRequest_of_ok policy h
  obtain ⟨asserted, heq, hiff⟩ := asserted_iff (α := Double) policy hvalid records
  rw [h] at heq
  have hdecisive : Decisive Double policy (usableImpairment request policy records) := by
    refine hiff.mp ?_
    cases heq
    exact hasserted
  refine List.exists_mem_of_ne_nil _ fun hnil => ?_
  rw [hnil] at hdecisive
  exact not_decisive_nil Double policy hdecisive

/-- A window of positive length is bounded, and it never wraps around a record it contains. -/
theorem window_of_considers {subject : EvidenceSubject} {window : Duration} {now : Timestamp}
    {maxRecords : Nat} (hwindow : ¬ window ≤ Duration.zero) {r : EvidenceRecord}
    (h : EvidenceStore.considers
      { subject := some subject, windowStart := now - window, windowEnd := now
        maxRecords := maxRecords } r = true) :
    now.nanos.toInt - window.nanos.toInt ≤ r.observedAt.nanos.toInt ∧
      r.observedAt.nanos.toInt ≤ now.nanos.toInt := by
  have hpos : 0 < window.nanos.toInt := by
    rw [not_le, Duration.lt_iff] at hwindow
    exact hwindow
  have hstart : (now - window).nanos.toInt = (now.nanos.toInt - window.nanos.toInt).bmod (2 ^ 64) :=
    Int64.toInt_sub _ _
  -- A query whose two bounds are zero has no window. A positive length excludes that, as both
  -- instants would have to be the epoch.
  have hbounded : ((now - window).isZero && now.isZero) = false := by
    by_contra hzero
    rw [Bool.not_eq_false, Bool.and_eq_true] at hzero
    have hstart0 : (now - window).nanos = 0 := by simpa [Timestamp.isZero] using hzero.1
    have hend0 : now.nanos = 0 := by simpa [Timestamp.isZero] using hzero.2
    rw [hstart0, hend0] at hstart
    have hlt := window.nanos.toInt_lt
    simp only [Int64.toInt_zero, zero_sub, Int.bmod_def] at hstart
    omega
  simp only [EvidenceStore.considers, hbounded, Bool.false_or, Bool.and_eq_true,
    Bool.not_eq_true', Bool.or_eq_false_iff, decide_eq_false_iff_not, not_lt] at h
  obtain ⟨⟨⟨-, hfrom, hto⟩, -⟩, -⟩ := h
  rw [Timestamp.le_iff, hstart] at hfrom
  have hle := Timestamp.le_iff.mp hto
  refine ⟨?_, hle⟩
  have hlow := r.observedAt.nanos.le_toInt
  have hnow := now.nanos.le_toInt
  have hnow' := now.nanos.toInt_lt
  have hlt := window.nanos.toInt_lt
  -- If the start had wrapped around, it would lie above `now`, and no record is between them.
  rw [Int.bmod_def] at hfrom
  omega

/-- What a classification that asserts congestion says about one of the records of its window. -/
theorem record_of_classify {rt : Runtime} {subject : EvidenceSubject} {window : Duration}
    {now : Timestamp} {assessment : CongestionAssessment}
    (h : rt.classify subject window now = .ok assessment)
    (hasserted : assessment.congestionAsserted = true) :
    ∃ r ∈ rt.store.records, r.subject = subject ∧ roleOf r.kind = .impairment ∧
      r.support ≠ .unsupported ∧
      (assessFreshness r now rt.config.classification.freshness).freshness = .fresh ∧
      (now.nanos.toInt - window.nanos.toInt ≤ r.observedAt.nanos.toInt ∧
        r.observedAt.nanos.toInt ≤ now.nanos.toInt) ∧
      (rt.topology.generation = {} ∨ r.fence.gen = rt.topology.generation) := by
  unfold classify at h
  split at h
  · cases h
  rename_i hwindow
  unfold classifyWith at h
  split at h
  · cases h
  obtain ⟨r, hr⟩ := usable_of_asserted h hasserted
  -- The filters of the classifier, from the role inwards to the records of the window.
  obtain ⟨husable, hrole⟩ := List.mem_filter.mp hr
  obtain ⟨hmatching, hdeciding⟩ := List.mem_filter.mp husable
  obtain ⟨hinWindow, hgeneration⟩ := List.mem_filter.mp hmatching
  obtain ⟨hgiven, hsubject⟩ := List.mem_filter.mp hinWindow
  have hqueried : r ∈ rt.windowRecords subject (now - window) now := by simpa using hgiven
  obtain ⟨hretained, hconsiders⟩ := EvidenceStore.mem_query hqueried
  obtain ⟨hfresh, hsupport⟩ := Bool.and_eq_true_iff.mp hdeciding
  refine ⟨r, hretained, of_decide_eq_true hsubject, of_decide_eq_true hrole, by simpa using hsupport,
    by simpa [usableAsDecidingEvidence, freshnessAt, requestFor] using hfresh,
    window_of_considers hwindow hconsiders, ?_⟩
  have hzero : ∀ g : GenerationVector, g.epoch = 0 → g.generation = 0 → g.revision = 0 → g = {} := by
    rintro ⟨epoch, generation, revision⟩ he hg hr
    cases he
    cases hg
    cases hr
    rfl
  simp only [generationMatches, requestFor, Bool.or_eq_true, Bool.and_eq_true, beq_iff_eq]
    at hgeneration
  rcases hgeneration with ⟨⟨he, hg⟩, hr⟩ | hsame
  · exact Or.inl (hzero _ he hg hr)
  · exact Or.inr hsame

/-- No call changes the configuration. -/
theorem step_config (move : SelfMove) (rt : Runtime) (call : Call) :
    (rt.step move call).2.config = rt.config := by
  cases call with
  | ingest record now =>
      show (rt.ingest record now).2.config = rt.config
      unfold ingest
      split <;> rfl
  | ingestRecovered record => rfl
  | load files =>
      show (rt.load files).2.config = rt.config
      unfold load
      split
      · rfl
      · dsimp only
        split
        · rfl
        · unfold apply
          dsimp only
          split
          · rfl
          · split
            · rfl
            · split
              · rename_i hrebuild
                have hconfig := congrArg (fun out => out.2.config) hrebuild
                simp only [rebuildCausalGraph_config] at hconfig
                exact hconfig.symm
              · rename_i hrebuild
                have hconfig := congrArg (fun out => out.2.config) hrebuild
                simp only [rebuildCausalGraph_config] at hconfig
                exact hconfig.symm
  | admitTopology topology => exact rebuildCausalGraph_config { rt with topology := topology }
  | rebuildCausalGraph => exact rebuildCausalGraph_config rt
  | advanceEpisodes now token => rfl
  | runMaintenance now advanceToken sweepToken =>
      show (rt.runMaintenance move now advanceToken sweepToken).2.config = rt.config
      unfold runMaintenance
      split
      · rfl
      · dsimp only
        split <;> rfl
  | evaluate subject window now =>
      show (rt.evaluate subject window now).2.config = rt.config
      unfold evaluate
      split
      · rfl
      · split <;> rfl
  | requestShutdown => rfl

theorem run_config (move : SelfMove) (rt : Runtime) (calls : List Call) :
    (run (step move) rt calls).config = rt.config :=
  run_induction (step move) (fun rt' => rt'.config = rt.config) rfl
    (fun rt' call h => (step_config move rt' call).trans h) calls

/-- Whatever calls were made since the runtime was created, a classification that asserts
congestion is supported by a record that the store retains. -/
theorem asserted_supported (config : RuntimeConfig) (created : Runtime)
    (hcreate : create config = .ok created) (calls : List Call) (subject : EvidenceSubject)
    (window : Duration) (now : Timestamp) (assessment : CongestionAssessment)
    (hclassify : (run (step SelfMove.transfer) created calls).classify subject window now
      = .ok assessment)
    (hasserted : assessment.congestionAsserted = true) :
    ∃ r, Supports config.classification (trace (step SelfMove.transfer) created calls)
      (run (step SelfMove.transfer) created calls) subject window now r := by
  obtain ⟨own, hstore, haccepted, hmoves⟩ := exists_store_calls hcreate SelfMove.transfer calls
  have hvouched := EvidenceStore.vouched_run config.limits own fun call hcall => by
    have hmove := hmoves call hcall
    cases call <;> exact hmove
  rw [← hstore] at hvouched
  have hconfig : (run (step SelfMove.transfer) created calls).config = config :=
    (run_config _ created calls).trans (create_store hcreate).1
  obtain ⟨r, hretained, hsubject, hrole, hsupport, hfresh, ⟨hstart, hend⟩, hgeneration⟩ :=
    record_of_classify hclassify hasserted
  obtain ⟨hrecovered, hretired⟩ := live_of_fresh hfresh
  have hcurrent := hvouched.current r hretained hrecovered hretired
  have hstored := hvouched.accepted r hretained hrecovered
  unfold EvidenceStore.acceptedFences at hcurrent
  rw [haccepted] at hcurrent hstored
  rw [hconfig] at hfresh
  refine ⟨r, hretained, hstored, hrecovered, hretired, hsubject, hrole, hsupport, hfresh, hstart,
    hend, hgeneration, ?_⟩
  obtain ⟨fence, hlast, hboot, hincarnation⟩ := hcurrent
  rw [List.getLast?_map] at hlast
  obtain ⟨last, hlast', rfl⟩ := Option.map_eq_some_iff.mp hlast
  exact ⟨last, hlast', hboot, hincarnation⟩

/-- Half of the packets of a tenant were dropped, says one source. -/
def tenantDrop : EvidenceRecord :=
  { linkObservation .dropCount { scalar := ⟨0x3FE0000000000000⟩, unit := .ratio } "agent1" 1 with
    subject := .tenant (EntityId.unchecked (ascii "t1")) }

/-- A checked configuration without workers and with an empty topology starts with an empty
graph. -/
theorem create_eq_initial {config : RuntimeConfig} (hcheck : checkConfig config = .ok ())
    (htopology : config.topology = {}) (hworkers : config.startWorkers = false) :
    create config = .ok (initial config) := by
  have hlinks : (initial config).topology.structuralLinks = [] := by
    show config.topology.structuralLinks = []
    rw [htopology]
    rfl
  have hgraph : (initial config).rebuildCausalGraph = (.ok (), initial config) := by
    simp only [rebuildCausalGraph, causalGraphOf, hlinks, linkEdges]
    rfl
  unfold create
  rw [hcheck, hgraph, hworkers]
  rfl

theorem create_default : create {} = .ok (initial {}) :=
  create_eq_initial (by decide +kernel) rfl rfl

/-- The result at one ingested drop. -/
theorem asserted_supported_tenant :
    create {} = .ok (initial {}) ∧
      ∃ r, Supports {} (trace (step SelfMove.transfer) (initial {}) [.ingest tenantDrop ⟨1000000000⟩])
        (run (step SelfMove.transfer) (initial {}) [.ingest tenantDrop ⟨1000000000⟩])
        (.tenant (EntityId.unchecked (ascii "t1"))) ⟨10⟩ ⟨1000000000⟩ r := by
  have hasserted : ((run (step SelfMove.transfer) (initial {})
      [.ingest tenantDrop ⟨1000000000⟩]).classify (.tenant (EntityId.unchecked (ascii "t1"))) ⟨10⟩
        ⟨1000000000⟩).map CongestionAssessment.congestionAsserted = .ok true := by
    decide +kernel
  refine ⟨create_default, ?_⟩
  cases hclassify : (run (step SelfMove.transfer) (initial {})
      [.ingest tenantDrop ⟨1000000000⟩]).classify (.tenant (EntityId.unchecked (ascii "t1"))) ⟨10⟩
        ⟨1000000000⟩ with
  | error e =>
      rw [hclassify] at hasserted
      cases hasserted
  | ok assessment =>
      rw [hclassify] at hasserted
      refine asserted_supported {} _ create_default _ _ _ _ assessment hclassify ?_
      exact Except.ok.inj hasserted

end Runtime

end CongestionObservatory
