import CongestionObservatory.Proofs.Assessment.Recording
import CongestionObservatory.Proofs.Episode.Lifecycle
import CongestionObservatory.Proofs.Runtime.Threads

/-!
# `CongestionObservatory.Proofs.Runtime.Concurrency`: soundness under several threads

A classification reads the topology in one section and the store in another, and the registry
observes the assessment in a third one. Other threads may act between them. What survives is that
the history of the sections is one run of the store and of the registry (`performOn_store`,
`goes_observe`), so the store of the moment of the query retained what the assessment cites.

`threads_asserted_supported` says so of the assessments that a thread gets, and
`threads_episodes_supported` of the episodes in the registry. `Concerns` sorts the sections by the
component they act on, which tells in which part of an operation a section was entered.
-/

set_option autoImplicit false

namespace CongestionObservatory

open Lib

namespace Runtime

variable {ι : Type} {move : SelfMove}

/-- The history of threads that share a runtime. -/
abbrev History (ι : Type) : Type := List (Option ι × ThreadEvent Section.Answer Request Response)

/-! ### The components -/

theorem performOn_config (k : Section) (rt : Runtime) :
    (performOn move k rt).2.config = rt.config := by
  cases k <;> rfl

/-- The runtime after the sections of a history. -/
def runtimeAfter (move : SelfMove) (rt : Runtime) (history : History ι) : Runtime :=
  (Thread.after (perform move) { runtime := rt } history).runtime

theorem runtimeAfter_config (rt : Runtime) (history : History ι) :
    (runtimeAfter move rt history).config = rt.config :=
  Thread.after_induction (perform move) (fun s => s.runtime.config = rt.config)
    (fun k s h => (performOn_config k s.runtime).trans h) rfl history

/-- The call of the runtime whose store section this is, when it ingests. -/
def ingestCall : Program.Entry Section.Answer → Option (Call × Reply)
  | ⟨.ingest record now _, result⟩ => some (.ingest record now, .admitted result)
  | _ => none

/-- The ingest calls of a history that have reached the store, in the order of the store. -/
def ingestCalls (history : History ι) : List (Call × Reply) :=
  (Thread.entries (history.map Prod.snd)).filterMap ingestCall

/-- The sections are calls of the store, which accept the same records. -/
theorem performOn_store (k : Section) (rt : Runtime) :
    ∃ own, (performOn move k rt).2.store = run EvidenceStore.step rt.store own ∧
      (trace EvidenceStore.step rt.store own).filterMap EvidenceStore.acceptedRecord
        = ((ingestCall ⟨k, (performOn move k rt).1⟩).bind acceptedRecord).toList ∧
      ∀ c ∈ own, MovesBy move c := by
  cases k with
  | ingest record now topology =>
      refine ⟨[.ingest record now rt.config.ingest (some topology)], rfl, ?_, ?_⟩
      · show (List.filterMap EvidenceStore.acceptedRecord [(_, .admitted
          (rt.store.ingest record now rt.config.ingest (some topology)).1)]) = _
        show _ = (acceptedRecord (.ingest record now, .admitted
          (rt.store.ingest record now rt.config.ingest (some topology)).1)).toList
        cases (rt.store.ingest record now rt.config.ingest (some topology)).1 with
        | error e => rfl
        | ok outcome =>
            simp only [List.filterMap_cons, EvidenceStore.acceptedRecord, acceptedRecord]
            cases outcome.stored <;> rfl
      · intro c hc
        rw [List.mem_singleton.mp hc]
        trivial
  | ingestRecovered record =>
      exact (Silent.refl move rt.store).andThen (.ingestRecovered record) (fun _ => rfl) trivial
  | sweep horizon maxRecords token =>
      exact (Silent.refl move rt.store).andThen (.sweep move horizon maxRecords token)
        (fun _ => rfl) rfl
  | resetLiveness =>
      exact (Silent.refl move rt.store).andThen .resetLiveness (fun _ => rfl) trivial
  | _ => exact Silent.refl move rt.store

/-- The store of a history is the store of a run of its own. -/
theorem exists_store_calls_of_played {config : RuntimeConfig} {rt : Runtime}
    (hcreate : create config = .ok rt) {history : History ι}
    (h : Thread.Played (perform move) { runtime := rt } history) :
    ∃ own, (runtimeAfter move rt history).store
        = run EvidenceStore.step { limits := config.limits } own ∧
      EvidenceStore.acceptedRecords (trace EvidenceStore.step { limits := config.limits } own)
        = acceptedRecords (ingestCalls history) ∧
      ∀ c ∈ own, MovesBy move c := by
  obtain ⟨calls, hentries, hafter⟩ := h.exists_calls
  obtain ⟨own, hrun, haccepted, hmoves⟩ := @exists_component_run SharedRuntime Section
    (Program.Entry Section.Answer) (Thread.sectionCall (perform move)) EvidenceStore _ _ _
    EvidenceStore.step (fun s => s.runtime.store)
    (fun entry => (ingestCall entry.2).bind acceptedRecord) EvidenceStore.acceptedRecord (MovesBy move)
    (fun s k => performOn_store k s.runtime) { runtime := rt } calls
  rw [(create_store hcreate).2] at hrun haccepted
  refine ⟨own, ?_, haccepted.trans ?_, hmoves⟩
  · unfold runtimeAfter
    rw [hafter]
    exact hrun
  · unfold acceptedRecords ingestCalls
    rw [hentries, List.filterMap_filterMap, List.filterMap_map]
    rfl

/-! ### A classification -/

section

variable {config : RuntimeConfig} {subject : EvidenceSubject} {window : Duration} {now : Timestamp}
  {path : List (Program.Entry Section.Answer)}

/-- The query of a classification. -/
def windowQuery (config : RuntimeConfig) (subject : EvidenceSubject) (window : Duration)
    (now : Timestamp) : EvidenceQuery :=
  { subject := some subject, windowStart := now - window, windowEnd := now
    maxRecords := config.limits.maxWindowRecords }

theorem goes_act {k : Section} {u : Unit} (h : (Operation.act k).Goes path (.done u)) :
    ∃ answer, path = [⟨k, answer⟩] := by
  obtain ⟨answer, first, second, rfl, hfirst, hsecond⟩ := h.bind
  rw [Program.Goes.ask hfirst, (Program.Goes.done hsecond).1]
  exact ⟨answer, rfl⟩

/-- The sections of a classification that gives an assessment. -/
theorem goes_classify {assessment : CongestionAssessment}
    (h : (Operation.classify config subject window now).Goes path (.done (.ok assessment))) :
    ∃ (topology : Topology) (records : List EvidenceRecord) (answer : Unit),
      path = [⟨.currentTopology, topology⟩, ⟨.query (windowQuery config subject window now), records⟩,
        ⟨.countClassification, answer⟩] ∧
      ¬ window ≤ Duration.zero ∧ topology.contains subject = true ∧
      classifySubject Double (Operation.requestUnder config topology subject (now - window) now now)
        (records.map some) config.classification = .ok assessment := by
  unfold Operation.classify at h
  split at h
  · cases (Program.Goes.done h).2
  rename_i hwindow
  obtain ⟨topology, first, later, rfl, hfirst, hlater⟩ := h.bind
  cases Program.Goes.ask (k := Section.currentTopology) hfirst
  by_cases hcontains : topology.contains subject = true
  · rw [if_neg (by simp [hcontains])] at hlater
    obtain ⟨records, second, later, rfl, hsecond, hcount⟩ := hlater.bind
    cases Program.Goes.ask (k := Section.query (windowQuery config subject window now)) hsecond
    obtain ⟨u, first, last, rfl, hfirst, hlast⟩ := Program.Goes.bind hcount
    obtain ⟨answer, rfl⟩ := goes_act hfirst
    obtain ⟨rfl, hdone⟩ := hlast.done
    exact ⟨topology, records, answer, rfl, hwindow, hcontains, (Program.done.inj hdone).symm⟩
  · rw [if_pos (by simp [hcontains])] at hlater
    obtain ⟨u, first, last, rfl, -, hlast⟩ := hlater.bind
    cases hlast.done.2

end

/-! ### What backs an assertion -/

variable {config : RuntimeConfig} {rt : Runtime} {history : History ι} {i : ι}
  {subject : EvidenceSubject} {window : Duration} {now : Timestamp}

/-- A classification of a thread is supported. The thread has read the topology that was admitted
at one moment, and has queried the store at a later one. The store retained a record then that
supports an assertion under that topology, after the ingest calls that had reached the store. -/
def Supported (rt : Runtime) (history : History ι) (i : ι) (subject : EvidenceSubject)
    (window : Duration) (now : Timestamp) : Prop :=
  ∃ (earlier between later : History ι) (topology : Topology) (records : List EvidenceRecord)
      (r : EvidenceRecord),
    history = earlier ++ (some i, .performed ⟨.currentTopology, topology⟩) :: between
      ++ (some i, .performed ⟨.query (windowQuery rt.config subject window now), records⟩) :: later ∧
    topology = (runtimeAfter SelfMove.transfer rt earlier).topology ∧
    Supports rt.config.classification
      (ingestCalls (earlier ++ (some i, .performed ⟨.currentTopology, topology⟩) :: between))
      { runtimeAfter SelfMove.transfer rt
          (earlier ++ (some i, .performed ⟨.currentTopology, topology⟩) :: between) with
        topology := topology }
      subject window now r

theorem Supported.append {later : History ι} (h : Supported rt history i subject window now) :
    Supported rt (history ++ later) i subject window now := by
  obtain ⟨earlier, between, after, topology, records, r, rfl, htopology, hsupports⟩ := h
  exact ⟨earlier, between, after ++ later, topology, records, r, by simp, htopology, hsupports⟩

/-- What the store vouches for supports an assertion that is made from it. -/
theorem supports_of_vouched {rt : Runtime} {assessment : CongestionAssessment}
    {history : List (Call × Reply)} {storeHistory : List (EvidenceStore.Call × EvidenceStore.Reply)}
    (hclassify : rt.classify subject window now = .ok assessment)
    (hasserted : assessment.congestionAsserted = true) (hconfig : rt.config = config)
    (hvouched : EvidenceStore.Vouched storeHistory rt.store)
    (haccepted : EvidenceStore.acceptedRecords storeHistory = acceptedRecords history) :
    ∃ r, Supports config.classification history rt subject window now r := by
  obtain ⟨r, hretained, hsubject, hrole, hsupport, hfresh, ⟨hstart, hend⟩, hgeneration⟩ :=
    record_of_classify hclassify hasserted
  obtain ⟨hrecovered, hretired⟩ := live_of_fresh hfresh
  have hcurrent := hvouched.current r hretained hrecovered hretired
  have hstored := hvouched.accepted r hretained hrecovered
  unfold EvidenceStore.acceptedFences at hcurrent
  rw [haccepted] at hcurrent hstored
  rw [hconfig] at hfresh
  refine ⟨r, hretained, hstored, hrecovered, hretired, hsubject, hrole, hsupport, hfresh, hstart,
    hend, hgeneration, ?_⟩
  obtain ⟨fence, hlast, hboot, hincarnation⟩ := hcurrent
  rw [List.getLast?_map] at hlast
  obtain ⟨last, hlast', rfl⟩ := Option.map_eq_some_iff.mp hlast
  exact ⟨last, hlast', hboot, hincarnation⟩

/-- A classification that asserts congestion is supported when its sections are in the history. -/
theorem supported_of_goes (hcreate : create config = .ok rt)
    (hplayed : Thread.Played (perform SelfMove.transfer) { runtime := rt } history)
    {path : List (Program.Entry Section.Answer)} {assessment : CongestionAssessment}
    (hgoes : (Operation.classify config subject window now).Goes path (.done (.ok assessment)))
    (hpath : (path.map fun e => (some i, .performed e)).Sublist history)
    (hasserted : assessment.congestionAsserted = true) : Supported rt history i subject window now := by
  obtain ⟨topology, records, answer, rfl, hwindow, hcontains, hclassified⟩ := goes_classify hgoes
  -- The moments of the two sections.
  obtain ⟨earlier, rest, rfl, hrest⟩ := Thread.exists_split_of_sublist hpath
  obtain ⟨between, later, rfl, -⟩ := Thread.exists_split_of_sublist hrest
  have hshape : earlier ++ (some i, .performed ⟨.currentTopology, topology⟩)
        :: (between ++ (some i, .performed ⟨.query (windowQuery config subject window now), records⟩)
          :: later)
      = earlier ++ (some i, .performed ⟨.currentTopology, topology⟩) :: between
        ++ (some i, .performed ⟨.query (windowQuery config subject window now), records⟩) :: later :=
    by simp
  have htopology : (runtimeAfter SelfMove.transfer rt earlier).topology = topology :=
    hplayed.1 earlier (some i) ⟨.currentTopology, topology⟩ _ rfl
  rw [hshape] at hplayed
  generalize hbefore : earlier ++ (some i, .performed ⟨.currentTopology, topology⟩) :: between = before
    at hplayed
  have hrecords : (runtimeAfter SelfMove.transfer rt before).store.query
      (windowQuery config subject window now) = records :=
    hplayed.1 before (some i) ⟨.query (windowQuery config subject window now), records⟩ later rfl
  -- What the thread computes is the classification of a runtime with that topology and that store.
  have hconfig : (runtimeAfter SelfMove.transfer rt before).config = config :=
    (runtimeAfter_config rt before).trans (create_store hcreate).1
  have hclassify : Runtime.classify
      { runtimeAfter SelfMove.transfer rt before with topology := topology } subject window now
        = .ok assessment := by
    unfold Runtime.classify classifyWith requestFor windowRecords
    rw [if_neg hwindow, if_neg (by simp [hcontains])]
    dsimp only
    unfold windowQuery at hrecords
    rw [hconfig, hrecords]
    exact hclassified
  obtain ⟨own, hstore, haccepted, hmoves⟩ := exists_store_calls_of_played hcreate hplayed.before
  have hvouched := EvidenceStore.vouched_run config.limits own fun call hcall => by
    have hmove := hmoves call hcall
    cases call <;> exact hmove
  rw [← hstore] at hvouched
  obtain ⟨r, hsupports⟩ := supports_of_vouched hclassify hasserted hconfig hvouched haccepted
  subst hbefore
  refine ⟨earlier, between, later, topology, records, r, ?_, htopology.symm, ?_⟩
  · rw [hshape, (create_store hcreate).1]
  · rw [(create_store hcreate).1]
    exact hsupports

/-! ### Assertions -/

/-- The response hands an assessment of the subject to the thread. -/
inductive Assesses (subject : EvidenceSubject) (window : Duration) (now : Timestamp)
    (assessment : CongestionAssessment) : Request → Response → Prop where
  | classify : Assesses subject window now assessment (.classify subject window now)
      (.classified (.ok assessment))
  | evaluate (update : EpisodeUpdate) : Assesses subject window now assessment
      (.change (.evaluate subject window now)) (.changed (.evaluated (.ok (assessment, update))))

/-- An operation that hands out an assessment has classified. -/
theorem goes_of_assesses {snapshots : Option SnapshotStore} {assessment : CongestionAssessment}
    {request : Request} {response : Response}
    (h : Assesses subject window now assessment request response)
    {path : List (Program.Entry Section.Answer)}
    (hgoes : (operation config snapshots request).Goes path (.done response)) :
    ∃ first second, path = first ++ second ∧
      (Operation.classify config subject window now).Goes first (.done (.ok assessment)) := by
  cases h with
  | classify =>
      obtain ⟨result, first, second, rfl, hfirst, hsecond⟩ := Program.Goes.bind hgoes
      cases (Program.done.inj hsecond.done.2)
      exact ⟨first, second, rfl, hfirst⟩
  | evaluate update =>
      obtain ⟨result, first, second, rfl, hevaluate, hsecond⟩ := Program.Goes.bind hgoes
      cases (Program.done.inj hsecond.done.2)
      obtain ⟨classified, first, later, rfl, hfirst, hlater⟩ := Program.Goes.bind hevaluate
      refine ⟨first, later ++ second, List.append_assoc _ _ _, ?_⟩
      cases classified with
      | error e => cases Program.done.inj (Program.Goes.done hlater).2
      | ok assessment' =>
          obtain ⟨updated, _, last, _, _, hlast⟩ := Program.Goes.bind hlater
          cases updated with
          | error e => cases Program.done.inj (Program.Goes.done hlast).2
          | ok update' =>
              obtain ⟨_, _, _, _, _, hend⟩ := Program.Goes.bind hlast
              cases Program.done.inj (Program.Goes.done hend).2
              exact hfirst

/-- **An assertion is supported under every interleaving.** Whenever a classification or an
evaluation hands an assessment that asserts congestion to a thread, the store retained a record
that supports it at the moment the thread queried it, whatever the other threads did. -/
theorem threads_asserted_supported [DecidableEq ι] (config : RuntimeConfig) (rt : Runtime)
    (hcreate : create config = .ok rt) (turns : List (Turn ι (ThreadMove Request) Empty)) (i : ι)
    (request : Request) (response : Response)
    (hreturned : (some i, .returned request response)
      ∈ (runThreads SelfMove.transfer rt turns).history)
    (subject : EvidenceSubject) (window : Duration) (now : Timestamp)
    (assessment : CongestionAssessment)
    (hassesses : Assesses subject window now assessment request response)
    (hasserted : assessment.congestionAsserted = true) :
    Supported rt (runThreads SelfMove.transfer rt turns).history i subject window now := by
  obtain ⟨path, hgoes, hpath⟩ := Thread.returned_path (perform SelfMove.transfer) hreturned
  obtain ⟨first, second, rfl, hfirst⟩ := goes_of_assesses hassesses hgoes
  rw [(create_store hcreate).1] at hfirst
  rw [List.map_append] at hpath
  exact supported_of_goes hcreate (Thread.runAll_played (perform SelfMove.transfer) _ turns).2 hfirst
    ((List.sublist_append_left _ _).trans hpath) hasserted

/-- One thread ingests a drop of a tenant, and another one evaluates the tenant. The drop reaches
the store between the two sections in which the evaluation reads. -/
def dropTurns : List (Turn Bool (ThreadMove Request) Empty) :=
  [.party false (.invoke (.change (.ingest tenantDrop ⟨1000000000⟩))),
    .party true (.invoke (.change (.evaluate (.tenant (EntityId.unchecked (ascii "t1"))) ⟨10⟩
      ⟨1000000000⟩))),
    .party true .goOn, .party false .goOn, .party false .goOn, .party false .goOn,
    .party true .goOn, .party true .goOn, .party true .goOn, .party true .goOn, .party true .goOn,
    .party false .goOn, .party false .goOn]

/-- The evaluations of a history that assert congestion, with the threads they went to. -/
def assertions (history : History ι) : List (ι × EvidenceSubject × Duration × Timestamp) :=
  history.filterMap fun
    | (some i, .returned (.change (.evaluate subject window now))
        (.changed (.evaluated (.ok (assessment, _))))) =>
      if assessment.congestionAsserted then some (i, subject, window, now) else none
    | _ => none

theorem exists_of_mem_assertions (h : (i, subject, window, now) ∈ assertions history) :
    ∃ request response assessment, (some i, .returned request response) ∈ history ∧
      Assesses subject window now assessment request response ∧
      assessment.congestionAsserted = true := by
  obtain ⟨entry, hentry, hsome⟩ := List.mem_filterMap.mp h
  split at hsome
  · split at hsome
    · rename_i hasserted
      cases hsome
      exact ⟨_, _, _, hentry, Assesses.evaluate _, hasserted⟩
    · cases hsome
  · cases hsome

/-- The result at two threads. -/
theorem threads_asserted_supported_drop :
    Supported (initial {}) (runThreads SelfMove.transfer (initial {}) dropTurns).history true
      (.tenant (EntityId.unchecked (ascii "t1"))) ⟨10⟩ ⟨1000000000⟩ := by
  have hasserts : (true, .tenant (EntityId.unchecked (ascii "t1")), ⟨10⟩, ⟨1000000000⟩)
      ∈ assertions (runThreads SelfMove.transfer (initial {}) dropTurns).history := by
    decide +kernel
  obtain ⟨request, response, assessment, hreturned, hassesses, hasserted⟩ :=
    exists_of_mem_assertions hasserts
  exact threads_asserted_supported {} (initial {}) create_default dropTurns true request response
    hreturned _ _ _ assessment hassesses hasserted

/-! ### The episodes -/

/-- The section registers an episode of the key: it restores one, or it observes an assertion. -/
def Registers (id : EpisodeId) (key : EpisodeKey) : Program.Entry Section.Answer → Prop
  | ⟨.restore episode, status⟩ => (status : Status).isOk = true ∧ episode.id = id ∧ episode.key = key
  | ⟨.observe assessment _, result⟩ => (result : Result EpisodeUpdate).isOk = true ∧
      assessment.congestionAsserted = true ∧ EpisodeRegistry.keyOf assessment = key ∧
      computeEpisodeId key = id
  | _ => False

theorem find?_observe {r : EpisodeRegistry} {assessment : CongestionAssessment}
    {policy : EpisodePolicy} {id : EpisodeId} {e : Episode}
    (h : (r.observe assessment policy now).2.episodes.find? id = some e) :
    (∃ old, r.episodes.find? id = some old ∧ old.key = e.key) ∨
      ((r.observe assessment policy now).1.isOk = true ∧ assessment.congestionAsserted = true ∧
        EpisodeRegistry.keyOf assessment = e.key ∧ computeEpisodeId e.key = id) := by
  unfold EpisodeRegistry.observe at h ⊢
  split at h
  · exact Or.inl ⟨e, h, rfl⟩
  · rename_i hvalid
    split at h
    · refine Or.inl ?_
      rw [show (r.observeQuiet assessment now).2.episodes.find? id = _ from
        EpisodeRegistry.find?_observeQuiet assessment now] at h
      obtain ⟨old, hold, hquiet⟩ := Option.map_eq_some_iff.mp h
      refine ⟨old, hold, ?_⟩
      rw [← hquiet]
      split <;> rfl
    · rename_i hasserted
      rw [if_neg hvalid, if_neg hasserted]
      by_cases hid : computeEpisodeId (EpisodeRegistry.keyOf assessment) = id
      · rcases EpisodeRegistry.observeAsserted_cases r assessment now with ⟨hsame, -⟩ |
          ⟨old, hold, -, hok, hinsert⟩ | ⟨left, -, -, hok, hinsert⟩
        · rw [hsame] at h
          exact Or.inl ⟨e, h, rfl⟩
        · -- A known episode keeps its key when it is refreshed.
          rw [hinsert, hid, OrdMap.find?_insert_self] at h
          cases h
          exact Or.inl ⟨old, hid ▸ hold, rfl⟩
        · rw [hinsert, hid, OrdMap.find?_insert_self] at h
          cases h
          exact Or.inr ⟨hok, by simpa using hasserted, rfl, hid⟩
      · refine Or.inl ?_
        rcases EpisodeRegistry.observeAsserted_cases r assessment now with ⟨hsame, -⟩ |
          ⟨e', -, -, -, hinsert⟩ | ⟨left, -, hleft, -, hinsert⟩
        · rw [hsame] at h
          exact ⟨e, h, rfl⟩
        · rw [hinsert, OrdMap.find?_insert, if_neg (Ne.symm hid)] at h
          exact ⟨e, h, rfl⟩
        · rw [hinsert, OrdMap.find?_insert, if_neg (Ne.symm hid)] at h
          rcases hleft with rfl | ⟨gone, -, -, rfl⟩
          · exact ⟨e, h, rfl⟩
          · rw [OrdMap.find?_erase] at h
            split at h
            · cases h
            · exact ⟨e, h, rfl⟩

/-- An episode of the key was there before a section, or the section registers it. -/
theorem registers_of_find? {k : Section} {rt : Runtime} {id : EpisodeId} {e : Episode}
    (h : (performOn move k rt).2.registry.episodes.find? id = some e) :
    (∃ old, rt.registry.episodes.find? id = some old ∧ old.key = e.key) ∨
      Registers id e.key ⟨k, (performOn move k rt).1⟩ := by
  cases k with
  | observe assessment now => exact @find?_observe now rt.registry assessment rt.config.episode id e h
  | restore episode =>
      rcases EpisodeRegistry.restore_cases rt.registry episode with hsame | ⟨hok, hinsert, -⟩
      · rw [show (performOn move (.restore episode) rt).2.registry.episodes = _ from hsame] at h
        exact Or.inl ⟨e, h, rfl⟩
      · rw [show (performOn move (.restore episode) rt).2.registry.episodes = _ from hinsert,
          OrdMap.find?_insert] at h
        split at h
        · next hid =>
            cases h
            exact Or.inr ⟨hok, hid.symm, rfl⟩
        · exact Or.inl ⟨e, h, rfl⟩
  | advance now token =>
      have hold : ∃ old, rt.registry.episodes.find? id = some old := by
        refine Option.ne_none_iff_exists'.mp fun hnone => ?_
        have hgone := (EpisodeRegistry.find?_advance_none now rt.config.episode token).mpr hnone
        rw [show (performOn move (.advance now token) rt).2.registry.episodes.find? id = none from
          hgone] at h
        cases h
      obtain ⟨old, hold⟩ := hold
      refine Or.inl ⟨old, hold, ?_⟩
      rcases EpisodeRegistry.find?_advance hold h with rfl | ⟨next, kind, -, -, rfl⟩
      · rfl
      · rfl
  | _ => exact Or.inl ⟨e, h, rfl⟩

/-- Every episode was registered by a section. -/
theorem exists_registration {rt : Runtime} (hempty : rt.registry.episodes = OrdMap.empty)
    {history : History ι} (hplayed : Thread.Played (perform move) { runtime := rt } history)
    {id : EpisodeId} {e : Episode}
    (h : (runtimeAfter move rt history).registry.episodes.find? id = some e) :
    ∃ before i entry later, history = before ++ (some i, .performed entry) :: later ∧
      Registers id e.key entry := by
  have hstep : ∀ k (s : SharedRuntime),
      (∃ new, (perform move k s).2.runtime.registry.episodes.find? id = some new ∧
        new.key = e.key) →
      (∃ old, s.runtime.registry.episodes.find? id = some old ∧ old.key = e.key) ∨
        Registers id e.key ⟨k, (perform move k s).1⟩ := by
    rintro k s ⟨new, hnew, hkey⟩
    rw [← hkey]
    exact registers_of_find? hnew
  rcases hplayed.established (perform move)
      (fun s => ∃ old, s.runtime.registry.episodes.find? id = some old ∧ old.key = e.key)
      (Registers id e.key) hstep ⟨e, h, rfl⟩ with ⟨old, hfirst, -⟩ | hregistered
  · rw [hempty, OrdMap.find?_empty] at hfirst
    cases hfirst
  · exact hregistered

/-! ### What an operation is about -/

/-- What the sections of an operation that are not shared with the others are about. -/
inductive Part where
  | admission
  | observation
  | rebuild
  | restoration
  | rest

/-- The part of a section. -/
def Section.part : Section → Part
  | ingest _ _ _ | countIngest _ => .admission
  | observe _ _ | countUpdate _ => .observation
  | replaceGraph _ => .rebuild
  | restore _ => .restoration
  | _ => .rest

/-- The part of an operation. -/
def Request.part : Request → Part
  | .change (.ingest _ _) => .admission
  | .change (.evaluate _ _ _) => .observation
  | .change (.load _) | .change (.admitTopology _) | .change .rebuildCausalGraph => .rebuild
  | _ => .rest

/-- The episodes that an operation may restore: those of the snapshot it loads. -/
def Request.episodes (config : RuntimeConfig) (snapshots : Option SnapshotStore) :
    Request → List Episode
  | .change (.load files) =>
    (snapshots.map fun s => (s.load config.classification files).content.episodes).getD []
  | _ => []

section

open Program (Only)

variable (config : RuntimeConfig)

theorem only_act {P : Section → Prop} {k : Section} (h : P k) : (Operation.act k).Only P :=
  Only.bind (Only.ask h) fun _ => trivial

variable {P : Section → Prop} (hrest : ∀ k : Section, k.part = .rest → P k)

include hrest

theorem only_ingest (hown : ∀ k : Section, k.part = .admission → P k) (record : EvidenceRecord)
    (now : Timestamp) : (Operation.ingest record now).Only P := by
  refine Only.bind (Only.ask (k := Section.isShuttingDown) (hrest _ rfl)) fun down => ?_
  split
  · trivial
  · refine Only.bind (Only.ask (k := Section.currentTopology) (hrest _ rfl)) fun topology => ?_
    refine Only.bind (Only.ask (k := Section.ingest record now topology) (hown _ rfl))
      fun result => ?_
    exact Only.bind (only_act (hown _ rfl)) fun _ => trivial

theorem only_ingestRecovered (record : EvidenceRecord) :
    (Operation.ingestRecovered record).Only P := by
  refine Only.bind (Only.ask (k := Section.ingestRecovered record) (hrest _ rfl)) fun result => ?_
  cases result with
  | error e => exact Only.bind (only_act (hrest _ rfl)) fun _ => trivial
  | ok outcome => trivial

theorem only_rebuildCausalGraph (hown : ∀ k : Section, k.part = .rebuild → P k) :
    (Operation.rebuildCausalGraph config).Only P := by
  refine Only.bind (Only.ask (k := Section.currentTopology) (hrest _ rfl)) fun topology => ?_
  refine Only.bind (Only.ask (k := Section.query _) (hrest _ rfl)) fun records => ?_
  split
  · trivial
  · exact Only.bind (only_act (hown _ rfl)) fun _ => trivial

theorem only_classify (subject : EvidenceSubject) (window : Duration) (now : Timestamp) :
    (Operation.classify config subject window now).Only P := by
  unfold Operation.classify
  split
  · trivial
  · refine Only.bind (Only.ask (k := Section.currentTopology) (hrest _ rfl)) fun topology => ?_
    split
    · exact Only.bind (only_act (hrest _ rfl)) fun _ => trivial
    · refine Only.bind (Only.ask (k := Section.query _) (hrest _ rfl)) fun records => ?_
      exact Only.bind (only_act (hrest _ rfl)) fun _ => trivial

theorem only_evaluate (hown : ∀ k : Section, k.part = .observation → P k)
    (subject : EvidenceSubject) (window : Duration) (now : Timestamp) :
    (Operation.evaluate config subject window now).Only P := by
  refine Only.bind (only_classify config hrest subject window now) fun classified => ?_
  cases classified with
  | error e => trivial
  | ok assessment =>
      refine Only.bind (Only.ask (k := Section.observe assessment now) (hown _ rfl))
        fun observed => ?_
      cases observed with
      | error e => trivial
      | ok update => exact Only.bind (only_act (hown _ rfl)) fun _ => trivial

omit hrest in
theorem only_restoreAll {episodes : List Episode} (hown : ∀ e ∈ episodes, P (.restore e))
    (stale : Nat) : (Operation.restoreAll stale episodes).Only P := by
  induction episodes generalizing stale with
  | nil => trivial
  | cons episode rest ih =>
      obtain ⟨hfirst, hmore⟩ := List.forall_mem_cons.mp hown
      refine Only.bind (Only.ask (k := Section.restore episode) hfirst) fun status => ?_
      cases status with
      | ok => exact ih hmore stale
      | error e =>
          dsimp only
          split
          · exact ih hmore (stale + 1)
          · trivial

theorem only_recoverAll (records : List EvidenceRecord) : (Operation.recoverAll records).Only P := by
  induction records with
  | nil => trivial
  | cons record rest ih =>
      refine Only.bind (Only.ask (k := Section.ingestRecovered record) (hrest _ rfl))
        fun result => ?_
      cases result with
      | error e => trivial
      | ok outcome => exact ih

theorem only_apply (hown : ∀ k : Section, k.part = .rebuild → P k) {loaded : LoadReport}
    (hrestore : ∀ e ∈ loaded.content.episodes, P (.restore e)) :
    (Operation.apply config loaded).Only P := by
  refine Only.bind (only_act (hrest _ rfl)) fun _ => ?_
  refine Only.bind (only_restoreAll hrestore 0) fun restored => ?_
  cases restored with
  | error e => trivial
  | ok stale =>
      refine Only.bind (only_recoverAll hrest _) fun recovered => ?_
      cases recovered with
      | error e => trivial
      | ok =>
          refine Only.bind (only_act (hrest _ rfl)) fun _ => ?_
          refine Only.bind (only_rebuildCausalGraph config hrest hown) fun rebuilt => ?_
          cases rebuilt with
          | error e => trivial
          | ok => exact Only.bind (only_act (hrest _ rfl)) fun _ => trivial

theorem only_load (hown : ∀ k : Section, k.part = .rebuild → P k)
    {snapshots : Option SnapshotStore} {files : SnapshotFiles}
    (hrestore : ∀ e ∈ (Request.change (.load files)).episodes config snapshots, P (.restore e)) :
    (Operation.load config snapshots files).Only P := by
  cases snapshots with
  | none => trivial
  | some snapshots =>
      unfold Operation.load
      dsimp only
      split
      · exact Only.bind (only_act (hrest _ rfl)) fun _ => trivial
      · exact only_apply config hrest hown hrestore

theorem only_runMaintenance (now : Timestamp) (advanceToken sweepToken : CancellationToken) :
    (Operation.runMaintenance config now advanceToken sweepToken).Only P := by
  refine Only.bind (Only.ask (k := Section.advance now advanceToken) (hrest _ rfl))
    fun advanced => ?_
  cases advanced with
  | error e => trivial
  | ok updates =>
      refine Only.bind (only_act (hrest _ rfl)) fun _ => ?_
      refine Only.bind (Only.ask (k := Section.sweep _ _ sweepToken) (hrest _ rfl)) fun swept => ?_
      cases swept with
      | error e => trivial
      | ok swept => trivial

/-- An operation enters the sections of its part, those of no operation in particular, and a load
restores the episodes of its snapshot. -/
theorem only_operation {snapshots : Option SnapshotStore} {request : Request}
    (hown : ∀ k : Section, k.part = request.part → P k)
    (hrestore : ∀ e ∈ request.episodes config snapshots, P (.restore e)) :
    (operation config snapshots request).Only P := by
  cases request with
  | classify subject window now =>
      exact Only.bind (only_classify config hrest subject window now) fun _ => trivial
  | change call =>
      cases call with
      | ingest record now => exact Only.bind (only_ingest hrest hown record now) fun _ => trivial
      | ingestRecovered record => exact Only.bind (only_ingestRecovered hrest record) fun _ => trivial
      | load files => exact Only.bind (only_load config hrest hown hrestore) fun _ => trivial
      | admitTopology topology =>
          exact Only.bind (Only.bind (only_act (hrest _ rfl))
            fun _ => only_rebuildCausalGraph config hrest hown) fun _ => trivial
      | rebuildCausalGraph =>
          exact Only.bind (only_rebuildCausalGraph config hrest hown) fun _ => trivial
      | advanceEpisodes now token =>
          exact Only.bind (Only.ask (k := Section.advance now token) (hrest _ rfl)) fun _ => trivial
      | runMaintenance now advanceToken sweepToken =>
          exact Only.bind (only_runMaintenance config hrest now advanceToken sweepToken)
            fun _ => trivial
      | evaluate subject window now =>
          exact Only.bind (only_evaluate config hrest hown subject window now) fun _ => trivial
      | requestShutdown => exact Only.bind (only_act (hrest _ rfl)) fun _ => trivial

end

section

variable {config : RuntimeConfig} {snapshots : Option SnapshotStore} {request : Request}
  {path : List (Program.Entry Section.Answer)}

/-- The section is of the part, or it is a restoration or of no operation in particular. -/
def Concerns (part : Part) (k : Section) : Prop :=
  k.part = part ∨ k.part = .restoration ∨ k.part = .rest

theorem concerns_rest {part : Part} (k : Section) (h : k.part = .rest) : Concerns part k :=
  Or.inr (Or.inr h)

theorem concerns_restore {part : Part} (episodes : List Episode) :
    ∀ e ∈ episodes, Concerns part (.restore e) := fun _ _ => Or.inr (Or.inl rfl)

theorem ne_of_concerns {part other : Part} {k : Section} (h : Concerns part k) (hne : other ≠ part)
    (hrestoration : other ≠ .restoration) (hrest : other ≠ .rest) : k.part ≠ other := by
  rintro rfl
  rcases h with hpart | hrestore | hnone
  · exact hne hpart
  · exact hrestoration hrestore
  · exact hrest hnone

theorem not_concerns {part : Part} {k : Section} (hpart : k.part ≠ part)
    (hrestoration : k.part ≠ .restoration) (hrest : k.part ≠ .rest) : ¬ Concerns part k :=
  fun h => ne_of_concerns h hpart hrestoration hrest rfl

variable (config snapshots request) in
theorem concerns_operation : (operation config snapshots request).Only (Concerns request.part) :=
  only_operation config concerns_rest (fun _ h => Or.inl h) (concerns_restore _)

/-- An operation that is about to enter a section of a part is of that part. -/
theorem part_of_goes {k : Section} {rest : k.Answer → Operation Response}
    (hgoes : (operation config snapshots request).Goes path (.enter k rest))
    (hrestoration : k.part ≠ .restoration) (hrest : k.part ≠ .rest) : request.part = k.part := by
  rcases (concerns_operation config snapshots request).entered hgoes with hpart | hrestore | hnone
  · exact hpart.symm
  · exact absurd hrestore hrestoration
  · exact absurd hnone hrest

/-- An operation that is about to restore an episode is a load of a snapshot with it. -/
theorem goes_restore {episode : Episode} {rest : Status → Operation Response}
    (h : (operation config snapshots request).Goes path (.enter (.restore episode) rest)) :
    ∃ files store, request = .change (.load files) ∧ snapshots = some store ∧
      episode ∈ (store.load config.classification files).content.episodes := by
  have honly : (operation config snapshots request).Only
      fun k => k.part = .restoration → ∃ e ∈ request.episodes config snapshots, k = .restore e := by
    refine only_operation config (fun k hrest hpart => ?_) (fun k hpart hrestoration => ?_)
      fun e he _ => ⟨e, he, rfl⟩
    · rw [hrest] at hpart
      cases hpart
    · rw [hrestoration] at hpart
      cases request with
      | classify subject window now => cases hpart
      | change call => cases call <;> cases hpart
  obtain ⟨e, he, hsame⟩ := honly.entered h rfl
  obtain rfl := Section.restore.inj hsame
  cases request with
  | classify subject window now => cases he
  | change call =>
      cases call with
      | load files =>
          cases snapshots with
          | none => cases he
          | some store => exact ⟨files, store, rfl, rfl, he⟩
      | _ => cases he

end

/-- An operation that is about to observe is an evaluation that has classified. -/
theorem goes_observe {config : RuntimeConfig} {snapshots : Option SnapshotStore} {request : Request}
    {path : List (Program.Entry Section.Answer)} {assessment : CongestionAssessment} {now : Timestamp}
    {rest : Result EpisodeUpdate → Operation Response}
    (h : (operation config snapshots request).Goes path (.enter (.observe assessment now) rest)) :
    ∃ subject window, request = .change (.evaluate subject window now) ∧
      (Operation.classify config subject window now).Goes path (.done (.ok assessment)) := by
  have hpart : request.part = .observation := part_of_goes h Part.noConfusion Part.noConfusion
  have hobserves : ¬ Concerns .rest (.observe assessment now) :=
    not_concerns Part.noConfusion Part.noConfusion Part.noConfusion
  cases request with
  | classify subject window now => cases hpart
  | change call =>
      cases call with
      | evaluate subject window now' =>
          obtain ⟨rest', hevaluate⟩ := Program.Only.enter_first (P := Concerns .rest)
            (fun _ => Program.Only.pure _) hobserves h
          obtain ⟨classified, first, second, rfl, hclassify, hobserve⟩ :=
            (only_classify config concerns_rest subject window now').enter_second hobserves hevaluate
          cases classified with
          | error e => cases (Program.Goes.done hobserve).2
          | ok assessment' =>
              rcases Program.Goes.bind_enter hobserve with ⟨rest'', henter⟩ |
                ⟨updated, _, second', _, _, hcount⟩
              · obtain ⟨rfl, hsame⟩ :=
                  Program.Goes.ask_enter (k := Section.observe assessment' now') henter
                obtain ⟨rfl, rfl⟩ := Section.observe.inj hsame
                refine ⟨subject, window, rfl, ?_⟩
                rwa [List.append_nil]
              · cases updated with
                | error e => cases (Program.Goes.done hcount).2
                | ok update =>
                    have hcounts : (Operation.act (.countUpdate update.kind)).Only
                        fun k => k = .countUpdate update.kind := only_act rfl
                    cases (Program.Only.bind hcounts fun _ => Program.Only.pure _).entered hcount
      | _ => cases hpart

/-- The shared runtime of a run of threads is the one after the sections of its history. -/
theorem runThreads_played [DecidableEq ι] {rt : Runtime}
    (turns : List (Turn ι (ThreadMove Request) Empty)) :
    (runThreads move rt turns).shared.runtime = runtimeAfter move rt (runThreads move rt turns).history ∧
      Thread.Played (perform move) { runtime := rt } (runThreads move rt turns).history := by
  obtain ⟨hshared, hplayed⟩ := @Thread.runAll_played ι _ _ _ _ _
    (operation rt.config rt.snapshotStore) (perform move) _ { runtime := rt } turns
  exact ⟨congrArg SharedRuntime.runtime hshared, hplayed⟩

/-- A created runtime has an empty registry. -/
theorem create_registry {config : RuntimeConfig} {rt : Runtime} (h : create config = .ok rt) :
    rt.registry = { limits := config.limits } := by
  obtain ⟨-, hrest⟩ := seq_eq_ok.mp h
  obtain ⟨-, hrest⟩ := seq_eq_ok.mp hrest
  obtain ⟨-, hrest⟩ := seq_eq_ok.mp hrest
  rw [pure_eq_ok] at hrest
  rw [hrest]
  split <;> rfl

theorem exists_of_isOk {ε α : Type} {x : Except ε α} (h : x.isOk = true) : ∃ a, x = .ok a := by
  cases x with
  | error e => cases h
  | ok a => exact ⟨a, rfl⟩

/-- An assessment is about the subject it was asked for. -/
theorem subject_of_goes {config : RuntimeConfig} {subject : EvidenceSubject} {window : Duration}
    {path : List (Program.Entry Section.Answer)} {assessment : CongestionAssessment}
    (h : (Operation.classify config subject window now).Goes path (.done (.ok assessment))) :
    assessment.subject = subject := by
  obtain ⟨topology, records, answer, -, -, -, hclassified⟩ := goes_classify h
  rw [(subject_of_classifySubject hclassified).2]
  exact (RuleEngine.faithful_run _ _).subject

/-- A thread restored an episode of the key. It was within a load, and the episode is one of the
snapshot. -/
def Restored (rt : Runtime) (history : History ι) (id : EpisodeId) (key : EpisodeKey) : Prop :=
  ∃ before later i files store path episode, ∃ rest : Status → Operation Response,
    history
      = before ++ (some i, .performed ⟨.restore episode, (Except.ok () : Status)⟩) :: later ∧
    (operation rt.config rt.snapshotStore (.change (.load files))).Goes path
      (.enter (.restore episode) rest) ∧
    ((some i, .invoked (.change (.load files))) :: path.map fun e => (some i, .performed e)).Sublist
      before ∧
    rt.snapshotStore = some store ∧
    episode ∈ (store.load rt.config.classification files).content.episodes ∧
    episode.id = id ∧ episode.key = key

/-- A thread observed an assertion of the key, and the assertion was supported. -/
def Observed (rt : Runtime) (history : History ι) (id : EpisodeId) (key : EpisodeKey) : Prop :=
  ∃ i window now assessment update,
    (some i, .performed ⟨.observe assessment now, (Except.ok update : Result EpisodeUpdate)⟩)
      ∈ history ∧
    assessment.congestionAsserted = true ∧
    key = EpisodeRegistry.keyOf assessment ∧ key.scope = assessment.subject ∧
    id = computeEpisodeId key ∧
    Supported rt history i assessment.subject window now

/-- **Every episode is supported under every interleaving.** It was restored from a snapshot by a
load, or a thread observed an assessment that asserts congestion about its scope, and that
assessment was supported. -/
theorem threads_episodes_supported [DecidableEq ι] (config : RuntimeConfig) (rt : Runtime)
    (hcreate : create config = .ok rt) (turns : List (Turn ι (ThreadMove Request) Empty))
    (id : EpisodeId) (e : Episode)
    (hfind : (runThreads SelfMove.transfer rt turns).shared.runtime.registry.episodes.find? id
      = some e) :
    Restored rt (runThreads SelfMove.transfer rt turns).history id e.key ∨
      Observed rt (runThreads SelfMove.transfer rt turns).history id e.key := by
  have hempty : rt.registry.episodes = OrdMap.empty := by
    rw [create_registry hcreate]
  obtain ⟨hshared, hplayed⟩ := @runThreads_played ι SelfMove.transfer _ rt turns
  rw [hshared] at hfind
  obtain ⟨before, i, ⟨k, answer⟩, later, hhistory, hregisters⟩ :=
    exists_registration hempty hplayed hfind
  obtain ⟨request, path, rest, hgoes, hpath⟩ :=
    Thread.performed_path (perform SelfMove.transfer) hhistory
  cases k with
  | restore episode =>
      obtain ⟨hok, hid, hkey⟩ := hregisters
      obtain ⟨u, rfl⟩ := exists_of_isOk hok
      obtain ⟨files, store, rfl, hstore, hepisode⟩ := goes_restore hgoes
      exact Or.inl ⟨before, later, i, files, store, path, episode, rest, hhistory, hgoes, hpath,
        hstore, hepisode, hid, hkey⟩
  | observe assessment now =>
      obtain ⟨hok, hasserted, hkey, hid⟩ := hregisters
      obtain ⟨update, rfl⟩ := exists_of_isOk hok
      obtain ⟨subject, window, rfl, hclassify⟩ := goes_observe hgoes
      rw [(create_store hcreate).1] at hclassify
      have hsupported := supported_of_goes hcreate (hhistory ▸ hplayed).before hclassify
        ((List.sublist_cons_self _ _).trans hpath) hasserted
      rw [← subject_of_goes hclassify] at hsupported
      refine Or.inr ⟨i, window, now, assessment, update, ?_, hasserted, hkey.symm, ?_, hid.symm, ?_⟩
      · rw [hhistory]
        exact List.mem_append_right _ List.mem_cons_self
      · rw [← hkey]
        rfl
      · rw [hhistory]
        exact hsupported.append
  | _ => exact hregisters.elim

/-- The result at two threads. -/
theorem threads_episodes_supported_drop :
    ∃ id e, (runThreads SelfMove.transfer (initial {}) dropTurns).shared.runtime.registry.episodes.find?
        id = some e ∧
      (Restored (initial {}) (runThreads SelfMove.transfer (initial {}) dropTurns).history id e.key ∨
        Observed (initial {}) (runThreads SelfMove.transfer (initial {}) dropTurns).history id
          e.key) := by
  have hepisodes : (runThreads SelfMove.transfer (initial {})
      dropTurns).shared.runtime.registry.episodes.entries.isEmpty = false := by
    decide +kernel
  obtain ⟨⟨id, e⟩, hentry⟩ := List.exists_mem_of_ne_nil _ (List.isEmpty_eq_false_iff.mp hepisodes)
  have hfind := OrdMap.find?_eq_some_iff.mpr hentry
  exact ⟨id, e, hfind, threads_episodes_supported {} (initial {}) create_default dropTurns id e hfind⟩

end Runtime

end CongestionObservatory
