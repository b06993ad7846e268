import CongestionObservatory.Proofs.Persistence.RoundTrip

/-!
# `CongestionObservatory.Proofs.Persistence.Accepted`: what the reader can return

Whatever bytes the reader is given, it reads every length from 32 bits. So everything it returns is
`Prefixed`: no text, list or collection of it has `2 ^ 32` elements. One `Yields` lemma for each
record says this, from the fields up.

For the topology section this settles the round trip. A topology survives exactly when it is
`Prefixed` and `Accepted` and no node has more than 64 labels: the writer stops after 64 labels, and
the topology that is read back has only these (`decodeTopologySection_eq_self_iff`).
-/

set_option autoImplicit false

namespace CongestionObservatory

open Lib ByteReader

namespace ByteReader

section

variable (limits : Limits)

theorem yields_text : Yields (text limits) fun value => value.length < 2 ^ 32 := by
  refine Yields.bind (Yields.any u32) fun length _ => Yields.bind (Yields.any _) fun running _ => ?_
  split
  · refine Yields.bind (Yields.any _) fun left _ => ?_
    split
    · exact Yields.bind (Yields.any _) fun _ _ => Yields.pure (by decide)
    · intro c value c' h
      cases h
      have hlength := length.toNat_lt
      rw [List.length_take]
      omega
  · exact Yields.pure (by decide)

theorem yields_count (bound : Nat) (what : String) : Yields (count bound what) fun n => n < 2 ^ 32 := by
  refine Yields.bind (Yields.any u32) fun value _ => Yields.bind (Yields.any _) fun running _ => ?_
  split
  · split
    · exact Yields.bind (Yields.any _) fun _ _ => Yields.pure (by decide)
    · exact Yields.pure value.toNat_lt
  · exact Yields.pure (by decide)

theorem yields_times {α : Type} {read : ByteReader α} {P : α → Prop} (h : Yields read P) (n : Nat) :
    Yields (times n read) fun l => l.length ≤ n ∧ ∀ a ∈ l, P a := by
  have hloop := Yields.loop (fun k (l : List α) => l.length ≤ k ∧ ∀ a ∈ l, P a)
    (fun k l hl => ⟨hl.1.trans (Nat.le_succ k), hl.2⟩)
    (fun k l hl => h.bind fun a ha => Yields.pure (a := l ++ [a])
      ⟨by simpa using hl.1, List.forall_mem_append.mpr ⟨hl.2, by simpa using ha⟩⟩)
    n (k := 0) (b := []) ⟨le_refl _, by simp⟩
  rw [Nat.zero_add] at hloop
  exact hloop

theorem yields_list {α : Type} {read : ByteReader α} {P : α → Prop} (h : Yields read P)
    (bound : Nat) (what : String) :
    Yields (list bound what read) fun l => l.length < 2 ^ 32 ∧ ∀ a ∈ l, P a :=
  (yields_count bound what).bind fun n hn c l c' hrun =>
    ⟨lt_of_le_of_lt (yields_times h n c l c' hrun).1 hn, (yields_times h n c l c' hrun).2⟩

end

end ByteReader

theorem yields_readWhole {α : Type} {name : String} {read : ByteReader α} {bytes : Text} {a : α}
    {P : α → Prop} (h : Yields read P) (hread : readWhole name read bytes = .ok a) : P a :=
  h _ _ _ (readWhole_eq_ok.mp hread)

/-! ### Records -/

section

variable (limits : Limits)

theorem yields_readMetadataEntry : Yields (readMetadataEntry limits) fun entry =>
    entry.1.length < 2 ^ 32 ∧ entry.2.length < 2 ^ 32 := by
  refine (yields_text limits).bind fun key hkey => (yields_text limits).bind fun value hvalue => ?_
  split
  · exact Yields.throw _
  · exact Yields.pure ⟨hkey, hvalue⟩

theorem yields_readProvenance : Yields (readProvenance limits) fun p =>
    p.transport.length < 2 ^ 32 ∧ p.collector.length < 2 ^ 32 := by
  refine Yields.seq (Yields.seq (Yields.seq (Yields.map (Yields.any _) ?_) (Yields.any _))
    (yields_text limits)) (yields_text limits)
  intro source _ authority _ transport htransport collector hcollector
  exact ⟨htransport, hcollector⟩

theorem yields_readEvidenceFields : Yields (readEvidenceFields limits) EvidenceRecord.Prefixed := by
  refine Yields.seq (Yields.seq (Yields.seq (Yields.seq (Yields.seq (Yields.seq (Yields.seq
    (Yields.seq (Yields.seq (Yields.seq (Yields.seq (Yields.seq (Yields.seq (Yields.seq (Yields.seq
    (Yields.seq (Yields.map (Yields.any _) ?_) (Yields.any _)) (Yields.any _))
    (yields_readProvenance limits)) (Yields.any _)) (Yields.any _)) (Yields.any _)) (Yields.any _))
    (Yields.any _)) (Yields.any _)) (Yields.any _)) (Yields.any _)) (Yields.any _)) (Yields.any _))
    (yields_text limits)) (yields_list (Yields.any _) _ _))
    (yields_list (yields_readMetadataEntry limits) _ _)
  intro id _ kind _ subject _ provenance hprovenance fence _ observedAt _ receivedAt _ clock _
    value _ validity _ completeness _ support _ recovered _ retired _ note hnote labels hlabels
    metadata hmetadata
  refine ⟨EvidenceRecord.forall_texts.mpr ?_, hlabels.1, hmetadata.1⟩
  exact ⟨subject.length_str_lt, provenance.source.name.length_str_lt, hprovenance.1,
    hprovenance.2, fence.source.name.length_str_lt, hnote, fun label _ => label.length_str_lt,
    hmetadata.2⟩

theorem yields_readEvidence : Yields (readEvidence limits) EvidenceRecord.Prefixed := by
  refine (yields_readEvidenceFields limits).bind fun r hr => (Yields.any _).bind fun _ _ => ?_
  split
  · exact Yields.throw _
  · exact Yields.pure hr

/-- The number of citations of each assessment fits the 32 bits it is stored in. -/
def Episode.CitationCountsFit (e : Episode) : Prop :=
  ∀ d ∈ e.assessments, d.citationCount < 2 ^ 32

theorem yields_readEpisodeKey : Yields (readEpisodeKey limits) fun key =>
    key.policyVersion.length < 2 ^ 32 := by
  refine Yields.seq (Yields.seq (Yields.seq (Yields.seq (Yields.map (Yields.any _) ?_)
    (Yields.any _)) (Yields.any _)) (Yields.any _)) (yields_text limits)
  exact fun _ _ _ _ _ _ _ _ _ hversion => hversion

theorem yields_readTransition : Yields (readTransition limits) fun t =>
    t.cause.length < 2 ^ 32 ∧ t.citations.length < 2 ^ 32 := by
  refine Yields.seq (Yields.seq (Yields.seq (Yields.seq (Yields.seq (Yields.seq (Yields.seq
    (Yields.seq (Yields.seq (Yields.map (Yields.any _) ?_) (Yields.any _)) (Yields.any _))
    (Yields.any _)) (Yields.any _)) (Yields.any _)) (Yields.any _)) (Yields.any _))
    (yields_text limits)) (yields_list (Yields.any _) _ _)
  exact fun _ _ _ _ _ _ _ _ _ _ _ _ _ _ _ _ _ hcause _ hcitations => ⟨hcause, hcitations.1⟩

theorem yields_readAssessmentDigest :
    Yields readAssessmentDigest fun d => d.citationCount < 2 ^ 32 := by
  refine Yields.seq (Yields.seq (Yields.seq (Yields.seq (Yields.seq (Yields.seq (Yields.seq
    (Yields.map (Yields.any _) ?_) (Yields.any _)) (Yields.any _)) (Yields.any _)) (Yields.any _))
    (Yields.any _)) (Yields.any _)) (Yields.any _)
  exact fun _ _ _ _ _ _ _ _ _ _ citationCount _ _ _ _ _ => citationCount.toNat_lt

theorem yields_readEpisodeFields : Yields (readEpisodeFields limits) fun e =>
    e.Prefixed ∧ e.CitationCountsFit := by
  refine Yields.seq (Yields.seq (Yields.seq (Yields.seq (Yields.seq (Yields.seq (Yields.seq
    (Yields.seq (Yields.seq (Yields.seq (Yields.seq (Yields.seq (Yields.seq (Yields.seq (Yields.seq
    (Yields.seq (Yields.seq (Yields.seq (Yields.map (Yields.any _) ?_)
    (yields_readEpisodeKey limits)) (Yields.any _)) (Yields.any _)) (Yields.any _)) (Yields.any _))
    (Yields.any _)) (Yields.any _)) (Yields.any _)) (Yields.any _)) (Yields.any _)) (Yields.any _))
    (yields_list (Yields.any _) _ _)) (yields_list (Yields.any _) _ _))
    (yields_list (yields_readTransition limits) _ _)) (yields_list yields_readAssessmentDigest _ _))
    (Yields.any _)) (Yields.any _)) (Yields.any _)
  intro id _ key hversion state _ revision _ currentSeverity _ peakSeverity _ confidence _
    firstSeen _ lastSeen _ lastUpdated _ resolvedAt _ observations _ citations hcitations
    sources hsources transitions htransitions assessments hassessments _ _ _ _ _ _
  refine ⟨⟨Episode.forall_texts.mpr ?_, hcitations.1, hsources.1, htransitions.1, hassessments.1,
    fun t ht => (htransitions.2 t ht).2⟩, hassessments.2⟩
  exact ⟨key.scope.length_str_lt, key.tenant.name.length_str_lt, hversion,
    fun source _ => source.name.length_str_lt, fun t ht => (htransitions.2 t ht).1⟩

theorem yields_readEpisode : Yields (readEpisode limits) fun e =>
    e.Prefixed ∧ e.CitationCountsFit := by
  refine (yields_readEpisodeFields limits).bind fun e he => (Yields.any _).bind fun _ _ => ?_
  split
  · exact Yields.throw _
  · exact Yields.pure he

theorem yields_readSnapshotMetadata : Yields (readSnapshotMetadata limits) fun m =>
    ∀ text ∈ m.texts, text.length < 2 ^ 32 := by
  refine Yields.seq (Yields.seq (Yields.seq (Yields.seq (Yields.seq (Yields.seq (Yields.seq
    (Yields.seq (Yields.seq (Yields.map (yields_text limits) ?_) (Yields.any _)) (Yields.any _))
    (Yields.any _)) (Yields.any _)) (Yields.any _)) (Yields.any _)) (Yields.any _)) (Yields.any _))
    (yields_text limits)
  intro version hversion _ _ _ _ _ _ _ _ _ _ _ _ _ _ _ _ producer hproducer
  simp only [SnapshotMetadata.texts, List.forall_mem_cons, List.not_mem_nil, false_imp_iff,
    implies_true, and_true]
  exact ⟨hversion, hproducer⟩

end

/-! ### The topology -/

section

variable {α : Type} {read : ByteReader α} {P : α → Prop}
  {add : TopologyBuilder → α → Result TopologyBuilder}

/-- An addition that succeeds puts one object into its collection. -/
def AddsOne (add : TopologyBuilder → α → Result TopologyBuilder)
    (put : OrdMap Name α → TopologyBuilder) : Prop :=
  ∀ m a b, add (put m) a = .ok b → ∃ k, b = put (m.emplace k a)

/-- At most `k` objects were added, all of them with the property. -/
def AddedAtMost (put : OrdMap Name α → TopologyBuilder) (P : α → Prop) (k : Nat)
    (b : TopologyBuilder) : Prop :=
  ∃ m : OrdMap Name α, m.size ≤ k ∧ (∀ v ∈ m.values, P v) ∧ b = put m

/-- The loop body of `addEach` adds at most one object. -/
theorem yields_addOne (put : OrdMap Name α → TopologyBuilder) (h : Yields read P)
    (hadd : AddsOne add put) {k : Nat} {b : TopologyBuilder} (hb : AddedAtMost put P k b) :
    Yields (do
      let object ← read
      match add b object with
      | .error e => throw e
      | .ok b => pure b) (AddedAtMost put P (k + 1)) := by
  obtain ⟨m, hsize, hP, rfl⟩ := hb
  refine h.bind fun a ha => ?_
  cases hresult : add (put m) a with
  | error e => exact Yields.throw e
  | ok b =>
      -- A name that is there already leaves the map as it was, so the size may stay behind `k`.
      obtain ⟨key, rfl⟩ := hadd m a b hresult
      refine Yields.pure ⟨m.emplace key a, ?_, fun v hv => ?_, rfl⟩
      · exact OrdMap.size_emplace_le (Nat.lt_succ_of_le hsize)
      · rcases OrdMap.mem_values_emplace hv with rfl | hv
        · exact ha
        · exact hP v hv

/-- A collection that is read and added has fewer than `2 ^ 32` objects, each as it was read. -/
theorem yields_addEach (put : OrdMap Name α → TopologyBuilder) (h : Yields read P)
    (hadd : AddsOne add put) (bound : Nat) (what : String) :
    Yields (addEach bound what read add (put OrdMap.empty)) fun b =>
      ∃ m : OrdMap Name α, m.size < 2 ^ 32 ∧ (∀ v ∈ m.values, P v) ∧ b = put m := by
  refine (yields_count bound what).bind fun n hn => ?_
  have hmono : ∀ k b, AddedAtMost put P k b → AddedAtMost put P (k + 1) b := by
    rintro k b ⟨m, hsize, hrest⟩
    exact ⟨m, hsize.trans (Nat.le_succ k), hrest⟩
  have hstart : AddedAtMost put P 0 (put OrdMap.empty) :=
    ⟨OrdMap.empty, le_refl _, by simp [OrdMap.values, OrdMap.empty], rfl⟩
  have hloop := Yields.loop (AddedAtMost put P) hmono (fun _ _ => yields_addOne put h hadd) n hstart
  rw [Nat.zero_add] at hloop
  intro c b c' hrun
  obtain ⟨m, hsize, hP, hb⟩ := hloop c b c' hrun
  exact ⟨m, lt_of_le_of_lt hsize hn, hP, hb⟩

end

theorem yields_readPath (limits : Limits) :
    Yields (readPath limits) fun path => path.hops.length < 2 ^ 32 := by
  refine Yields.seq (Yields.map (Yields.any _) ?_) (yields_list (Yields.any _) _ _)
  exact fun _ _ _ hhops => hhops.1

/-- The collections that are read and added, one after the other. -/
theorem yields_readTopology (limits : Limits) : Yields (readTopology limits) fun b =>
    b.assemble.Prefixed := by
  refine (Yields.any _).bind fun generation _ => (Yields.any _).bind fun label _ => ?_
  let b₀ : TopologyBuilder := { limits := limits, generation := generation, revisionLabel := label }
  -- One collection after the other: each adds to its own map, and the maps before it stay as they
  -- are.
  refine (yields_addEach (fun m => { b₀ with nodes := m }) (Yields.any _) ?_ _ _).bind ?_
  · intro m a b h
    obtain ⟨-, -, -, rfl⟩ := TopologyBuilder.addNode_eq_ok.mp h
    exact ⟨_, rfl⟩
  rintro _ ⟨nodes, hnodes, -, rfl⟩
  refine (yields_addEach (fun m => { b₀ with nodes := nodes, ports := m }) (Yields.any _) ?_ _
    _).bind ?_
  · intro m a b h
    obtain ⟨-, -, -, -, rfl⟩ := TopologyBuilder.addPort_eq_ok.mp h
    exact ⟨_, rfl⟩
  rintro _ ⟨ports, hports, -, rfl⟩
  refine (yields_addEach (fun m => { b₀ with nodes := nodes, ports := ports, links := m })
    (Yields.any _) ?_ _ _).bind ?_
  · intro m a b h
    obtain ⟨-, -, -, -, rfl⟩ := TopologyBuilder.addLink_eq_ok.mp h
    exact ⟨_, rfl⟩
  rintro _ ⟨links, hlinks, -, rfl⟩
  refine (yields_addEach
    (fun m => { b₀ with nodes := nodes, ports := ports, links := links, queues := m })
    (Yields.any _) ?_ _ _).bind ?_
  · intro m a b h
    obtain ⟨-, -, -, -, rfl⟩ := TopologyBuilder.addQueue_eq_ok.mp h
    exact ⟨_, rfl⟩
  rintro _ ⟨queues, hqueues, -, rfl⟩
  refine (yields_addEach
    (fun m => { b₀ with nodes := nodes, ports := ports, links := links, queues := queues
                        buffers := m }) (Yields.any _) ?_ _ _).bind ?_
  · intro m a b h
    obtain ⟨-, -, -, rfl⟩ := TopologyBuilder.addBuffer_eq_ok.mp h
    exact ⟨_, rfl⟩
  rintro _ ⟨buffers, hbuffers, -, rfl⟩
  refine (yields_addEach
    (fun m => { b₀ with nodes := nodes, ports := ports, links := links, queues := queues
                        buffers := buffers, paths := m }) (yields_readPath limits) ?_ _ _).bind ?_
  · intro m a b h
    obtain ⟨-, -, -, -, -, rfl⟩ := TopologyBuilder.addPath_eq_ok.mp h
    exact ⟨_, rfl⟩
  rintro _ ⟨paths, hpaths, hhops, rfl⟩
  -- The last collection has no continuation, so its yield is used directly.
  let put (m : OrdMap Name Flow) : TopologyBuilder :=
    { b₀ with nodes := nodes, ports := ports, links := links, queues := queues
              buffers := buffers, paths := paths, flows := m }
  have hadd : AddsOne TopologyBuilder.addFlow put := by
    intro m a b h
    obtain ⟨-, -, -, rfl⟩ := TopologyBuilder.addFlow_eq_ok.mp h
    exact ⟨_, rfl⟩
  have hflow := yields_addEach put (Yields.any (readFlow limits)) hadd limits.maxFlows
    "flow count exceeds the limit"
  intro c b c' hrun
  obtain ⟨flows, hflows, -, rfl⟩ := hflow c b c' hrun
  exact ⟨hnodes, hports, hlinks, hqueues, hbuffers, hpaths, hflows, hhops⟩

theorem prefixed_of_decodeTopologySection {bytes : Text} {limits : Limits} {t : Topology}
    (h : decodeTopologySection bytes limits = .ok t) : t.Prefixed := by
  obtain ⟨b, hread, hbuild⟩ := bind_eq_ok.mp h
  obtain ⟨-, hassemble⟩ := seq_eq_ok.mp hbuild
  cases hassemble
  exact yields_readWhole (P := fun b => b.assemble.Prefixed) (yields_readTopology limits) hread

namespace Topology

/-- The topology with the labels that are written: at most 64 of each node. -/
def written (t : Topology) : Topology :=
  { t with nodes := t.nodes.mapValues fun _ node => { node with labels := node.labels.take 64 } }

variable {t : Topology} {limits : Limits}

theorem values_nodes_written : t.written.nodes.values
    = t.nodes.values.map fun node => { node with labels := node.labels.take 64 } := by
  show (OrdMap.mapValues _ _).values = _
  simp only [OrdMap.values, OrdMap.mapValues, List.map_map]
  rfl

theorem contains_nodes_written (name : Name) :
    t.written.nodes.contains name = t.nodes.contains name := by
  show (OrdMap.find? (OrdMap.mapValues _ _) _).isSome = _
  rw [OrdMap.find?_mapValues, Option.isSome_map]
  rfl

theorem written_eq_self (h : ∀ node ∈ t.nodes.values, node.labels.length ≤ 64) : t.written = t := by
  have hnodes : t.written.nodes = t.nodes := by
    refine OrdMap.eq_of_entries_eq ?_
    show t.nodes.entries.map _ = t.nodes.entries
    refine (List.map_congr_left fun e he => ?_).trans (List.map_id _)
    show (e.1, { e.2 with labels := e.2.labels.take 64 }) = e
    rw [List.take_of_length_le (h e.2 (List.mem_map_of_mem he))]
  show { t with nodes := t.written.nodes } = t
  rw [hnodes]

theorem encodeTopologySection_written :
    encodeTopologySection t.written = encodeTopologySection t := by
  have hwrite : ∀ node : Node, writeNode { node with labels := node.labels.take 64 }
      = writeNode node := by
    intro node
    simp only [writeNode, writeNameList, List.take_take, Nat.min_self]
  have hlist : ByteWriter.list writeNode t.written.nodes.values
      = ByteWriter.list writeNode t.nodes.values := by
    rw [values_nodes_written]
    simp only [ByteWriter.list, List.length_map, List.flatMap_map, hwrite]
  unfold encodeTopologySection
  rw [hlist]
  rfl

theorem wellFormed_written (h : (t.toBuilder limits).WellFormed) :
    (t.written.toBuilder limits).WellFormed := by
  refine ⟨?_, ?_, h.3, h.4, h.5, h.6, h.7⟩
  · intro e he
    obtain ⟨old, hmem, rfl⟩ := List.mem_map.mp he
    exact h.nodes old hmem
  · refine h.ports.mono fun port hport => ?_
    show t.written.nodes.contains port.node.name = true
    rw [contains_nodes_written]
    exact hport

theorem within_written (h : (t.toBuilder limits).Within limits) :
    (t.written.toBuilder limits).Within limits := by
  refine ⟨?_, h.2, h.3, h.4, h.5, h.6, h.7, ?_, h.9, h.10⟩
  · show (OrdMap.mapValues _ _).size ≤ _
    rw [OrdMap.size_mapValues]
    exact h.nodes
  · intro node hnode
    have hnode' : node ∈ t.written.nodes.values := hnode
    rw [values_nodes_written] at hnode'
    obtain ⟨old, hmem, rfl⟩ := List.mem_map.mp hnode'
    exact (List.length_take_le' _ _).trans (h.labels old hmem)

theorem prefixed_written (h : t.Prefixed) : t.written.Prefixed := by
  refine ⟨?_, h.2, h.3, h.4, h.5, h.6, h.7, h.8⟩
  show (OrdMap.mapValues _ _).size < _
  rw [OrdMap.size_mapValues]
  exact h.nodes

/-- What is read back from the section of a built topology has the labels that were written. -/
theorem decode_written (hbuilt : t.Built) (hwithin : (t.toBuilder limits).Within limits)
    (hprefixed : t.Prefixed) (result : Topology) :
    decodeTopologySection (encodeTopologySection t) limits = .ok result ↔
      t.written.Accepted limits ∧ result = (t.written.toBuilder limits).assemble := by
  rw [← encodeTopologySection_written]
  refine decodeTopologySection_wellFormed (wellFormed_written (hbuilt.toBuilder limits).1) ?_
    (prefixed_written hprefixed) (within_written hwithin) result
  intro node hnode
  rw [values_nodes_written] at hnode
  obtain ⟨old, -, rfl⟩ := List.mem_map.mp hnode
  exact List.length_take_le _ _

/-- A topology that comes back fits its prefixes, has at most 64 labels for each node and is
accepted. -/
theorem accepted_of_decode (h : t.BuiltUnder limits)
    (hdecode : decodeTopologySection (encodeTopologySection t) limits = .ok t) :
    t.Prefixed ∧ (∀ node ∈ t.nodes.values, node.labels.length ≤ 64) ∧ t.Accepted limits := by
  obtain ⟨hbuilt, hwithin⟩ := h.built
  have hprefixed := prefixed_of_decodeTopologySection hdecode
  obtain ⟨haccepted, hsame⟩ := (decode_written hbuilt hwithin hprefixed t).mp hdecode
  have hnodes := congrArg (fun t : Topology => t.nodes.values) hsame
  change t.nodes.values = t.written.nodes.values at hnodes
  have hcount : ∀ node ∈ t.nodes.values, node.labels.length ≤ 64 := by
    intro node hnode
    rw [hnodes, values_nodes_written] at hnode
    obtain ⟨old, -, rfl⟩ := List.mem_map.mp hnode
    exact List.length_take_le _ _
  rw [written_eq_self hcount] at haccepted
  exact ⟨hprefixed, hcount, haccepted⟩

/-- A topology survives the topology section exactly when its lengths fit their prefixes, no node
has more than 64 labels and the reader accepts it. -/
theorem decodeTopologySection_eq_self_iff (h : t.BuiltUnder limits) :
    decodeTopologySection (encodeTopologySection t) limits = .ok t ↔
      t.Prefixed ∧ (∀ node ∈ t.nodes.values, node.labels.length ≤ 64) ∧ t.Accepted limits := by
  constructor
  · exact accepted_of_decode h
  · rintro ⟨hprefixed, hcount, haccepted⟩
    obtain ⟨hbuilt, hwithin⟩ := h.built
    rw [decode_written hbuilt hwithin hprefixed, written_eq_self hcount]
    exact ⟨haccepted, ((hbuilt.toBuilder limits).2).symm⟩

/-- A port of the node `n`. -/
def portOf (name : String) : Port :=
  { id := EntityId.unchecked (ascii name), node := EntityId.unchecked (ascii "n") }

/-- A node, two ports of it, a link between them and a path over the link. -/
def onePath : TopologyBuilder :=
  { nodes := OrdMap.ofValues (·.id.name) [{ id := EntityId.unchecked (ascii "n") }]
    ports := OrdMap.ofValues (·.id.name) [portOf "a", portOf "b"]
    links := OrdMap.ofValues (·.id.name)
      [{ id := EntityId.unchecked (ascii "l"), endpointA := (portOf "a").id
         endpointB := (portOf "b").id }]
    paths := OrdMap.ofValues (·.id.name)
      [{ id := EntityId.unchecked (ascii "p"), hops := [EntityId.unchecked (ascii "l")] }] }

/-- And a flow along the path. -/
def oneFlow (flow : Flow) : TopologyBuilder :=
  { onePath with flows := OrdMap.ofValues (·.id.name) [flow] }

theorem reachableUnder_onePath : TopologyBuilder.ReachableUnder {} onePath := by
  have hnode : TopologyBuilder.addNode {} { id := EntityId.unchecked (ascii "n") }
      = .ok { nodes := onePath.nodes } := by decide +kernel
  have hport : TopologyBuilder.addPort { nodes := onePath.nodes } (portOf "a")
      = .ok { nodes := onePath.nodes, ports := OrdMap.ofValues (·.id.name) [portOf "a"] } := by
    decide +kernel
  have hport' : TopologyBuilder.addPort
      { nodes := onePath.nodes, ports := OrdMap.ofValues (·.id.name) [portOf "a"] } (portOf "b")
      = .ok { nodes := onePath.nodes, ports := onePath.ports } := by decide +kernel
  have hlink : TopologyBuilder.addLink { nodes := onePath.nodes, ports := onePath.ports }
      { id := EntityId.unchecked (ascii "l"), endpointA := (portOf "a").id
        endpointB := (portOf "b").id }
      = .ok { onePath with paths := OrdMap.empty } := by decide +kernel
  have hpath : TopologyBuilder.addPath { onePath with paths := OrdMap.empty }
      { id := EntityId.unchecked (ascii "p"), hops := [EntityId.unchecked (ascii "l")] }
      = .ok onePath := by decide +kernel
  exact .addPath (.addLink (.addPort (.addPort (.addNode .new hnode) hport) hport') hlink) hpath

theorem builtUnder_oneFlow {flow : Flow} (hid : flow.id.name.valid = true)
    (hpath : flow.path = EntityId.unchecked (ascii "p")) :
    (oneFlow flow).assemble.BuiltUnder {} := by
  have hflow : onePath.addFlow flow = .ok (oneFlow flow) := by
    refine TopologyBuilder.addFlow_eq_ok.mpr ⟨⟨hid, rfl⟩, by decide, ?_, rfl⟩
    rw [hpath]
    decide +kernel
  have hreachable := TopologyBuilder.ReachableUnder.addFlow reachableUnder_onePath hflow
  have hbuild : (oneFlow flow).build {} = .ok (oneFlow flow).assemble :=
    seq_eq_ok.mpr ⟨TopologyBuilder.buildCheck_eq_ok
      (TopologyBuilder.wellFormed_of_reachable hreachable.reachable)
      (TopologyBuilder.within_of_reachableUnder hreachable).2, rfl⟩
  exact ⟨_, hreachable, hbuild⟩

/-- With a tenant and a class the topology survives. -/
theorem decodeTopologySection_attributed :
    decodeTopologySection (encodeTopologySection (oneFlow
      { id := EntityId.unchecked (ascii "f"), path := EntityId.unchecked (ascii "p")
        tenant := EntityId.unchecked (ascii "t")
        trafficClass := EntityId.unchecked (ascii "c") }).assemble) {}
      = .ok (oneFlow
        { id := EntityId.unchecked (ascii "f"), path := EntityId.unchecked (ascii "p")
          tenant := EntityId.unchecked (ascii "t")
          trafficClass := EntityId.unchecked (ascii "c") }).assemble := by
  refine (decodeTopologySection_eq_self_iff (builtUnder_oneFlow (by decide) rfl)).mpr
    ⟨?_, by decide +kernel, ⟨by decide +kernel, by decide +kernel, ?_⟩⟩
  · constructor <;> decide +kernel
  · unfold Fits
    decide +kernel

/-- Without a tenant and a class the builder accepts the flow, and the section cannot be read
back. -/
theorem unattributed_flow_lost :
    ({} : Limits).validate = .ok () ∧
      (oneFlow { id := EntityId.unchecked (ascii "f")
                 path := EntityId.unchecked (ascii "p") }).assemble.BuiltUnder {} ∧
      (decodeTopologySection (encodeTopologySection (oneFlow
        { id := EntityId.unchecked (ascii "f")
          path := EntityId.unchecked (ascii "p") }).assemble) {}).isOk = false :=
  ⟨by decide, builtUnder_oneFlow (by decide) rfl, by decide +kernel⟩

end Topology

end CongestionObservatory
