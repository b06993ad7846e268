import CongestionObservatory.Proofs.Assessment.Decisive
import CongestionObservatory.Episode.Episode

/-!
# `CongestionObservatory.Proofs.Assessment.Recording`: every assertion can be recorded

The registry of episodes refuses an assessment without a subject, and an assertion of congestion
without a mechanism. Classification never makes one. The test that confirms congestion and the
mechanisms that are reported come from the same loops, but from different flags of them: a rate
above its threshold, a positive count that cannot be normalised, a latency that grew. Each of these
flags implies that the mechanism was observed (`Observed.observeRate`).

The rest is bookkeeping over the rules. `Faithful` is what every rule keeps: the subject is the one
of the request, and a confirmed assessment names the observed mechanisms.
-/

set_option autoImplicit false

namespace CongestionObservatory

open Lib

/-! ### Mechanisms -/

/-- Whatever the loop found, it noted that something was observed. -/
structure Observed (o : RateObservation) : Prop where
  rate : 0 < o.rate → o.observed = true
  unquantified : o.unquantified = true → o.observed = true

theorem Observed.observeRecord {o : RateObservation} (h : Observed o) (record : EvidenceRecord) :
    Observed (observeRecord o record) := by
  unfold CongestionObservatory.observeRecord
  by_cases hunit : record.value.unit = .ratio
  · simp only [hunit, if_true]
    constructor
    · intro hpos
      dsimp only at hpos
      split at hpos
      · simp [hpos]
      · simp [h.rate hpos]
    · intro hflag
      simp [h.unquantified hflag]
  · simp only [hunit, if_false]
    split
    · split
      · exact ⟨fun _ => rfl, fun _ => rfl⟩
      · exact h
    · split
      · exact ⟨h.rate, h.unquantified⟩
      · split
        · exact ⟨fun _ => rfl, fun _ => rfl⟩
        · exact h

theorem Observed.observeRate (records : List EvidenceRecord) (kind : EvidenceKind) :
    Observed (observeRate records kind) := by
  have key : ∀ (l : List EvidenceRecord) (o : RateObservation), Observed o →
      Observed (l.foldl CongestionObservatory.observeRecord o) := by
    intro l
    induction l with
    | nil => intro o ho; exact ho
    | cons record rest ih => intro o ho; exact ih _ (ho.observeRecord record)
  exact key _ {} ⟨fun h => absurd h (NumberOrder.lt_irrefl 0), fun h => h⟩

/-- The set of the mechanisms whose flags are up. -/
def mechanismsOf (drops marks pauses retransmits inflated : Bool) : MechanismSet :=
  let bit (seen : Bool) (mechanism : Mechanism) : MechanismSet :=
    if seen then mechanismBit mechanism else 0
  bit drops .packetDrop ||| bit marks .ecnMarking ||| bit pauses .pauseBackpressure
    ||| bit retransmits .retransmission ||| bit inflated .latencyInflation

/-- A set with a flag up has a first mechanism. -/
theorem primaryMechanism_mechanismsOf : ∀ drops marks pauses retransmits inflated : Bool,
    (drops || marks || pauses || retransmits || inflated) = true →
      primaryMechanism (mechanismsOf drops marks pauses retransmits inflated) ≠ .none := by
  decide

/-- The first mechanism of a set is one of it. -/
theorem exists_of_primaryMechanism {set : MechanismSet} (h : primaryMechanism set ≠ .none) :
    ∃ mechanism ∈ [Mechanism.packetDrop, .ecnMarking, .pauseBackpressure, .latencyInflation,
      .retransmission], hasMechanism set mechanism = true := by
  unfold primaryMechanism at h
  cases hfind : [Mechanism.packetDrop, .ecnMarking, .pauseBackpressure, .latencyInflation,
      .retransmission].find? (hasMechanism set) with
  | none =>
      rw [hfind] at h
      exact absurd rfl h
  | some found =>
      exact ⟨found, List.mem_of_find?_eq_some hfind, List.find?_some hfind⟩

/-- A decisive impairment has an observed mechanism. -/
theorem primaryMechanism_of_decisive (request : ClassificationRequest)
    (policy : ClassificationPolicy) (records : List (Option EvidenceRecord))
    (h : (engineOf Double request policy records).impairmentIsDecisive = true) :
    primaryMechanism (extractFeatures Double request records policy).observedMechanisms ≠ .none := by
  unfold RuleEngine.impairmentIsDecisive engineOf at h
  revert h
  unfold extractFeatures impairmentFeatures
  dsimp only
  generalize usableOfRole request policy records .impairment = group
  split
  · -- Without an impairment record nothing is decisive.
    intro h
    exact absurd h (by simp)
  · rw [Bool.true_and]
    intro h
    have hdrops := Observed.observeRate group .dropCount
    have hmarks := Observed.observeRate group .markCount
    have hpauses := Observed.observeRate group .pauseCount
    have hretransmits := Observed.observeRate group .retransmitCount
    refine primaryMechanism_mechanismsOf _ _ _ _ _ ?_
    simp only [Bool.or_eq_true, Bool.and_eq_true, decide_eq_true_eq] at h ⊢
    rcases h with ((((h | h) | h) | h) | h) | (((h | h) | h) | h)
    · exact Or.inl (Or.inl (Or.inl (Or.inl (hdrops.rate h.2))))
    · exact Or.inl (Or.inl (Or.inl (Or.inr (hmarks.rate h.2))))
    · exact Or.inl (Or.inl (Or.inr (hpauses.rate h.2)))
    · exact Or.inl (Or.inr (hretransmits.rate h.2))
    · exact Or.inr h
    · exact Or.inl (Or.inl (Or.inl (Or.inl (hdrops.unquantified h))))
    · exact Or.inl (Or.inl (Or.inl (Or.inr (hmarks.unquantified h))))
    · exact Or.inl (Or.inl (Or.inr (hpauses.unquantified h)))
    · exact Or.inl (Or.inr (hretransmits.unquantified h))

/-! ### The rules -/

namespace RuleEngine

variable (e : RuleEngine Double)

/-- What every rule keeps: the subject is that of the request, and a confirmed assessment names
the observed mechanisms of a decisive impairment. -/
structure Faithful (a : CongestionAssessment) : Prop where
  subject : a.subject = e.request.subject
  mechanisms : a.verdict = .congestionConfirmed →
    a.mechanisms = e.features.observedMechanisms ∧ e.impairmentIsDecisive = true

variable {e} {a : CongestionAssessment}

theorem Faithful.step (h : e.Faithful a) (ruleId decision reasonCode : String) :
    e.Faithful (e.step ruleId decision reasonCode a) := by
  unfold RuleEngine.step
  split
  · exact h
  · exact ⟨h.subject, h.mechanisms⟩

theorem Faithful.block (h : e.Faithful a) (code detail : Text) :
    e.Faithful (block code detail a) := by
  unfold RuleEngine.block
  split
  · exact h
  · split
    · exact h
    · exact ⟨h.subject, h.mechanisms⟩

theorem Faithful.ite {b : CongestionAssessment} (c : Prop) [Decidable c] (ha : e.Faithful a)
    (hb : e.Faithful b) : e.Faithful (if c then a else b) := by
  split
  · exact ha
  · exact hb

/-- A verdict that does not confirm congestion needs no mechanism. -/
theorem Faithful.decide (h : e.Faithful a) {verdict : Verdict}
    (hverdict : verdict ≠ .congestionConfirmed) (severity : Severity) (confidence : Nat) :
    e.Faithful { a with verdict := verdict, severity := severity, confidence := confidence } :=
  ⟨h.subject, fun heq => absurd heq hverdict⟩

theorem Faithful.collectConflictBlockers (h : e.Faithful a) :
    e.Faithful (e.collectConflictBlockers a) := by
  have hreport : ∀ {a : CongestionAssessment}, e.Faithful a → ∀ agreement : Agreement,
      ∀ detail : Text, e.Faithful (if agreementIsConflict agreement = true then
        e.step "R10-agreement" "applied" "conflicting_sources_reported"
          (RuleEngine.block Blockers.conflictingSources detail a) else a) :=
    fun ha _ _ => Faithful.ite _ ((ha.block _ _).step _ _ _) ha
  have hcount : ∀ {a : CongestionAssessment}, e.Faithful a → ∀ (count : Nat) (code detail : Text),
      e.Faithful (if count > 0 then RuleEngine.block code detail a else a) :=
    fun ha _ _ _ => Faithful.ite _ (ha.block _ _) ha
  unfold RuleEngine.collectConflictBlockers
  exact hcount (hcount (hcount (hcount (hreport (hreport (hreport (hreport h _ _) _ _) _ _) _ _)
    _ _ _) _ _ _) _ _ _) _ _ _

theorem Faithful.rulesFromContention (h : e.Faithful a) : e.Faithful (e.rulesFromContention a) := by
  unfold RuleEngine.rulesFromContention
  dsimp only
  split
  · exact (h.decide Verdict.noConfusion _ _).step _ _ _
  split
  · exact (((h.step _ _ _).decide Verdict.noConfusion _ _).block _ _).step _ _ _
  split
  · exact ((h.step _ _ _).decide Verdict.noConfusion _ _).step _ _ _
  · exact ((h.step _ _ _).decide Verdict.noConfusion _ _).step _ _ _

theorem Faithful.rulesFromSaturation (h : e.Faithful a) : e.Faithful (e.rulesFromSaturation a) := by
  unfold RuleEngine.rulesFromSaturation
  dsimp only
  split
  · exact (h.decide Verdict.noConfusion _ _).step _ _ _
  have hskipped := h.step "R05-saturation" "skipped" "demand_below_capacity_or_unknown"
  split
  · exact (hskipped.decide Verdict.noConfusion _ _).step _ _ _
  · apply Faithful.rulesFromContention
    have hbacklog := Faithful.ite (e.features.pressurePresent = true)
      ((hskipped.block Blockers.backlogBelowThreshold
        (ascii "backlog evidence is present but below the configured pressure ratio")).step
        "R06-pressure" "applied" "backlog_below_policy_threshold") hskipped
    exact Faithful.ite _ ((hbacklog.block _ _).step _ _ _) (hbacklog.step _ _ _)

theorem Faithful.rulesFromImpairment (h : e.Faithful a) : e.Faithful (e.rulesFromImpairment a) := by
  unfold RuleEngine.rulesFromImpairment
  dsimp only
  split
  · next hdecisive =>
      -- The only rule that confirms congestion takes the mechanisms along.
      apply Faithful.step
      exact ⟨h.subject, fun _ => ⟨rfl, hdecisive⟩⟩
  · apply Faithful.rulesFromSaturation
    refine Faithful.ite _ (Faithful.step ?_ _ _ _) (h.step _ _ _)
    exact Faithful.ite _ (h.block _ _) (Faithful.ite _ (h.block _ _) h)

theorem Faithful.rulesFromFreshness (h : e.Faithful a) : e.Faithful (e.rulesFromFreshness a) := by
  unfold RuleEngine.rulesFromFreshness
  dsimp only
  split
  · have hopen : e.Faithful { a with verdict := .indeterminate } :=
      h.decide Verdict.noConfusion a.severity a.confidence
    have hreported := Faithful.collectConflictBlockers
      (Faithful.ite (e.features.impairmentSeenNotFresh = true)
        ((hopen.block Blockers.staleImpairment
          (ascii "impairment evidence exists but none of it is fresh")).step "R03-freshness" "applied"
          "stale_impairment_only")
        (Faithful.ite (e.features.pressureSeenNotFresh = true)
          ((hopen.block Blockers.stalePressureCannotProveCurrent
            (ascii "pressure evidence exists but none of it is fresh")).step "R03-freshness" "applied"
            "stale_pressure_only")
          (Faithful.ite ((e.features.utilizationSeenNotFresh || e.features.demandSeenNotFresh
              || e.features.contentionSeenNotFresh) = true)
            ((hopen.block Blockers.unknownFreshness
              (ascii "records are present but none is usable as deciding evidence")).step
              "R03-freshness" "applied" "no_fresh_deciding_evidence")
            ((hopen.block Blockers.noFreshEvidence
              (ascii "no record can support a current verdict")).step "R03-freshness" "applied"
              "no_usable_evidence"))))
    exact ⟨hreported.subject, hreported.mechanisms⟩
  · exact (h.step _ _ _).rulesFromImpairment

theorem Faithful.rulesFromSupport (h : e.Faithful a) : e.Faithful (e.rulesFromSupport a) := by
  unfold RuleEngine.rulesFromSupport
  dsimp only
  split
  · split
    · exact ((h.block _ _).step _ _ _).decide Verdict.noConfusion _ _
    · exact ((h.block _ _).step _ _ _).rulesFromFreshness
  · exact (h.step _ _ _).rulesFromFreshness

theorem Faithful.assessRules (h : e.Faithful a) : e.Faithful (e.assessRules a) := by
  unfold RuleEngine.assessRules
  split
  · have hnone : e.Faithful { a with verdict := .noEvidence } :=
      h.decide Verdict.noConfusion a.severity a.confidence
    have hempty := (hnone.block Blockers.absenceOfEvidence
      (ascii "no records were supplied for this subject")).step "R00-no-evidence" "applied"
      "no_records"
    exact ⟨hempty.subject, hempty.mechanisms⟩
  · unfold RuleEngine.rulesFromGeneration
    dsimp only
    split
    · split
      · exact (((h.step _ _ _).block _ _).step _ _ _).decide Verdict.noConfusion _ _
      · exact (((h.step _ _ _).block _ _).step _ _ _).rulesFromSupport
    · exact ((h.step _ _ _).step _ _ _).rulesFromSupport

/-- The final pass keeps the subject and the mechanisms too. -/
theorem Faithful.finalize (h : e.Faithful a) (citations : List EvidenceId) :
    e.Faithful (e.finalize citations a) := by
  have hcited : e.Faithful { a with citations := citations } := ⟨h.subject, h.mechanisms⟩
  have hblocked : ∀ {a : CongestionAssessment} {c : Prop} {_ : Decidable c} {code detail : Text},
      e.Faithful a → e.Faithful (if c then RuleEngine.block code detail a else a) :=
    fun ha => Faithful.ite _ (ha.block _ _) ha
  have hreported := hcited.collectConflictBlockers
  unfold RuleEngine.finalize
  exact ⟨(hblocked (hblocked (hblocked hreported))).subject,
    (hblocked (hblocked (hblocked hreported))).mechanisms⟩

/-- The assessment of a run is faithful. -/
theorem faithful_run (e : RuleEngine Double) (citations : List EvidenceId) : e.Faithful (e.run citations) := by
  unfold run
  apply Faithful.finalize
  apply Faithful.assessRules
  exact ⟨rfl, fun h => absurd h Verdict.noConfusion⟩

/-- Congestion is asserted when it is confirmed. -/
theorem verdict_of_asserted {citations : List EvidenceId}
    (h : (e.run citations).congestionAsserted = true) :
    (e.run citations).verdict = .congestionConfirmed := by
  unfold run at h ⊢
  obtain ⟨hverdict, hasserted⟩ := e.finalize_verdict citations (e.assessRules _)
  rw [hasserted] at h
  rw [hverdict]
  exact beq_iff_eq.mp h

end RuleEngine

/-! ### The registry -/

/-- An assertion with a mechanism is refused for want of room only. -/
theorem code_of_observeAsserted {r : EpisodeRegistry} {assessment : CongestionAssessment}
    {now : Timestamp} {e : Error} (hmechanism : (EpisodeRegistry.keyOf assessment).mechanism ≠ .none)
    (h : (r.observeAsserted assessment now).1 = .error e) : e.code = .limitExceeded := by
  unfold EpisodeRegistry.observeAsserted at h
  dsimp only at h
  rw [if_neg hmechanism] at h
  split at h
  · split at h
    · next e' r' hroom =>
        cases h
        unfold EpisodeRegistry.makeRoom at hroom
        split at hroom
        · split at hroom
          · cases hroom
            rfl
          · cases hroom
        · cases hroom
    · cases h
  · cases h

/-- A classification that succeeds is about a subject. -/
theorem subject_of_classifySubject {request : ClassificationRequest}
    {records : List (Option EvidenceRecord)} {policy : ClassificationPolicy}
    {assessment : CongestionAssessment}
    (h : classifySubject Double request records policy = .ok assessment) :
    request.subject.valid = true ∧
      assessment = (engineOf Double request policy records).run (collectCitations request policy records) := by
  simp only [classifySubject, seq_eq_ok, failIf_eq_ok] at h
  obtain ⟨hsubject, -, hrun⟩ := h
  exact ⟨not_not.mp hsubject, pure_eq_ok.mp hrun⟩

/-- An assessment that classification gives names its mechanism when it asserts congestion, and
the registry, whatever it holds, does not refuse it for what it says: only for want of room. -/
theorem classified_is_recordable (request : ClassificationRequest)
    (records : List (Option EvidenceRecord)) (policy : ClassificationPolicy)
    (assessment : CongestionAssessment)
    (h : classifySubject Double request records policy = .ok assessment) :
    (assessment.congestionAsserted = true →
      (∃ mechanism ∈ [Mechanism.packetDrop, .ecnMarking, .pauseBackpressure, .latencyInflation,
        .retransmission], hasMechanism assessment.mechanisms mechanism = true) ∧
      (EpisodeRegistry.keyOf assessment).mechanism ≠ .none) ∧
    ∀ (r : EpisodeRegistry) (episodePolicy : EpisodePolicy) (now : Timestamp) (e : Error),
      (r.observe assessment episodePolicy now).1 = .error e →
      e.code ≠ .preconditionFailed ∧ e.code ≠ .invalidArgument := by
  obtain ⟨hvalid, rfl⟩ := subject_of_classifySubject h
  have hfaithful := RuleEngine.faithful_run (engineOf Double request policy records)
    (collectCitations request policy records)
  -- An assertion comes from a decisive impairment, and a decisive impairment names a mechanism.
  have hkey : ((engineOf Double request policy records).run
      (collectCitations request policy records)).congestionAsserted = true →
      (EpisodeRegistry.keyOf ((engineOf Double request policy records).run
        (collectCitations request policy records))).mechanism ≠ .none := by
    intro hasserted
    obtain ⟨hmechanisms, hdecisive⟩ :=
      hfaithful.mechanisms (RuleEngine.verdict_of_asserted hasserted)
    show primaryMechanism _ ≠ .none
    rw [hmechanisms]
    exact primaryMechanism_of_decisive request policy records hdecisive
  refine ⟨fun hasserted => ⟨exists_of_primaryMechanism (hkey hasserted), hkey hasserted⟩, ?_⟩
  -- `observe` checks the subject and then the mechanism, before it looks at its own state.
  intro r episodePolicy now e he
  unfold EpisodeRegistry.observe at he
  rw [if_neg (by rw [hfaithful.subject]; simpa [engineOf] using hvalid)] at he
  split at he
  · cases he
  · next hasserted =>
      have hcode := code_of_observeAsserted (hkey (by simpa using hasserted)) he
      rw [hcode]
      exact ⟨ErrorCode.noConfusion, ErrorCode.noConfusion⟩

/-- One dropped packet on the link of `linkRequest`. -/
def droppedPacket : List (Option EvidenceRecord) :=
  [some (linkObservation .dropCount
    { scalar := ⟨0x3FF0000000000000⟩, unit := .packets, semantics := .deltaCounter } "agent1" 1)]

/-- One dropped packet asserts congestion, and the assessment names a mechanism. -/
theorem droppedPacket_is_recordable :
    ∃ assessment, classifySubject Double linkRequest droppedPacket {} = .ok assessment ∧
      assessment.congestionAsserted = true ∧
      (EpisodeRegistry.keyOf assessment).mechanism ≠ .none :=
  ⟨(engineOf Double linkRequest {} droppedPacket).run (collectCitations linkRequest {} droppedPacket),
    classifySubject_valid {} linkRequest_valid droppedPacket, by decide +kernel,
    ((classified_is_recordable linkRequest droppedPacket {} _
      (classifySubject_valid {} linkRequest_valid droppedPacket)).1 (by decide +kernel)).2⟩

end CongestionObservatory
