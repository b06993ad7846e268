import CongestionObservatory.Proofs.Evidence.StoreCases
import CongestionObservatory.Proofs.Runtime.Concurrency

/-!
# `CongestionObservatory.Proofs.Runtime.Metrics`: the metrics under several threads

An operation acts on a component in one section and counts it in a later one, under the mutex of
the metrics. Between the two the metrics are behind. Every operation owes what it has not yet
counted (`owes_operation_ingest`, `owes_operation_update`) and has paid when it returns.
`threads_metrics` says what follows for all threads: the metrics never run ahead of the store and
the registry, and they agree with them when no thread is within an operation.
-/

set_option autoImplicit false

namespace CongestionObservatory

open Lib

namespace EvidenceStore

/-! ### What an ingest call says and what the store counts -/

/-- One for a record that was stored. -/
def storedCount : Result IngestOutcome → Nat
  | .ok outcome => if outcome.stored then 1 else 0
  | .error _ => 0

/-- One for a record that the fence rejected. -/
def fencedCount : Result IngestOutcome → Nat
  | .ok outcome => if outcome.stored then 0 else 1
  | .error _ => 0

theorem evictOldest_accepted (s : EvidenceStore) :
    s.evictOldest.2.stats.accepted = s.stats.accepted ∧
      s.evictOldest.2.stats.rejectedFence = s.stats.rejectedFence := by
  unfold evictOldest
  split
  · split
    · exact ⟨rfl, rfl⟩
    · exact ⟨rfl, rfl⟩
  · exact ⟨rfl, rfl⟩

theorem evictFromSubject_accepted (s : EvidenceStore) (key : Name) :
    (s.evictFromSubject key).2.stats.accepted = s.stats.accepted ∧
      (s.evictFromSubject key).2.stats.rejectedFence = s.stats.rejectedFence := by
  unfold evictFromSubject
  split
  · split
    · exact ⟨rfl, rfl⟩
    · exact ⟨rfl, rfl⟩
  · exact ⟨rfl, rfl⟩

theorem admitLocked_accepted {s s' : EvidenceStore} {record : EvidenceRecord} {recovered : Bool}
    {evicted : Nat} (h : s.admitLocked record recovered = .ok (evicted, s')) :
    s'.stats.accepted = s.stats.accepted ∧ s'.stats.rejectedFence = s.stats.rejectedFence := by
  obtain ⟨-, -, rfl⟩ := admitLocked_ok h
  unfold makeRoom
  obtain ⟨hglobal, hglobal'⟩ :=
    evictOldest_accepted { s with nextInsertionIndex := s.nextInsertionIndex + 1 }
  obtain ⟨hlocal, hlocal'⟩ := evictFromSubject_accepted
    { s with nextInsertionIndex := s.nextInsertionIndex + 1 }.evictOldest.2
    (Name.unchecked record.subject.str)
  exact ⟨hlocal.trans hglobal, hlocal'.trans hglobal'⟩

theorem ingest_accepted (s : EvidenceStore) (record : EvidenceRecord) (now : Timestamp)
    (policy : IngestPolicy) (topology : Option Topology) :
    (s.ingest record now policy topology).2.stats.accepted
        = s.stats.accepted + storedCount (s.ingest record now policy topology).1 ∧
      (s.ingest record now policy topology).2.stats.rejectedFence
        = s.stats.rejectedFence + fencedCount (s.ingest record now policy topology).1 := by
  unfold ingest
  split
  · exact ⟨rfl, rfl⟩
  · dsimp only
    split
    · exact ⟨rfl, rfl⟩
    · split
      · exact ⟨rfl, rfl⟩
      · unfold ingestLocked
        dsimp only
        split
        · exact ⟨rfl, rfl⟩
        · split
          · exact ⟨rfl, rfl⟩
          · unfold ingestAccepted
            dsimp only
            have hretire : ∀ fence key, (s.retireOnReset fence key).stats = s.stats := by
              intro fence key
              unfold retireOnReset
              split <;> rfl
            split
            · rename_i hadmit
              exact ⟨by rw [hretire]; rfl, by rw [hretire]; rfl⟩
            · rename_i hadmit
              obtain ⟨haccepted, hfence⟩ := admitLocked_accepted hadmit
              rw [hretire] at haccepted hfence
              exact ⟨congrArg (· + 1) haccepted, hfence⟩

theorem ingestRecovered_accepted (s : EvidenceStore) (record : EvidenceRecord) :
    (s.ingestRecovered record).2.stats.accepted = s.stats.accepted ∧
      (s.ingestRecovered record).2.stats.rejectedFence = s.stats.rejectedFence := by
  unfold ingestRecovered
  split
  · exact ⟨rfl, rfl⟩
  · dsimp only
    split
    · exact ⟨rfl, rfl⟩
    · split
      · exact ⟨rfl, rfl⟩
      · rename_i hadmit
        obtain ⟨haccepted, hfence⟩ := admitLocked_accepted hadmit
        exact ⟨haccepted, hfence⟩

theorem sweep_accepted (s : EvidenceStore) (move : SelfMove) (horizon : Timestamp) (maxRecords : Nat)
    (token : CancellationToken) :
    (s.sweep move horizon maxRecords token).2.stats.accepted = s.stats.accepted ∧
      (s.sweep move horizon maxRecords token).2.stats.rejectedFence = s.stats.rejectedFence := by
  unfold sweep
  split
  · exact ⟨rfl, rfl⟩
  · dsimp only
    split
    · exact ⟨rfl, rfl⟩
    · split
      · exact ⟨rfl, rfl⟩
      · exact ⟨rfl, rfl⟩

/-- The decisions that `Runtime::ingest` counts by kind. -/
def countedFence : FenceDecision → Bool
  | .rejectedReplayedSequence | .rejectedStaleEpoch | .rejectedStaleGeneration
  | .rejectedStaleRevision | .rejectedStaleIncarnation | .rejectedIncomparableGeneration
  | .rejectedInconsistentBoot | .rejectedAuthorityTooLow => true
  | _ => false

theorem evaluateSequence_counted (incoming last : FenceVector) :
    (evaluateSequence incoming last).accepted = true ∨
      countedFence (evaluateSequence incoming last).decision = true := by
  unfold evaluateSequence
  split
  · exact Or.inr rfl
  · dsimp only
    split
    · exact Or.inl rfl
    · exact Or.inl rfl

/-- A record whose source is named is accepted, or rejected for a reason that is counted by kind. -/
theorem evaluateFence_counted {incoming : FenceVector} (hsource : incoming.source.valid = true)
    (authority minimum : AuthorityLevel) (previous : SourceFenceState) :
    (evaluateFence incoming authority minimum previous).accepted = true ∨
      countedFence (evaluateFence incoming authority minimum previous).decision = true := by
  unfold evaluateFence
  rw [if_neg (by simp [hsource])]
  split
  · exact Or.inr rfl
  split
  · exact Or.inl rfl
  split
  · split
    · exact Or.inr rfl
    · exact Or.inl rfl
  split
  · exact Or.inr rfl
  split
  · exact Or.inr rfl
  split
  · split
    · exact Or.inr rfl
    · split
      · exact Or.inr rfl
      · exact Or.inr rfl
  · exact Or.inr rfl
  · split
    · exact Or.inl rfl
    · split
      · exact Or.inl rfl
      · exact evaluateSequence_counted incoming previous.last
  · exact evaluateSequence_counted incoming previous.last

/-- One for a rejection that is not counted by kind. -/
def uncountedFence : Result IngestOutcome → Nat
  | .ok outcome => if outcome.stored then 0 else if countedFence outcome.fence then 0 else 1
  | .error _ => 0

/-- A valid record names its source, so every rejection of the fence is counted by kind. -/
theorem uncountedFence_ingest (s : EvidenceStore) (record : EvidenceRecord) (now : Timestamp)
    (policy : IngestPolicy) (topology : Option Topology) :
    uncountedFence (s.ingest record now policy topology).1 = 0 := by
  unfold ingest
  split
  · rfl
  · rename_i hvalid
    have hsource : record.fence.source.valid = true := by
      simp only [validateEvidence, seq_eq_ok, failIf_eq_ok, not_not] at hvalid
      obtain ⟨-, -, hnamed, hsame, -⟩ := hvalid
      rw [hsame]
      exact hnamed
    dsimp only
    split
    · rfl
    · split
      · rfl
      · unfold ingestLocked
        dsimp only
        split
        · rfl
        · split
          · rename_i hrejected
            rcases evaluateFence_counted hsource record.provenance.authority policy.minimumAuthority
                (s.sourceState record.provenance.source.name) with haccepted | hcounted
            · rw [haccepted] at hrejected
              cases hrejected
            · show (if countedFence _ = true then 0 else 1) = 0
              rw [if_pos hcounted]
          · unfold ingestAccepted
            dsimp only
            split
            · rfl
            · rfl

end EvidenceStore

namespace EpisodeRegistry

/-- The loop of an observation without an assertion reports the first episode that became
quiescent. -/
theorem kind_of_observeQuiet (r : EpisodeRegistry) (assessment : CongestionAssessment)
    (now : Timestamp) :
    (r.observeQuiet assessment now).1.kind = .quiesced ∨
      (r.observeQuiet assessment now).1.kind = .unchanged := by
  unfold observeQuiet
  have hfirst := @OrdMap.mapAccumList_keeps EpisodeId Episode (Option EpisodeUpdate)
    (fun first _ episode =>
      if episode.key.scope = assessment.subject ∧ episode.state = .open then
        let quiet := episode.quiesce assessment now r.limits
        (some (first.getD (updateOf quiet .quiesced)), quiet)
      else (first, episode))
    (fun first => first = none ∨ ∃ update, first = some update ∧ update.kind = .quiesced)
    (by
      intro first _ episode hfirst
      dsimp only
      split
      · rcases hfirst with rfl | ⟨update, rfl, hupdate⟩
        · exact Or.inr ⟨_, rfl, rfl⟩
        · exact Or.inr ⟨update, rfl, hupdate⟩
      · exact hfirst)
    none (Or.inl rfl) r.episodes.entries
  rcases hfirst with hnone | ⟨update, hsome, hupdate⟩
  · refine Or.inr ?_
    show ((OrdMap.mapAccumList _ none r.episodes.entries).1.getD ({} : EpisodeUpdate)).kind = _
    rw [hnone]
    rfl
  · refine Or.inl ?_
    show ((OrdMap.mapAccumList _ none r.episodes.entries).1.getD ({} : EpisodeUpdate)).kind = _
    rw [hsome]
    exact hupdate

/-- An observation neither resolves an episode nor lets it expire. -/
theorem kind_of_observe {r : EpisodeRegistry} {assessment : CongestionAssessment}
    {policy : EpisodePolicy} {now : Timestamp} {update : EpisodeUpdate}
    (h : (r.observe assessment policy now).1 = .ok update) :
    update.kind ≠ .resolved ∧ update.kind ≠ .expired := by
  unfold observe at h
  split at h
  · cases h
  split at h
  · have hupdate : (r.observeQuiet assessment now).1 = update := Except.ok.inj h
    rw [← hupdate]
    rcases kind_of_observeQuiet r assessment now with hkind | hkind
    · rw [hkind]
      exact ⟨EpisodeUpdateKind.noConfusion, EpisodeUpdateKind.noConfusion⟩
    · rw [hkind]
      exact ⟨EpisodeUpdateKind.noConfusion, EpisodeUpdateKind.noConfusion⟩
  · unfold observeAsserted at h
    dsimp only at h
    split at h
    · cases h
    split at h
    · split at h
      · cases h
      · cases h
        exact ⟨EpisodeUpdateKind.noConfusion, EpisodeUpdateKind.noConfusion⟩
    · rename_i episode _
      cases h
      have hrefresh : ∀ kind, refreshUpdateKind kind ≠ .resolved ∧ refreshUpdateKind kind ≠ .expired := by
        intro kind
        cases kind <;> exact ⟨EpisodeUpdateKind.noConfusion, EpisodeUpdateKind.noConfusion⟩
      exact hrefresh _

end EpisodeRegistry

namespace Runtime

open EvidenceStore (storedCount fencedCount uncountedFence)

/-! ### Shares -/

/-- The share of a section that ingests, by its result. -/
def ingestShare (c : Result IngestOutcome → Nat) : Program.Entry Section.Answer → Nat
  | ⟨.ingest _ _ _, result⟩ => c result
  | _ => 0

/-- The share of a section that counts the result of an ingest. -/
def countShare (c : Result IngestOutcome → Nat) : Program.Entry Section.Answer → Nat
  | ⟨.countIngest result, _⟩ => c result
  | _ => 0

/-- The share of a section that observes, by the kind of its update. -/
def observeShare (c : EpisodeUpdateKind → Nat) : Program.Entry Section.Answer → Nat
  | ⟨.observe _ _, result⟩ =>
    match (result : Result EpisodeUpdate) with
    | .ok update => c update.kind
    | .error _ => 0
  | _ => 0

/-- The share of a section that counts an update. -/
def updateShare (c : EpisodeUpdateKind → Nat) : Program.Entry Section.Answer → Nat
  | ⟨.countUpdate kind, _⟩ => c kind
  | _ => 0

theorem share_of_not_admission (c : Result IngestOutcome → Nat) (k : Section) (answer : k.Answer)
    (h : k.part ≠ .admission) : ingestShare c ⟨k, answer⟩ = 0 ∧ countShare c ⟨k, answer⟩ = 0 := by
  cases k with
  | ingest record now topology => exact absurd rfl h
  | countIngest result => exact absurd rfl h
  | _ => exact ⟨rfl, rfl⟩

theorem share_of_not_observation (c : EpisodeUpdateKind → Nat) (k : Section) (answer : k.Answer)
    (h : k.part ≠ .observation) : observeShare c ⟨k, answer⟩ = 0 ∧ updateShare c ⟨k, answer⟩ = 0 := by
  cases k with
  | observe assessment now => exact absurd rfl h
  | countUpdate kind => exact absurd rfl h
  | _ => exact ⟨rfl, rfl⟩

section

open Program (Owes Only)

variable {config : RuntimeConfig} {snapshots : Option SnapshotStore}

/-- The last step of an operation leaves no debt. -/
theorem Owes.reply {f g : Program.Entry Section.Answer → Nat} {α : Type} {p : Operation α}
    {reply : α → Response} (h : p.Owes f g (fun _ => 0) 0) :
    (p >>= fun a => (pure (reply a) : Operation Response)).Owes f g (fun _ => 0) 0 :=
  Owes.bind h fun _ => rfl

/-- An ingest counts the result it got. -/
theorem owes_ingest (c : Result IngestOutcome → Nat) (record : EvidenceRecord) (now : Timestamp) :
    (Operation.ingest record now).Owes (ingestShare c) (countShare c) (fun _ => 0) 0 := by
  refine Owes.bind (d := fun _ => 0) (Owes.ask (k := Section.isShuttingDown) fun _ => rfl)
    fun down => ?_
  split
  · rfl
  · refine Owes.bind (d := fun _ => 0) (Owes.ask (k := Section.currentTopology) fun _ => rfl)
      fun topology => ?_
    refine Owes.bind (d := c) (Owes.ask (k := Section.ingest record now topology)
      fun answer => Nat.zero_add _) fun result => ?_
    refine Owes.bind (d := fun _ => 0) (Owes.bind (d := fun _ => 0)
      (Owes.ask (k := Section.countIngest result) fun answer => ?_) fun _ => rfl) fun _ => rfl
    exact (Nat.zero_add _).symm

/-- An evaluation counts the update it got. -/
theorem owes_evaluate (c : EpisodeUpdateKind → Nat) (subject : EvidenceSubject) (window : Duration)
    (now : Timestamp) :
    (Operation.evaluate config subject window now).Owes (observeShare c) (updateShare c)
      (fun _ => 0) 0 := by
  refine Owes.bind (d := fun _ => 0) ((only_classify config (P := Concerns .rest) concerns_rest
    subject window now).owes fun k answer h => share_of_not_observation c k answer
      (ne_of_concerns h Part.noConfusion Part.noConfusion Part.noConfusion)) fun classified => ?_
  cases classified with
  | error e => rfl
  | ok assessment =>
      refine Owes.bind (d := fun result : Result EpisodeUpdate =>
          observeShare c ⟨.observe assessment now, result⟩)
        (Owes.ask (k := Section.observe assessment now) fun answer => Nat.zero_add _) fun observed => ?_
      cases observed with
      | error e => rfl
      | ok update =>
          refine Owes.bind (d := fun _ => 0) (Owes.bind (d := fun _ => 0)
            (Owes.ask (k := Section.countUpdate update.kind) fun answer => ?_) fun _ => rfl) fun _ => rfl
          exact (Nat.zero_add _).symm

/-- Every operation counts the results of its ingest sections. -/
theorem owes_operation_ingest (c : Result IngestOutcome → Nat) (request : Request) :
    (operation config snapshots request).Owes (ingestShare c) (countShare c) (fun _ => 0) 0 := by
  have haside : request.part ≠ .admission →
      (operation config snapshots request).Owes (ingestShare c) (countShare c) (fun _ => 0) 0 :=
    fun hpart => (concerns_operation config snapshots request).owes fun k answer h =>
      share_of_not_admission c k answer
        (ne_of_concerns h (Ne.symm hpart) Part.noConfusion Part.noConfusion)
  cases request with
  | classify subject window now => exact haside Part.noConfusion
  | change call =>
      cases call with
      | ingest record now => exact Owes.reply (owes_ingest c record now)
      | _ => exact haside Part.noConfusion

/-- Every operation counts the updates of its observations. -/
theorem owes_operation_update (c : EpisodeUpdateKind → Nat) (request : Request) :
    (operation config snapshots request).Owes (observeShare c) (updateShare c) (fun _ => 0) 0 := by
  have haside : request.part ≠ .observation →
      (operation config snapshots request).Owes (observeShare c) (updateShare c) (fun _ => 0) 0 :=
    fun hpart => (concerns_operation config snapshots request).owes fun k answer h =>
      share_of_not_observation c k answer
        (ne_of_concerns h (Ne.symm hpart) Part.noConfusion Part.noConfusion)
  cases request with
  | classify subject window now => exact haside Part.noConfusion
  | change call =>
      cases call with
      | evaluate subject window now => exact Owes.reply (owes_evaluate c subject window now)
      | _ => exact haside Part.noConfusion

end

/-! ### Counters -/

section

variable {ι : Type} {move : SelfMove} {rt : Runtime} {history : History ι}

/-- The sum of a share over the sections of a history. -/
def sumOf (share : Program.Entry Section.Answer → Nat) (history : History ι) : Nat :=
  ((Thread.entries (history.map Prod.snd)).map share).sum

theorem countFence_ingested (m : RuntimeMetrics) (fence : FenceDecision) :
    (m.countFence fence).ingested = m.ingested ∧
      (m.countFence fence).ingestRejectedFence = m.ingestRejectedFence := by
  cases fence <;> exact ⟨rfl, rfl⟩

theorem countUpdate_ingested (m : RuntimeMetrics) (kind : EpisodeUpdateKind) :
    (m.countUpdate kind).ingested = m.ingested ∧
      (m.countUpdate kind).ingestRejectedFence = m.ingestRejectedFence := by
  cases kind <;> exact ⟨rfl, rfl⟩

theorem countIngest_ingested (m : RuntimeMetrics) (result : Result IngestOutcome) :
    (m.countIngest result).ingested = m.ingested + storedCount result ∧
      (m.countIngest result).ingestRejectedFence = m.ingestRejectedFence + fencedCount result := by
  cases result with
  | error e =>
      unfold RuntimeMetrics.countIngest
      dsimp only
      split
      · exact ⟨rfl, rfl⟩
      · exact ⟨rfl, rfl⟩
  | ok outcome =>
      unfold RuntimeMetrics.countIngest storedCount fencedCount
      dsimp only
      split
      · exact ⟨rfl, rfl⟩
      · exact countFence_ingested _ _

/-- The counters of `ingest` in the metrics are sums over the sections that count. -/
theorem ingested_eq (hplayed : Thread.Played (perform move) { runtime := rt } history) :
    (Thread.after (perform move) { runtime := rt } history).metrics.ingested
        = sumOf (countShare storedCount) history ∧
      (Thread.after (perform move) { runtime := rt } history).metrics.ingestRejectedFence
        = sumOf (countShare fencedCount) history := by
  have hstored := hplayed.counter (perform move) (fun s => s.metrics.ingested) (countShare storedCount)
    fun k s => by
      cases k with
      | countIngest result => exact (countIngest_ingested s.metrics result).1
      | countUpdate kind => exact (countUpdate_ingested s.metrics kind).1
      | _ => rfl
  have hfenced := hplayed.counter (perform move) (fun s => s.metrics.ingestRejectedFence)
    (countShare fencedCount) fun k s => by
      cases k with
      | countIngest result => exact (countIngest_ingested s.metrics result).2
      | countUpdate kind => exact (countUpdate_ingested s.metrics kind).2
      | _ => rfl
  exact ⟨hstored.trans (Nat.zero_add _), hfenced.trans (Nat.zero_add _)⟩

/-- The counters of the store are sums over the sections that ingest. -/
theorem accepted_eq (hempty : rt.store.stats = {})
    (hplayed : Thread.Played (perform move) { runtime := rt } history) :
    (runtimeAfter move rt history).store.stats.accepted = sumOf (ingestShare storedCount) history ∧
      (runtimeAfter move rt history).store.stats.rejectedFence
        = sumOf (ingestShare fencedCount) history := by
  have hstored := hplayed.counter (perform move) (fun s => s.runtime.store.stats.accepted)
    (ingestShare storedCount) fun k s => by
      cases k with
      | ingest record now topology =>
          exact (EvidenceStore.ingest_accepted s.runtime.store record now s.runtime.config.ingest
            (some topology)).1
      | ingestRecovered record =>
          exact (EvidenceStore.ingestRecovered_accepted s.runtime.store record).1
      | sweep horizon maxRecords token =>
          exact (EvidenceStore.sweep_accepted s.runtime.store move horizon maxRecords token).1
      | _ => rfl
  have hfenced := hplayed.counter (perform move) (fun s => s.runtime.store.stats.rejectedFence)
    (ingestShare fencedCount) fun k s => by
      cases k with
      | ingest record now topology =>
          exact (EvidenceStore.ingest_accepted s.runtime.store record now s.runtime.config.ingest
            (some topology)).2
      | ingestRecovered record =>
          exact (EvidenceStore.ingestRecovered_accepted s.runtime.store record).2
      | sweep horizon maxRecords token =>
          exact (EvidenceStore.sweep_accepted s.runtime.store move horizon maxRecords token).2
      | _ => rfl
  rw [hempty] at hstored hfenced
  exact ⟨hstored.trans (Nat.zero_add _), hfenced.trans (Nat.zero_add _)⟩

/-- One for a rejection that is counted by kind. -/
def kindCount : Result IngestOutcome → Nat
  | .ok outcome => if outcome.stored then 0 else if EvidenceStore.countedFence outcome.fence then 1 else 0
  | .error _ => 0

theorem fencedCount_eq (result : Result IngestOutcome) :
    fencedCount result = kindCount result + uncountedFence result := by
  cases result with
  | error e => rfl
  | ok outcome =>
      unfold fencedCount kindCount uncountedFence
      dsimp only
      split
      · rfl
      · split
        · rfl
        · rfl

theorem countFence_kinds (m : RuntimeMetrics) (fence : FenceDecision) :
    (m.countFence fence).ingestRejectedStale + (m.countFence fence).ingestRejectedReplay
        + (m.countFence fence).ingestRejectedAuthority
      = m.ingestRejectedStale + m.ingestRejectedReplay + m.ingestRejectedAuthority
        + if EvidenceStore.countedFence fence then 1 else 0 := by
  cases fence <;> simp [RuntimeMetrics.countFence, EvidenceStore.countedFence] <;> omega

theorem countIngest_kinds (m : RuntimeMetrics) (result : Result IngestOutcome) :
    (m.countIngest result).ingestRejectedStale + (m.countIngest result).ingestRejectedReplay
        + (m.countIngest result).ingestRejectedAuthority
      = m.ingestRejectedStale + m.ingestRejectedReplay + m.ingestRejectedAuthority
        + kindCount result := by
  cases result with
  | error e =>
      unfold RuntimeMetrics.countIngest
      dsimp only
      split
      · rfl
      · rfl
  | ok outcome =>
      unfold RuntimeMetrics.countIngest kindCount
      dsimp only
      split
      · rfl
      · exact countFence_kinds _ _

/-- The counters by kind of rejection are a sum over the sections that count. -/
theorem kinds_eq (hplayed : Thread.Played (perform move) { runtime := rt } history) :
    (Thread.after (perform move) { runtime := rt } history).metrics.ingestRejectedStale
        + (Thread.after (perform move) { runtime := rt } history).metrics.ingestRejectedReplay
        + (Thread.after (perform move) { runtime := rt } history).metrics.ingestRejectedAuthority
      = sumOf (countShare kindCount) history := by
  have hkinds := hplayed.counter (perform move)
    (fun s => s.metrics.ingestRejectedStale + s.metrics.ingestRejectedReplay
      + s.metrics.ingestRejectedAuthority) (countShare kindCount) fun k s => by
      cases k with
      | countIngest result => exact countIngest_kinds s.metrics result
      | countUpdate kind => cases kind <;> rfl
      | _ => rfl
  exact hkinds.trans (Nat.zero_add _)

/-- No section of a history has an uncounted rejection. -/
theorem uncounted_eq_zero (hplayed : Thread.Played (perform move) { runtime := rt } history) :
    sumOf (ingestShare uncountedFence) history = 0 := by
  have hnone := hplayed.counter (perform move) (fun _ => 0) (ingestShare uncountedFence) fun k s => by
    cases k with
    | ingest record now topology =>
        exact ((Nat.zero_add _).trans (EvidenceStore.uncountedFence_ingest s.runtime.store record now
          s.runtime.config.ingest (some topology))).symm
    | _ => rfl
  exact (hnone.trans (Nat.zero_add _)).symm

theorem sumOf_add (f g : Program.Entry Section.Answer → Nat) (history : History ι) :
    sumOf (fun e => f e + g e) history = sumOf f history + sumOf g history := List.sum_map_add

/-- One for an update of the kind. -/
def oneOf (kind : EpisodeUpdateKind) (k : EpisodeUpdateKind) : Nat := if k = kind then 1 else 0

/-- The observations of a history that gave an update of the kind. -/
def updates (kind : EpisodeUpdateKind) (history : History ι) : Nat :=
  sumOf (observeShare (oneOf kind)) history

/-- The counter of an update kind, where it has one. -/
def counterOf (m : RuntimeMetrics) : EpisodeUpdateKind → Nat
  | .opened => m.episodesOpened
  | .escalated => m.episodesEscalated
  | .resolved => m.episodesResolved
  | .expired => m.episodesExpired
  | _ => 0

theorem counterOf_countIngest (m : RuntimeMetrics) (result : Result IngestOutcome)
    (kind : EpisodeUpdateKind) : counterOf (m.countIngest result) kind = counterOf m kind := by
  cases result with
  | error e =>
      unfold RuntimeMetrics.countIngest
      dsimp only
      split
      · rfl
      · rfl
  | ok outcome =>
      unfold RuntimeMetrics.countIngest
      dsimp only
      split
      · rfl
      · cases outcome.fence <;> rfl

/-- A counter of updates is a sum over the sections that count an update. -/
theorem counterOf_eq (kind : EpisodeUpdateKind)
    (hkind : kind = .opened ∨ kind = .escalated ∨ kind = .resolved ∨ kind = .expired)
    (hplayed : Thread.Played (perform move) { runtime := rt } history) :
    counterOf (Thread.after (perform move) { runtime := rt } history).metrics kind
      = sumOf (updateShare (oneOf kind)) history := by
  have hzero : counterOf {} kind = 0 := by cases kind <;> rfl
  have hcounter := hplayed.counter (perform move) (fun s => counterOf s.metrics kind)
    (updateShare (oneOf kind)) fun k s => by
      cases k with
      | countIngest result => exact counterOf_countIngest s.metrics result kind
      | countUpdate k => rcases hkind with rfl | rfl | rfl | rfl <;> cases k <;> rfl
      | _ => rfl
  rw [hzero, Nat.zero_add] at hcounter
  exact hcounter

/-- No observation resolves an episode or lets it expire. -/
theorem updates_eq_zero {kind : EpisodeUpdateKind} (hkind : kind = .resolved ∨ kind = .expired)
    (hplayed : Thread.Played (perform move) { runtime := rt } history) : updates kind history = 0 := by
  have hnone := hplayed.counter (perform move) (fun _ => 0) (observeShare (oneOf kind)) fun k s => by
    cases k with
    | observe assessment now =>
        have hshare : observeShare (oneOf kind)
            ⟨.observe assessment now, (perform move (.observe assessment now) s).1⟩ = 0 := by
          unfold observeShare
          dsimp only
          split
          · rename_i update hupdate
            obtain ⟨hresolved, hexpired⟩ := EpisodeRegistry.kind_of_observe
              (show (s.runtime.registry.observe assessment s.runtime.config.episode now).1 = .ok update
                from hupdate)
            rcases hkind with rfl | rfl
            · exact if_neg hresolved
            · exact if_neg hexpired
          · rfl
        rw [hshare]
    | _ => rfl
  exact (hnone.trans (Nat.zero_add _)).symm

/-! ### What the metrics say -/

/-- The metrics never run ahead. Every rejection of the fence is counted by kind, and an evaluation
neither resolves an episode nor lets it expire. -/
structure Follows (s : SharedRuntime) (history : History ι) : Prop where
  ingested : s.metrics.ingested ≤ s.runtime.store.stats.accepted
  fenced : s.metrics.ingestRejectedFence ≤ s.runtime.store.stats.rejectedFence
  opened : s.metrics.episodesOpened ≤ updates .opened history
  escalated : s.metrics.episodesEscalated ≤ updates .escalated history
  kinds : s.metrics.ingestRejectedFence = s.metrics.ingestRejectedStale
    + s.metrics.ingestRejectedReplay + s.metrics.ingestRejectedAuthority
  resolved : s.metrics.episodesResolved = 0
  expired : s.metrics.episodesExpired = 0

/-- The metrics have counted everything. -/
structure CaughtUp (s : SharedRuntime) (history : History ι) : Prop where
  ingested : s.metrics.ingested = s.runtime.store.stats.accepted
  fenced : s.metrics.ingestRejectedFence = s.runtime.store.stats.rejectedFence
  opened : s.metrics.episodesOpened = updates .opened history
  escalated : s.metrics.episodesEscalated = updates .escalated history

end

section

variable {ι : Type} [DecidableEq ι] {move : SelfMove} {rt : Runtime}
  {turns : List (Turn ι (ThreadMove Request) Empty)}

theorem sumOf_countShare_le (c : Result IngestOutcome → Nat) :
    sumOf (countShare c) (runThreads move rt turns).history
      ≤ sumOf (ingestShare c) (runThreads move rt turns).history :=
  Thread.runAll_total_le (perform move) fun call _ _ hgoes =>
    (owes_operation_ingest c call).sum_le hgoes

theorem sumOf_countShare_eq (c : Result IngestOutcome → Nat)
    (hidle : ∀ i, (runThreads move rt turns).own i = .idle) :
    sumOf (countShare c) (runThreads move rt turns).history
      = sumOf (ingestShare c) (runThreads move rt turns).history :=
  Thread.runAll_total_eq (perform move) hidle fun call _ _ hgoes =>
    (owes_operation_ingest c call).sum_eq hgoes

theorem sumOf_updateShare_le (c : EpisodeUpdateKind → Nat) :
    sumOf (updateShare c) (runThreads move rt turns).history
      ≤ sumOf (observeShare c) (runThreads move rt turns).history :=
  Thread.runAll_total_le (perform move) fun call _ _ hgoes =>
    (owes_operation_update c call).sum_le hgoes

theorem sumOf_updateShare_eq (c : EpisodeUpdateKind → Nat)
    (hidle : ∀ i, (runThreads move rt turns).own i = .idle) :
    sumOf (updateShare c) (runThreads move rt turns).history
      = sumOf (observeShare c) (runThreads move rt turns).history :=
  Thread.runAll_total_eq (perform move) hidle fun call _ _ hgoes =>
    (owes_operation_update c call).sum_eq hgoes

/-- **The metrics agree with the components.** They never run ahead of them under any interleaving,
and have counted everything whenever no thread is within a call. -/
theorem threads_metrics (config : RuntimeConfig) (rt : Runtime) (hcreate : create config = .ok rt)
    (turns : List (Turn ι (ThreadMove Request) Empty)) :
    Follows (runThreads move rt turns).shared (runThreads move rt turns).history ∧
      ((∀ i, (runThreads move rt turns).own i = .idle) →
        CaughtUp (runThreads move rt turns).shared (runThreads move rt turns).history) := by
  obtain ⟨hshared, hplayed⟩ := @Thread.runAll_played ι _ _ _ _ _
    (operation rt.config rt.snapshotStore) (perform move) _ { runtime := rt } turns
  have hempty : rt.store.stats = {} := by rw [(create_store hcreate).2]
  obtain ⟨hingested, hfenced⟩ := ingested_eq hplayed
  obtain ⟨haccepted, hrejected⟩ := accepted_eq hempty hplayed
  have hkinds := kinds_eq hplayed
  have hopened := counterOf_eq .opened (Or.inl rfl) hplayed
  have hescalated := counterOf_eq .escalated (Or.inr (Or.inl rfl)) hplayed
  have hresolved := counterOf_eq .resolved (Or.inr (Or.inr (Or.inl rfl))) hplayed
  have hexpired := counterOf_eq .expired (Or.inr (Or.inr (Or.inr rfl))) hplayed
  unfold runtimeAfter at haccepted hrejected
  rw [← hshared] at hingested hfenced haccepted hrejected hkinds hopened hescalated hresolved hexpired
  -- No rejection is left uncounted by kind, and no observation resolves or expires.
  have huncounted : sumOf (countShare uncountedFence) (runThreads move rt turns).history = 0 :=
    Nat.le_zero.mp ((sumOf_countShare_le uncountedFence).trans (uncounted_eq_zero hplayed).le)
  have hnever : ∀ {kind}, kind = .resolved ∨ kind = .expired →
      sumOf (updateShare (oneOf kind)) (runThreads move rt turns).history = 0 :=
    fun hkind => Nat.le_zero.mp ((sumOf_updateShare_le _).trans (updates_eq_zero hkind hplayed).le)
  have hsplit : sumOf (countShare fencedCount) (runThreads move rt turns).history
      = sumOf (countShare kindCount) (runThreads move rt turns).history
        + sumOf (countShare uncountedFence) (runThreads move rt turns).history := by
    rw [← sumOf_add]
    refine congrArg (fun share => sumOf share (runThreads move rt turns).history) (funext fun entry => ?_)
    obtain ⟨k, answer⟩ := entry
    cases k with
    | countIngest result => exact fencedCount_eq result
    | _ => rfl
  rw [huncounted, Nat.add_zero] at hsplit
  refine ⟨⟨?_, ?_, ?_, ?_, ?_, ?_, ?_⟩, fun hidle => ⟨?_, ?_, ?_, ?_⟩⟩
  · exact hingested.le.trans ((sumOf_countShare_le storedCount).trans haccepted.ge)
  · exact hfenced.le.trans ((sumOf_countShare_le fencedCount).trans hrejected.ge)
  · exact hopened.le.trans (sumOf_updateShare_le (oneOf .opened))
  · exact hescalated.le.trans (sumOf_updateShare_le (oneOf .escalated))
  · exact hfenced.trans (hsplit.trans hkinds.symm)
  · exact hresolved.trans (hnever (Or.inl rfl))
  · exact hexpired.trans (hnever (Or.inr rfl))
  · exact hingested.trans ((sumOf_countShare_eq storedCount hidle).trans haccepted.symm)
  · exact hfenced.trans ((sumOf_countShare_eq fencedCount hidle).trans hrejected.symm)
  · exact hopened.trans (sumOf_updateShare_eq (oneOf .opened) hidle)
  · exact hescalated.trans (sumOf_updateShare_eq (oneOf .escalated) hidle)

/-- The result at two threads that are idle at the end. -/
theorem threads_metrics_drop :
    Follows (runThreads SelfMove.transfer (initial {}) dropTurns).shared
        (runThreads SelfMove.transfer (initial {}) dropTurns).history ∧
      CaughtUp (runThreads SelfMove.transfer (initial {}) dropTurns).shared
        (runThreads SelfMove.transfer (initial {}) dropTurns).history := by
  have hidle : ∀ i, ((runThreads SelfMove.transfer (initial {}) dropTurns).own i).isIdle = true := by
    decide +kernel
  obtain ⟨hfollows, hcaughtUp⟩ := @threads_metrics Bool _ SelfMove.transfer {} (initial {})
    create_default dropTurns
  exact ⟨hfollows, hcaughtUp fun i => Thread.isIdle_iff.mp (hidle i)⟩

end

end Runtime

end CongestionObservatory
