import CongestionObservatory.Proofs.Assessment.Decisive

/-!
# `CongestionObservatory.Proofs.Assessment.Blockers`: which blockers a run reports

Every blocker goes through `block`, which drops a code it has and everything beyond 32 entries.
There are 17 codes, so the bound never drops one (`Room`).

Two codes are reported under a condition that matters here: `conflictingSources` and
`staleImpairment`. `run_keeps` is the invariant rule for a whole run. A property of the blockers
holds at the end if the other codes keep it, and if each of the two keeps it when its condition
holds. From it:

* `hasBlocker_conflictingSources_iff`: the code is reported exactly when an agreement is a
  conflict.
* `hasBlocker_staleImpairment_iff`: the code is reported exactly when the rules get past R02 with
  no usable record and an impairment that is not usable.

`stale_impairment_named_iff` is the consequence for `classifySubject`.
-/

set_option autoImplicit false

namespace CongestionObservatory

open Lib

namespace Blockers

/-- The codes that are not `conflictingSources` or `staleImpairment`. -/
def others : List Text :=
  [utilizationAlone, stalePressureCannotProveCurrent, singleSourceUncorroborated,
    unsupportedEvidence, incompleteEvidence, noDemandContext, unknownFreshness, absenceOfEvidence,
    generationMismatch, persistedNotLive, noFreshEvidence, impairmentBelowThreshold,
    counterWithoutDelta, retiredIncarnation, backlogBelowThreshold]

/-- Every code. -/
def all : List Text := conflictingSources :: staleImpairment :: others

theorem conflictingSources_not_mem_others : conflictingSources ∉ others := by decide +kernel

theorem staleImpairment_not_mem_others : staleImpairment ∉ others := by decide +kernel

theorem staleImpairment_ne : staleImpairment ≠ conflictingSources := by decide +kernel

end Blockers

namespace RuleEngine

variable {e : RuleEngine Double} {a : CongestionAssessment} {code : Text}

/-! ### One blocker -/

/-- Reporting the code keeps the property of the blockers. -/
def Keeps (I : List Blocker → Prop) (code : Text) : Prop :=
  ∀ (detail : Text) (a : CongestionAssessment), I a.blockers → I (block code detail a).blockers

@[simp] theorem step_blockers (ruleId decision reasonCode : String) :
    (e.step ruleId decision reasonCode a).blockers = a.blockers := by
  unfold step
  split <;> rfl

/-- The codes are known, and each is there once. -/
structure Room (blockers : List Blocker) : Prop where
  nodup : (blockers.map Blocker.code).Nodup
  known : ∀ blocker ∈ blockers, blocker.code ∈ Blockers.all

theorem Room.nil : Room [] := ⟨List.nodup_nil, fun _ h => absurd h List.not_mem_nil⟩

/-- There are fewer codes than `block` has room for. -/
theorem Room.length_lt {blockers : List Blocker} (h : Room blockers) : blockers.length < 32 := by
  have hsubset : blockers.map Blocker.code ⊆ Blockers.all := by
    intro code hcode
    obtain ⟨blocker, hblocker, rfl⟩ := List.mem_map.mp hcode
    exact h.known blocker hblocker
  have hle := (List.subperm_of_subset h.nodup hsubset).length_le
  rw [List.length_map] at hle
  have hall : Blockers.all.length = 17 := rfl
  omega

/-- What `block` does when there is room. -/
theorem block_blockers (h : Room a.blockers) (code detail : Text) :
    (block code detail a).blockers
      = if code ∈ a.blockers.map Blocker.code then a.blockers
        else a.blockers ++ [{ code := code, detail := detail }] := by
  have hany : (a.blockers.any fun existing => existing.code == code) = true ↔
      code ∈ a.blockers.map Blocker.code := by
    simp [List.any_eq_true, List.mem_map]
  have hlength := h.length_lt
  unfold block
  by_cases hmem : code ∈ a.blockers.map Blocker.code
  · rw [if_pos (hany.mpr hmem), if_pos hmem]
  · rw [if_neg (mt hany.mp hmem), if_neg (by omega), if_neg hmem]

theorem keeps_room (hcode : code ∈ Blockers.all) : Keeps Room code := by
  intro detail a h
  rw [block_blockers h]
  split
  · exact h
  · rename_i hnew
    refine ⟨?_, ?_⟩
    · rw [List.map_append, List.map_singleton]
      refine List.nodup_append.mpr ⟨h.nodup, List.nodup_singleton _, fun x hx y hy heq => ?_⟩
      rw [List.mem_singleton.mp hy] at heq
      exact hnew (Eq.subst heq hx)
    · intro blocker hblocker
      rcases List.mem_append.mp hblocker with hold | hlast
      · exact h.known blocker hold
      · rw [List.mem_singleton.mp hlast]
        exact hcode

/-- A code that is reported stays. -/
theorem keeps_mem (reported code : Text) :
    Keeps (fun blockers => reported ∈ blockers.map Blocker.code) code := by
  intro detail a h
  unfold block
  split
  · exact h
  · split
    · exact h
    · rw [List.map_append]
      exact List.mem_append_left _ h

/-- Reporting one code does not report another. -/
theorem keeps_not_mem {absent : Text} (h : code ≠ absent) :
    Keeps (fun blockers => absent ∉ blockers.map Blocker.code) code := by
  intro detail a habsent
  unfold block
  split
  · exact habsent
  · split
    · exact habsent
    · rw [List.map_append, List.mem_append, List.map_singleton, List.mem_singleton]
      rintro (hmem | heq)
      · exact habsent hmem
      · exact h heq.symm

/-- A code that is blocked is reported, as there is room. -/
theorem mem_block (h : Room a.blockers) (code detail : Text) :
    code ∈ (block code detail a).blockers.map Blocker.code := by
  rw [block_blockers h]
  split
  · assumption
  · simp

/-! ### A whole run -/

variable (e) in
/-- The agreements the final pass looks at, each with its role. -/
def agreements : List (String × Agreement) :=
  [("utilization", e.features.utilizationAgreement), ("pressure", e.features.pressureAgreement),
    ("demand", e.features.demandAgreement), ("impairment", e.features.impairmentAgreement)]

variable (e) in
/-- Some agreement is a conflict. -/
def HasConflict : Prop := ∃ entry ∈ e.agreements, agreementIsConflict entry.2 = true

variable (e) in
/-- R03 finds no usable record and an impairment that is not usable. -/
def StaleImpairmentOnly : Prop :=
  e.features.anyFreshDeciding = false ∧ e.features.impairmentSeenNotFresh = true

/-! The two halves of `collectConflictBlockers`. -/

variable (e) in
/-- One agreement. -/
def reportConflict (a : CongestionAssessment) (entry : String × Agreement) : CongestionAssessment :=
  if agreementIsConflict entry.2 then
    e.step "R10-agreement" "applied" "conflicting_sources_reported"
      (block Blockers.conflictingSources (ascii entry.1 ++ ascii " sources disagree ("
        ++ entry.2.toText ++ ascii "); every position stays cited") a)
  else a

/-- A code with its count, if that is positive. -/
def report (count : Nat) (code : Text) (detail : String) (a : CongestionAssessment) :
    CongestionAssessment :=
  if count > 0 then block code (decimal count ++ ascii detail) a else a

variable (e) in
/-- The counts. -/
def reportCounts (a : CongestionAssessment) : CongestionAssessment :=
  report e.features.recordsRetired Blockers.retiredIncarnation
    " record(s) belong to a retired source incarnation"
    (report e.features.recordsRecovered Blockers.persistedNotLive
      " record(s) were recovered from a snapshot and are not live"
      (report e.features.recordsUnknownFreshness Blockers.unknownFreshness
        " record(s) have unknown freshness"
        (report e.features.incompleteRecords Blockers.incompleteEvidence
          " record(s) are incomplete" a)))

theorem collectConflictBlockers_eq :
    e.collectConflictBlockers a = e.reportCounts (e.agreements.foldl e.reportConflict a) := rfl

section Invariant

variable {I : List Blocker → Prop}

theorem reportConflict_keeps (hconflict : e.HasConflict → Keeps I Blockers.conflictingSources)
    {entry : String × Agreement} (hentry : entry ∈ e.agreements) (h : I a.blockers) :
    I (e.reportConflict a entry).blockers := by
  unfold reportConflict
  split
  · rename_i hc
    rw [step_blockers]
    exact hconflict ⟨entry, hentry, hc⟩ _ _ h
  · exact h

variable (hothers : ∀ code ∈ Blockers.others, Keeps I code)

include hothers

theorem reportCounts_keeps (h : I a.blockers) : I (e.reportCounts a).blockers := by
  have hreport : ∀ (count : Nat) (code : Text) (detail : String) (b : CongestionAssessment),
      code ∈ Blockers.others → I b.blockers → I (report count code detail b).blockers := by
    intro count code detail b hcode hb
    unfold report
    split
    · exact hothers code hcode _ _ hb
    · exact hb
  unfold reportCounts
  apply hreport _ _ _ _ (by simp [Blockers.others])
  apply hreport _ _ _ _ (by simp [Blockers.others])
  apply hreport _ _ _ _ (by simp [Blockers.others])
  exact hreport _ _ _ _ (by simp [Blockers.others]) h

theorem collectConflictBlockers_keeps
    (hconflict : e.HasConflict → Keeps I Blockers.conflictingSources) (h : I a.blockers) :
    I (e.collectConflictBlockers a).blockers := by
  rw [collectConflictBlockers_eq]
  apply reportCounts_keeps hothers
  -- Every entry of the loop is one of the agreements.
  suffices hloop : ∀ entries : List (String × Agreement), entries ⊆ e.agreements →
      ∀ b : CongestionAssessment, I b.blockers → I (entries.foldl e.reportConflict b).blockers from
    hloop _ (List.Subset.refl _) a h
  intro entries
  induction entries with
  | nil => exact fun _ _ hb => hb
  | cons entry rest ih =>
      intro hsubset b hb
      obtain ⟨hentry, hrest⟩ := List.cons_subset.mp hsubset
      exact ih hrest _ (reportConflict_keeps hconflict hentry hb)

theorem rulesFromContention_keeps (h : I a.blockers) : I (e.rulesFromContention a).blockers := by
  unfold rulesFromContention
  dsimp only
  split
  · rw [step_blockers]
    exact h
  split
  · rw [step_blockers]
    apply hothers _ (by simp [Blockers.others])
    show I (e.step _ _ _ a).blockers
    rw [step_blockers]
    exact h
  split
  · rw [step_blockers]
    show I (e.step _ _ _ a).blockers
    rw [step_blockers]
    exact h
  · rw [step_blockers]
    show I (e.step _ _ _ a).blockers
    rw [step_blockers]
    exact h

theorem rulesFromSaturation_keeps (h : I a.blockers) : I (e.rulesFromSaturation a).blockers := by
  unfold rulesFromSaturation
  dsimp only
  split
  · rw [step_blockers]
    exact h
  split
  · rw [step_blockers]
    show I (e.step _ _ _ a).blockers
    rw [step_blockers]
    exact h
  apply rulesFromContention_keeps hothers
  -- The backlog below the threshold, then the backlog that is not usable.
  have hbacklog : ∀ b : CongestionAssessment, I b.blockers →
      I (if e.features.pressureSeenNotFresh = true then
        e.step "R06-pressure" "applied" "stale_pressure_not_usable"
          (block Blockers.stalePressureCannotProveCurrent
            (ascii "backlog evidence exists but none of it is fresh") b)
        else e.step "R06-pressure" "skipped" "no_pressure_evidence" b).blockers := by
    intro b hb
    split
    · rw [step_blockers]
      exact hothers _ (by simp [Blockers.others]) _ _ hb
    · rw [step_blockers]
      exact hb
  apply hbacklog
  split
  · rw [step_blockers]
    apply hothers _ (by simp [Blockers.others])
    rw [step_blockers]
    exact h
  · rw [step_blockers]
    exact h

theorem rulesFromImpairment_keeps (h : I a.blockers) : I (e.rulesFromImpairment a).blockers := by
  unfold rulesFromImpairment
  dsimp only
  split
  · rw [step_blockers]
    exact h
  apply rulesFromSaturation_keeps hothers
  split
  · rw [step_blockers]
    split
    · exact hothers _ (by simp [Blockers.others]) _ _ h
    split
    · exact hothers _ (by simp [Blockers.others]) _ _ h
    · exact h
  · rw [step_blockers]
    exact h

theorem rulesFromFreshness_keeps
    (hconflict : e.HasConflict → Keeps I Blockers.conflictingSources)
    (hstale : e.StaleImpairmentOnly → Keeps I Blockers.staleImpairment) (h : I a.blockers) :
    I (e.rulesFromFreshness a).blockers := by
  unfold rulesFromFreshness
  dsimp only
  split
  · rename_i hnone
    apply collectConflictBlockers_keeps hothers hconflict
    split
    · rename_i hseen
      rw [step_blockers]
      exact hstale ⟨by simpa using hnone, hseen⟩ _ _ h
    split
    · rw [step_blockers]
      exact hothers _ (by simp [Blockers.others]) _ _ h
    split
    · rw [step_blockers]
      exact hothers _ (by simp [Blockers.others]) _ _ h
    · rw [step_blockers]
      exact hothers _ (by simp [Blockers.others]) _ _ h
  · apply rulesFromImpairment_keeps hothers
    rw [step_blockers]
    exact h

/-- The early returns of R00 to R02 are passed when some record of the window matches and some
is not unsupported. -/
theorem assessRules_keeps (hconflict : e.HasConflict → Keeps I Blockers.conflictingSources)
    (hstale : e.features.unsupportedRecords ≠ e.features.recordsInWindow →
      e.StaleImpairmentOnly → Keeps I Blockers.staleImpairment) (h : I a.blockers) :
    I (e.assessRules a).blockers := by
  -- R02 and what follows it.
  have hsupport : ∀ b : CongestionAssessment, e.features.recordsInWindow ≠ 0 → I b.blockers →
      I (e.rulesFromSupport b).blockers := by
    intro b hwindow hb
    unfold rulesFromSupport
    dsimp only
    split
    · split
      · show I (e.step _ _ _ _).blockers
        rw [step_blockers]
        exact hothers _ (by simp [Blockers.others]) _ _ hb
      · rename_i hne
        apply rulesFromFreshness_keeps hothers hconflict (hstale hne)
        rw [step_blockers]
        exact hothers _ (by simp [Blockers.others]) _ _ hb
    · apply rulesFromFreshness_keeps hothers hconflict (hstale (by omega))
      rw [step_blockers]
      exact hb
  unfold assessRules
  split
  · show I (e.step _ _ _ _).blockers
    rw [step_blockers]
    exact hothers _ (by simp [Blockers.others]) _ _ h
  · rename_i hwindow
    unfold rulesFromGeneration
    dsimp only
    split
    · split
      · show I (e.step _ _ _ _).blockers
        rw [step_blockers]
        apply hothers _ (by simp [Blockers.others])
        rw [step_blockers]
        exact h
      · apply hsupport _ hwindow
        rw [step_blockers]
        apply hothers _ (by simp [Blockers.others])
        rw [step_blockers]
        exact h
    · apply hsupport _ hwindow
      rw [step_blockers, step_blockers]
      exact h

/-- What follows the conflicts in the final pass. -/
theorem finalize_keeps {citations : List EvidenceId}
    (h : I (e.collectConflictBlockers { a with citations := citations }).blockers) :
    I (e.finalize citations a).blockers := by
  have hreport : ∀ (c : Prop) [Decidable c] (code detail : Text) (b : CongestionAssessment),
      code ∈ Blockers.others → I b.blockers →
      I (if c then block code detail b else b).blockers := by
    intro c _ code detail b hcode hb
    split
    · exact hothers code hcode _ _ hb
    · exact hb
  unfold finalize
  dsimp only
  apply hreport _ _ _ _ (by simp [Blockers.others])
  apply hreport _ _ _ _ (by simp [Blockers.others])
  exact hreport _ _ _ _ (by simp [Blockers.others]) h

/-- The rule for a whole run. -/
theorem run_keeps (hconflict : e.HasConflict → Keeps I Blockers.conflictingSources)
    (hstale : e.features.unsupportedRecords ≠ e.features.recordsInWindow →
      e.StaleImpairmentOnly → Keeps I Blockers.staleImpairment) (h : I [])
    (citations : List EvidenceId) : I (e.run citations).blockers := by
  unfold run
  apply finalize_keeps hothers
  apply collectConflictBlockers_keeps hothers hconflict
  exact assessRules_keeps hothers hconflict hstale h

end Invariant

/-! ### The two codes -/

theorem room_assessRules (h : Room a.blockers) : Room (e.assessRules a).blockers :=
  assessRules_keeps (fun _ hcode => keeps_room (List.mem_cons_of_mem _ (List.mem_cons_of_mem _ hcode)))
    (fun _ => keeps_room List.mem_cons_self)
    (fun _ _ => keeps_room (List.mem_cons_of_mem _ List.mem_cons_self)) h

theorem hasBlocker_iff {a : CongestionAssessment} {code : Text} :
    a.hasBlocker code = true ↔ code ∈ a.blockers.map Blocker.code := by
  simp [CongestionAssessment.hasBlocker, List.any_eq_true, List.mem_map]

/-- The loop over the agreements reports a conflict when there is one. -/
theorem foldl_reportConflict (entries : List (String × Agreement)) (hroom : Room a.blockers)
    (hconflict : ∃ entry ∈ entries, agreementIsConflict entry.2 = true) :
    Blockers.conflictingSources
      ∈ (entries.foldl e.reportConflict a).blockers.map Blocker.code := by
  -- From a conflict on the code is there, and up to it nothing is reported.
  have hstays : ∀ (entries : List (String × Agreement)) (b : CongestionAssessment),
      Blockers.conflictingSources ∈ b.blockers.map Blocker.code →
      Blockers.conflictingSources
        ∈ (entries.foldl e.reportConflict b).blockers.map Blocker.code := by
    intro entries
    induction entries with
    | nil => exact fun _ hb => hb
    | cons entry rest ih =>
        intro b hb
        apply ih
        unfold reportConflict
        split
        · rw [step_blockers]
          exact keeps_mem _ _ _ _ hb
        · exact hb
  induction entries with
  | nil =>
      obtain ⟨entry, hmem, -⟩ := hconflict
      exact absurd hmem List.not_mem_nil
  | cons entry rest ih =>
      rw [List.foldl_cons]
      by_cases hc : agreementIsConflict entry.2 = true
      · apply hstays
        rw [reportConflict, if_pos hc, step_blockers]
        exact mem_block hroom _ _
      · rw [reportConflict, if_neg hc]
        apply ih
        obtain ⟨entry', hmem, hc'⟩ := hconflict
        rcases List.mem_cons.mp hmem with rfl | hrest
        · exact absurd hc' hc
        · exact ⟨entry', hrest, hc'⟩

theorem collectConflictBlockers_conflict (hroom : Room a.blockers) (hconflict : e.HasConflict) :
    Blockers.conflictingSources ∈ (e.collectConflictBlockers a).blockers.map Blocker.code := by
  rw [collectConflictBlockers_eq]
  apply reportCounts_keeps (I := fun blockers => Blockers.conflictingSources
    ∈ blockers.map Blocker.code) fun code _ => keeps_mem _ code
  exact foldl_reportConflict _ hroom hconflict

/-- Conflicting sources are reported exactly when an agreement is a conflict. -/
theorem hasBlocker_conflictingSources_iff (e : RuleEngine Double) (citations : List EvidenceId) :
    (e.run citations).hasBlocker Blockers.conflictingSources = true ↔ e.HasConflict := by
  rw [hasBlocker_iff]
  constructor
  · intro hmem
    by_contra hnone
    refine absurd hmem (run_keeps (I := fun blockers => Blockers.conflictingSources
      ∉ blockers.map Blocker.code) ?_ (fun h => absurd h hnone) ?_ List.not_mem_nil citations)
    · intro code hcode
      exact keeps_not_mem fun heq => Blockers.conflictingSources_not_mem_others (heq ▸ hcode)
    · exact fun _ _ => keeps_not_mem Blockers.staleImpairment_ne
  · intro hconflict
    unfold run
    apply finalize_keeps (I := fun blockers => Blockers.conflictingSources
      ∈ blockers.map Blocker.code) fun code _ => keeps_mem _ code
    exact collectConflictBlockers_conflict (room_assessRules Room.nil) hconflict

/-- R03 reports a stale impairment when it is the reason, and the rest of R03 keeps the code. -/
theorem rulesFromFreshness_stale (hroom : Room a.blockers) (hstale : e.StaleImpairmentOnly) :
    Blockers.staleImpairment ∈ (e.rulesFromFreshness a).blockers.map Blocker.code := by
  obtain ⟨hnone, hseen⟩ := hstale
  have hkeeps : ∀ code, Keeps (fun blockers => Blockers.staleImpairment
      ∈ blockers.map Blocker.code) code := keeps_mem _
  unfold rulesFromFreshness
  dsimp only
  rw [hnone, hseen]
  apply collectConflictBlockers_keeps (I := fun blockers => Blockers.staleImpairment
    ∈ blockers.map Blocker.code) (fun code _ => hkeeps code) fun _ => hkeeps _
  show _ ∈ (e.step _ _ _ _).blockers.map Blocker.code
  rw [step_blockers]
  exact mem_block (a := { a with verdict := .indeterminate }) hroom _ _

/-- The early returns are not taken when some record of the window matches and some is not
unsupported. -/
theorem assessRules_stale (hroom : Room a.blockers) (hwindow : e.features.recordsInWindow ≠ 0)
    (hgeneration : e.features.recordsGenerationMismatch ≠ e.features.recordsInWindow)
    (hsupport : e.features.unsupportedRecords ≠ e.features.recordsInWindow)
    (hstale : e.StaleImpairmentOnly) :
    Blockers.staleImpairment ∈ (e.assessRules a).blockers.map Blocker.code := by
  have hsupported : ∀ b : CongestionAssessment, Room b.blockers →
      Blockers.staleImpairment ∈ (e.rulesFromSupport b).blockers.map Blocker.code := by
    intro b hb
    unfold rulesFromSupport
    dsimp only
    split
    · refine rulesFromFreshness_stale ?_ hstale
      rw [step_blockers]
      exact keeps_room (by simp [Blockers.all, Blockers.others]) _ _ hb
    · refine rulesFromFreshness_stale ?_ hstale
      rw [step_blockers]
      exact hb
  unfold assessRules rulesFromGeneration
  rw [if_neg hwindow]
  dsimp only
  split
  · apply hsupported
    rw [step_blockers]
    apply keeps_room (by simp [Blockers.all, Blockers.others])
    rw [step_blockers]
    exact hroom
  · apply hsupported
    rw [step_blockers, step_blockers]
    exact hroom

/-- Where the generation lets the rules pass, a stale impairment is reported exactly when some
record is not unsupported, none is usable, and some impairment is not usable. -/
theorem hasBlocker_staleImpairment_iff (e : RuleEngine Double) (citations : List EvidenceId)
    (hwindow : e.features.recordsInWindow ≠ 0)
    (hgeneration : e.features.recordsGenerationMismatch ≠ e.features.recordsInWindow) :
    (e.run citations).hasBlocker Blockers.staleImpairment = true ↔
      e.features.unsupportedRecords ≠ e.features.recordsInWindow ∧ e.StaleImpairmentOnly := by
  have hkeeps : ∀ code, Keeps (fun blockers => Blockers.staleImpairment
      ∈ blockers.map Blocker.code) code := keeps_mem _
  rw [hasBlocker_iff]
  constructor
  · intro hmem
    by_contra hnone
    refine absurd hmem (run_keeps (I := fun blockers => Blockers.staleImpairment
      ∉ blockers.map Blocker.code) ?_ ?_ (fun h h' => absurd ⟨h, h'⟩ hnone) List.not_mem_nil
      citations)
    · intro code hcode
      exact keeps_not_mem fun heq => Blockers.staleImpairment_not_mem_others (heq ▸ hcode)
    · exact fun _ => keeps_not_mem Blockers.staleImpairment_ne.symm
  · rintro ⟨hsupport, hstale⟩
    unfold run
    apply finalize_keeps (I := fun blockers => Blockers.staleImpairment
      ∈ blockers.map Blocker.code) fun code _ => hkeeps code
    apply collectConflictBlockers_keeps (I := fun blockers => Blockers.staleImpairment
      ∈ blockers.map Blocker.code) (fun code _ => hkeeps code) fun _ => hkeeps _
    exact assessRules_stale Room.nil hwindow hgeneration hsupport hstale

end RuleEngine

/-! ### Stale impairment -/

section Stale

variable (request : ClassificationRequest) (policy : ClassificationPolicy)
  (records : List (Option EvidenceRecord))

theorem features_impairmentSeenNotFresh :
    (extractFeatures Double request records policy).impairmentSeenNotFresh
      = seenNotFresh request policy records .impairment := by
  unfold extractFeatures impairmentFeatures
  dsimp only
  split <;> rfl

/-- The window is not reported as unsupported when some record of it is not. -/
theorem unsupportedRecords_ne_iff :
    (extractFeatures Double request records policy).unsupportedRecords
        ≠ (extractFeatures Double request records policy).recordsInWindow ↔
      ∃ r ∈ recordsInWindow request records, r.support ≠ .unsupported := by
  rw [features_unsupportedRecords, features_recordsInWindow, ne_eq, List.countP_eq_length]
  simp only [beq_iff_eq, not_forall, exists_prop, ne_eq]

/-- Let some matching record report impairment, and let none of them be usable. The blocker for
stale impairment is there exactly when no record of any role is usable and not every record of
the window is unsupported. -/
theorem stale_impairment_named_iff
    (hmatching : ∃ r ∈ matchingRecords request records, roleOf r.kind = .impairment)
    (hunusable : ∀ r ∈ usableRecords request policy records, roleOf r.kind ≠ .impairment) :
    (∀ a, classifySubject Double request records policy = .ok a → a.verdict ≠ .congestionConfirmed →
      a.hasBlocker Blockers.staleImpairment = true) ↔
    (ValidRequest request → usableRecords request policy records = [] ∧
      ∃ r ∈ recordsInWindow request records, r.support ≠ .unsupported) := by
  by_cases hvalid : ValidRequest request
  swap
  · exact iff_of_true (fun a ha => absurd (validRequest_of_ok policy ha) hvalid)
      fun h => absurd h hvalid
  obtain ⟨r, hr, hrole⟩ := hmatching
  obtain ⟨hinWindow, hgen⟩ := List.mem_filter.mp hr
  -- The matching record keeps R00 and R01 from returning, and it is not usable.
  have hwindow : (extractFeatures Double request records policy).recordsInWindow ≠ 0 := by
    rw [features_recordsInWindow]
    exact fun h => List.ne_nil_of_mem hinWindow (List.length_eq_zero_iff.mp h)
  have hgeneration : (extractFeatures Double request records policy).recordsGenerationMismatch
      ≠ (extractFeatures Double request records policy).recordsInWindow := by
    rw [features_recordsGenerationMismatch, features_recordsInWindow]
    intro h
    have hall := List.countP_eq_length.mp h r hinWindow
    rw [hgen] at hall
    cases hall
  have hseen : (extractFeatures Double request records policy).impairmentSeenNotFresh = true := by
    rw [features_impairmentSeenNotFresh, seenNotFresh, List.any_eq_true]
    refine ⟨r, hr, ?_⟩
    cases hdeciding : isDeciding request policy r with
    | false => simp [hrole]
    | true => exact absurd hrole (hunusable r (List.mem_filter.mpr ⟨hr, hdeciding⟩))
  have hempty : usableImpairment request policy records = [] :=
    List.filter_eq_nil_iff.mpr fun r hr => by simpa using hunusable r hr
  have hverdict : ((engineOf Double request policy records).run
      (collectCitations request policy records)).verdict ≠ .congestionConfirmed := by
    rw [ne_eq, run_confirmed_iff, hempty]
    exact not_decisive_nil Double policy
  have hstale : (engineOf Double request policy records).StaleImpairmentOnly ↔
      usableRecords request policy records = [] := by
    show (extractFeatures Double request records policy).anyFreshDeciding = false ∧
      (extractFeatures Double request records policy).impairmentSeenNotFresh = true ↔ _
    rw [features_anyFreshDeciding, hseen]
    simp
  have hblocker := RuleEngine.hasBlocker_staleImpairment_iff (engineOf Double request policy records)
    (collectCitations request policy records) hwindow hgeneration
  rw [hstale] at hblocker
  rw [classifySubject_valid policy hvalid]
  simp only [Except.ok.injEq, forall_eq', hvalid, true_implies, hverdict, ne_eq,
    not_false_eq_true, hblocker]
  rw [and_comm, and_congr_right_iff]
  exact fun _ => unsupportedRecords_ne_iff request policy records

/-- A request half a minute later. -/
def laterRequest : ClassificationRequest :=
  { linkRequest with windowEnd := ⟨31000000000⟩, evaluatedAt := ⟨31000000000⟩ }

/-- A dropped packet of half a minute ago. -/
def staleDrop : EvidenceRecord :=
  linkObservation .dropCount
    { scalar := ⟨0x3FF0000000000000⟩, unit := .packets, semantics := .deltaCounter } "agent1" 1

/-- A heartbeat of the same source, now. -/
def freshHeartbeat : EvidenceRecord :=
  { linkObservation .sourceHeartbeat { unit := .count } "agent1" 2 with
    observedAt := ⟨31000000000⟩, receivedAt := ⟨31000000000⟩ }

/-- Next to a fresh heartbeat the stale drop is not named. -/
theorem stale_drop_not_named :
    let records := [some staleDrop, some freshHeartbeat]
    (∃ r ∈ matchingRecords laterRequest records, roleOf r.kind = .impairment) ∧
      (∀ r ∈ usableRecords laterRequest {} records, roleOf r.kind ≠ .impairment) ∧
      ¬ ∀ a, classifySubject Double laterRequest records {} = .ok a →
        a.verdict ≠ .congestionConfirmed → a.hasBlocker Blockers.staleImpairment = true := by
  intro records
  refine ⟨by decide +kernel, by decide +kernel, fun hclaim => ?_⟩
  have hanswer : ((classifySubject Double laterRequest records {}).toOption.map fun a =>
      (decide (a.verdict = .congestionConfirmed), a.hasBlocker Blockers.staleImpairment))
      = some (false, false) := by decide +kernel
  cases hc : classifySubject Double laterRequest records {} with
  | error e =>
      rw [hc] at hanswer
      cases hanswer
  | ok a =>
      rw [hc] at hanswer
      simp only [Except.toOption, Option.map_some, Option.some.injEq, Prod.mk.injEq,
        decide_eq_false_iff_not] at hanswer
      have hnamed := hclaim a hc hanswer.1
      rw [hanswer.2] at hnamed
      cases hnamed

/-- Alone it is named. -/
theorem stale_drop_named :
    (∃ r ∈ matchingRecords laterRequest [some staleDrop], roleOf r.kind = .impairment) ∧
      ∀ a, classifySubject Double laterRequest [some staleDrop] {} = .ok a →
        a.verdict ≠ .congestionConfirmed → a.hasBlocker Blockers.staleImpairment = true :=
  ⟨by decide +kernel, (stale_impairment_named_iff laterRequest {} [some staleDrop]
    (by decide +kernel) (by decide +kernel)).mpr fun _ => by decide +kernel⟩

end Stale

end CongestionObservatory
