import CongestionObservatory.Proofs.Assessment.Blockers
import CongestionObservatory.Proofs.Core.Double
import CongestionObservatory.Proofs.Evidence.Agreement

/-!
# `CongestionObservatory.Proofs.Assessment.Conflict`: what a reported conflict means

`assess_agreement` compares records of one subject and kind. The rules hand it all usable records
of a role, and a role has several kinds. `agreementIsConflict_iff` says when such a group is
reported as a conflict: it is `Spread` around its smallest value, whatever the kinds and whichever
sources the values come from.

Values that are spread need not be two reports of one kind. `reported_conflict_real_iff` says when
a reported conflict comes from two sources that differ about one kind. Where a group is what
`assess_agreement` is written for, finite values of one kind and one from each source, a spread is
always such a difference (`Spread.disagree`).
-/

set_option autoImplicit false

namespace CongestionObservatory

open Lib NumberOrder

/-! ### A group in conflict -/

/-- The records can be compared and come from at least two sources, and some value is farther from
the first in the order of the sort, the smallest one, than the tolerance allows. -/
def Spread (tolerance : Double) (group : List EvidenceRecord) : Prop :=
  comparableRecords group = true ∧ 2 ≤ (sourceNames group).card ∧
    ∃ first rest, orderedPositions group = first :: rest ∧
      ∃ p ∈ rest, withinTolerance tolerance first.scalar p.scalar = false

/-- A group is reported as a conflict exactly when it is spread. -/
theorem agreementIsConflict_iff (request : ClassificationRequest) (policy : ClassificationPolicy)
    (group : List EvidenceRecord) :
    agreementIsConflict (groupAgreement Double request policy group) = true ↔
      Spread policy.conflictRelativeTolerance group := by
  unfold groupAgreement
  show agreementIsConflict (assessAgreement group policy.conflictRelativeTolerance
    request.maxCitations).agreement = true ↔ _
  generalize policy.conflictRelativeTolerance = tolerance
  by_cases hnil : group = []
  · subst hnil
    refine iff_of_false Bool.false_ne_true ?_
    rintro ⟨-, hsources, -⟩
    exact absurd hsources (by decide)
  by_cases hcomparable : comparableRecords group = true
  swap
  · rw [assessAgreement_agreement hnil, if_pos (by simpa using hcomparable)]
    exact iff_of_false (by decide) fun h => hcomparable h.1
  by_cases hsources : (sourceNames group).card ≤ 1
  · rw [assessAgreement_agreement hnil, if_neg (by simpa using hcomparable), if_pos hsources]
    exact iff_of_false (by decide) fun h => absurd h.2.1 (by omega)
  -- Among comparable records of two sources a conflict is what takes more than one cluster.
  have htwo : 2 ≤ (sourceNames group).card := by omega
  obtain ⟨first, rest, hordered⟩ :=
    List.exists_cons_of_ne_nil (@orderedPositions_ne_nil Double _ _ hnil)
  have hone : (agreementClusters tolerance group).length = 1 ↔
      ∀ p ∈ rest, withinTolerance tolerance first.scalar p.scalar = true :=
    length_agreementClusters_eq_one_iff hordered
  have hconflict : agreementIsConflict
        (assessAgreement group tolerance request.maxCitations).agreement = true ↔
      ¬ (agreementClusters tolerance group).length = 1 := by
    rw [assessAgreement_of_comparable hcomparable htwo]
    split
    · rename_i hlength
      exact iff_of_false (by decide) (not_not.mpr hlength)
    · rename_i hlength
      refine iff_of_true ?_ hlength
      split <;> decide
  rw [hconflict, hone]
  constructor
  · intro hnot
    push Not at hnot
    obtain ⟨p, hp, hfar⟩ := hnot
    exact ⟨hcomparable, htwo, first, rest, hordered, p, hp, by simpa using hfar⟩
  · rintro ⟨-, -, first', rest', hordered', p, hp, hfar⟩ hall
    obtain ⟨rfl, rfl⟩ := List.cons.inj (hordered.symm.trans hordered')
    rw [hall p hp] at hfar
    cases hfar

/-- The product of the tolerance and the smaller value is rounded up to the difference of the
values, so that the source finds no conflict where the exact numbers have one. -/
example :
    let records := [linkUtilization "agent1" ⟨0x3FACAC083126E979⟩ 1, -- 0.056
      linkUtilization "agent2" ⟨0x3FAF8A0902DE00D2⟩ 2] -- 0.0616
    (assessAgreement records (⟨0x3FB999999999999A⟩ : Double) 64).agreement = .unanimous ∧
      (assessAgreement records (Double.toRat ⟨0x3FB999999999999A⟩) 64).agreement
        = .conflicting := by
  decide +kernel

/-! ### Values that are far apart -/

/-- Two values differ by more than the tolerance allows, in the arithmetic of the source. -/
def FarApart (tolerance a b : Double) : Prop :=
  tolerance * Arithmetic.max (Arithmetic.abs (Arithmetic.min a b)) Arithmetic.tiny
    < Arithmetic.abs (a - b)

/-- What the tolerance allows around a finite value is a number. -/
theorem isNumber_allowance {tolerance reference : Double} (htolerance : IsNumber tolerance)
    (hreference : reference.isFinite = true) :
    IsNumber (tolerance * Arithmetic.max (Arithmetic.abs reference) Arithmetic.tiny) := by
  refine Double.isNumber_mul htolerance ?_
  unfold Arithmetic.max
  by_cases hsmall : Arithmetic.abs reference < Arithmetic.tiny
  · rw [if_pos hsmall]
    exact ⟨.positive, 0x119799812DEA11, -92, by decide, by rfl⟩
  · rw [if_neg hsmall]
    have hfinite : (Double.abs reference).unpack.isFinite = true :=
      (Double.isFinite_iff _).mp (Double.isFinite_abs hreference)
    change ¬ (Double.abs reference).unpack.lt Double.tiny.unpack = true at hsmall
    show ∃ s m e h, (Double.abs reference).unpack = .finite s m e h
    cases hvalue : (Double.abs reference).unpack with
    | notANumber => rw [hvalue] at hfinite; cases hfinite
    | infinity => rw [hvalue] at hfinite; cases hfinite
    | zero sign =>
        -- A zero is below the guard.
        rw [hvalue] at hsmall
        exact absurd (by cases sign <;> decide +kernel) hsmall
    | finite => exact ⟨_, _, _, _, rfl⟩

/-- A finite value that is not within the tolerance of a smaller one is far from it. -/
theorem farApart_of_withinTolerance {tolerance reference value : Double}
    (htolerance : IsNumber tolerance) (hreference : reference.isFinite = true)
    (hvalue : value.isFinite = true) (hle : reference ≤ value)
    (hfar : withinTolerance tolerance reference value = false) :
    FarApart tolerance value reference := by
  have hsmaller : Arithmetic.abs (Arithmetic.min value reference)
      = Arithmetic.abs reference := by
    unfold Arithmetic.min
    split
    · rfl
    · rename_i hnot
      exact Double.abs_eq_of_le (le_of_not_lt (Double.isNumber_of_isFinite hreference)
        (Double.isNumber_of_isFinite hvalue) hnot) hle
  have hdifference : IsNumber (Arithmetic.abs (value - reference)) :=
    Double.isNumber_abs (Double.isNumber_sub hvalue hreference)
  unfold FarApart
  rw [hsmaller]
  by_contra hnot
  have hwithin := le_of_not_lt (isNumber_allowance htolerance hreference) hdifference hnot
  rw [withinTolerance, decide_eq_false_iff_not] at hfar
  exact hfar hwithin

theorem le_of_precedes {p q : Position Double} (hp : IsNumber p.scalar) (hq : IsNumber q.scalar) :
    (q.precedes p = false → p.scalar ≤ q.scalar) ∧ (q.precedes p = true → q.scalar ≤ p.scalar) := by
  unfold Position.precedes
  by_cases hsame : q.scalar ≤ p.scalar ∧ p.scalar ≤ q.scalar
  · exact ⟨fun _ => hsame.2, fun _ => hsame.1⟩
  · rw [if_pos hsame, decide_eq_false_iff_not, decide_eq_true_eq]
    exact ⟨le_of_not_lt hq hp, le_of_lt⟩

/-- Finite values are sorted in ascending order. -/
theorem orderedPositions_finite {group : List EvidenceRecord}
    (h : ∀ r ∈ group, r.value.scalar.isFinite = true) :
    (orderedPositions group).Pairwise fun p q : Position Double => p.scalar ≤ q.scalar := by
  refine pairwise_insertionSort (fun p hp => ?_) (fun p q hp hq => (le_of_precedes hp hq).1)
    fun p q hp hq hnot => (le_of_precedes hp hq).2 (by simpa using hnot)
  obtain ⟨r, hr, rfl⟩ := List.mem_map.mp hp
  exact Double.isNumber_of_isFinite (h r hr)

/-! ### Two sources -/

/-- Two records of different sources and of the same kind and unit differ by more than the
tolerance allows. -/
def Disagree (tolerance : Double) (r r' : EvidenceRecord) : Prop :=
  r.provenance.source ≠ r'.provenance.source ∧ r.kind = r'.kind ∧ r.value.unit = r'.value.unit ∧
    FarApart tolerance r.scalar r'.scalar

/-- What `assess_agreement` is written for: finite values of one kind, one from each source. -/
structure OneKind (group : List EvidenceRecord) : Prop where
  kind : ∀ r ∈ group, ∀ r' ∈ group, r.kind = r'.kind
  sources : group.Pairwise fun r r' => r.provenance.source.name ≠ r'.provenance.source.name
  finite : ∀ r ∈ group, r.value.scalar.isFinite = true

theorem unit_eq_of_comparable {group : List EvidenceRecord}
    (h : comparableRecords group = true) {r r' : EvidenceRecord} (hr : r ∈ group)
    (hr' : r' ∈ group) : r.value.unit = r'.value.unit := by
  cases group with
  | nil => exact absurd hr List.not_mem_nil
  | cons first rest => exact ((comparableRecords_cons first rest).mp h).1 r hr r' hr'

/-- Where a spread group is of one kind, its smallest value and one that is too far from it are
reports of two sources. -/
theorem Spread.disagree {tolerance : Double} {group : List EvidenceRecord}
    (h : Spread tolerance group) (htolerance : IsNumber tolerance) (hgroup : OneKind group) :
    ∃ r ∈ group, ∃ r' ∈ group, Disagree tolerance r r' := by
  obtain ⟨hcomparable, -, first, rest, hordered, p, hp, hfar⟩ := h
  have hsources : (first :: rest).Pairwise fun p q : Position Double => p.source ≠ q.source := by
    have hperm : (orderedPositions group : List (Position Double)).Perm
        (group.map EvidenceRecord.position) :=
      List.perm_insertionSort _ _
    rw [← hordered, hperm.pairwise_iff fun hne => hne.symm, List.pairwise_map]
    exact hgroup.sources
  have hascending := orderedPositions_finite hgroup.finite
  rw [hordered] at hascending
  have hmem : ∀ q ∈ first :: rest, ∃ r ∈ group, r.position = q := fun q hq =>
    mem_orderedPositions.mp (hordered ▸ hq)
  obtain ⟨r', hr', rfl⟩ := hmem first List.mem_cons_self
  obtain ⟨r, hr, rfl⟩ := hmem p (List.mem_cons_of_mem _ hp)
  refine ⟨r, hr, r', hr', fun hsame => ?_, hgroup.kind r hr r' hr',
    unit_eq_of_comparable hcomparable hr hr', ?_⟩
  · have hne : r'.provenance.source.name ≠ r.provenance.source.name :=
      (List.pairwise_cons.mp hsources).1 _ hp
    exact hne (congrArg EntityId.name hsame).symm
  · have hle := (List.pairwise_cons.mp hascending).1 _ hp
    exact farApart_of_withinTolerance htolerance (hgroup.finite r' hr') (hgroup.finite r hr) hle
      hfar

section Real

variable (request : ClassificationRequest) (policy : ClassificationPolicy)
  (records : List (Option EvidenceRecord))

/-- Usable values that are far apart are never two reports of one kind: they belong to different
kinds or units, or to one source. -/
def OnlyAcross : Prop :=
  ∀ r ∈ usableRecords request policy records, ∀ r' ∈ usableRecords request policy records,
    FarApart policy.conflictRelativeTolerance r.scalar r'.scalar →
      r.kind ≠ r'.kind ∨ r.value.unit ≠ r'.value.unit ∨
        r.provenance.source = r'.provenance.source

/-- Whenever a conflict is reported, two sources differ about one kind. -/
def ReportsReal : Prop :=
  ∀ a, classifySubject Double request records policy = .ok a →
    a.hasBlocker Blockers.conflictingSources = true →
    ∃ r ∈ usableRecords request policy records, ∃ r' ∈ usableRecords request policy records,
      Disagree policy.conflictRelativeTolerance r r'

variable {request policy records} in
/-- The rules see a conflict exactly when the usable records of one of the four roles are
spread. -/
theorem hasConflict_iff :
    (engineOf Double request policy records).HasConflict ↔
      ∃ role ∈ agreementRoles, Spread policy.conflictRelativeTolerance
        (usableOfRole request policy records role) := by
  -- The four agreements of the features are one definition at four roles.
  have hrole : ∀ role ∈ agreementRoles,
      (agreementIsConflict (roleAgreement (extractFeatures Double request records policy) role)
          = true ↔
        Spread policy.conflictRelativeTolerance (usableOfRole request policy records role)) := by
    intro role hmem
    rw [features_agreement hmem, agreementIsConflict_iff request policy]
  constructor
  · rintro ⟨entry, hentry, hconflict⟩
    simp only [RuleEngine.agreements, List.mem_cons, List.not_mem_nil, or_false] at hentry
    rcases hentry with rfl | rfl | rfl | rfl
    · exact ⟨.utilization, by decide, (hrole .utilization (by decide)).mp hconflict⟩
    · exact ⟨.pressure, by decide, (hrole .pressure (by decide)).mp hconflict⟩
    · exact ⟨.demand, by decide, (hrole .demand (by decide)).mp hconflict⟩
    · exact ⟨.impairment, by decide, (hrole .impairment (by decide)).mp hconflict⟩
  · rintro ⟨role, hmem, hspread⟩
    have hconflict := (hrole role hmem).mpr hspread
    simp only [agreementRoles, List.mem_cons, List.not_mem_nil, or_false] at hmem
    rcases hmem with rfl | rfl | rfl | rfl
    · exact ⟨("utilization", (engineOf Double request policy records).features.utilizationAgreement),
        by simp [RuleEngine.agreements], hconflict⟩
    · exact ⟨("pressure", (engineOf Double request policy records).features.pressureAgreement),
        by simp [RuleEngine.agreements], hconflict⟩
    · exact ⟨("demand", (engineOf Double request policy records).features.demandAgreement),
        by simp [RuleEngine.agreements], hconflict⟩
    · exact ⟨("impairment", (engineOf Double request policy records).features.impairmentAgreement),
        by simp [RuleEngine.agreements], hconflict⟩

variable {request policy records} in
/-- A conflict is reported exactly when the request is valid and some role is spread. -/
theorem conflict_reported_iff :
    (∃ a, classifySubject Double request records policy = .ok a ∧
        a.hasBlocker Blockers.conflictingSources = true) ↔
      ValidRequest request ∧ ∃ role ∈ agreementRoles, Spread policy.conflictRelativeTolerance
        (usableOfRole request policy records role) := by
  rw [← hasConflict_iff,
    ← RuleEngine.hasBlocker_conflictingSources_iff _ (collectCitations request policy records)]
  constructor
  · rintro ⟨a, ha, hblocker⟩
    have hvalid := validRequest_of_ok policy ha
    rw [classifySubject_valid policy hvalid, Except.ok.injEq] at ha
    subst ha
    exact ⟨hvalid, hblocker⟩
  · rintro ⟨hvalid, hblocker⟩
    exact ⟨_, classifySubject_valid policy hvalid records, hblocker⟩

/-- A conflict is reported exactly when the request is valid and some role is spread. It comes
from two sources that differ about one kind, exactly when this is not so, or not all values that
are far apart belong to different kinds or units or to one source. In particular it does when what
is spread is of one kind, and each of its sources has one record. -/
theorem reported_conflict_real_iff :
    ((∃ a, classifySubject Double request records policy = .ok a ∧
        a.hasBlocker Blockers.conflictingSources = true) ↔
      ValidRequest request ∧ ∃ role ∈ agreementRoles, Spread policy.conflictRelativeTolerance
        (usableOfRole request policy records role)) ∧
    (ReportsReal request policy records ↔
      ¬ (ValidRequest request ∧ OnlyAcross request policy records ∧
        ∃ role ∈ agreementRoles, Spread policy.conflictRelativeTolerance
          (usableOfRole request policy records role))) ∧
    (0 ≤ policy.conflictRelativeTolerance →
      (∀ role ∈ agreementRoles, Spread policy.conflictRelativeTolerance
          (usableOfRole request policy records role) →
        OneKind (usableOfRole request policy records role)) →
      ReportsReal request policy records) := by
  have hreported := @conflict_reported_iff request policy records
  refine ⟨hreported, ⟨?_, ?_⟩, ?_⟩
  · rintro hclaim ⟨hvalid, hacross, hspread⟩
    obtain ⟨a, ha, hblocker⟩ := hreported.mpr ⟨hvalid, hspread⟩
    obtain ⟨r, hr, r', hr', hsource, hkind, hunit, hfar⟩ := hclaim a ha hblocker
    rcases hacross r hr r' hr' hfar with h | h | h
    · exact h hkind
    · exact h hunit
    · exact hsource h
  · intro hnot a ha hblocker
    obtain ⟨hvalid, hspread⟩ := hreported.mp ⟨a, ha, hblocker⟩
    by_contra hnone
    refine hnot ⟨hvalid, fun r hr r' hr' hfar => ?_, hspread⟩
    by_contra hsame
    simp only [not_or, not_not] at hsame
    exact hnone ⟨r, hr, r', hr', hsame.2.2, hsame.1, hsame.2.1, hfar⟩
  · intro htolerance hone a ha hblocker
    obtain ⟨-, role, hrole, hspread⟩ := hreported.mp ⟨a, ha, hblocker⟩
    obtain ⟨r, hr, r', hr', hdisagree⟩ :=
      hspread.disagree (isNumber_of_le htolerance) (hone role hrole hspread)
    exact ⟨r, List.mem_of_mem_filter hr, r', List.mem_of_mem_filter hr', hdisagree⟩

/-- One source offers a demand of 100 and another measures a throughput of 50. -/
def offeredAndAchieved : List (Option EvidenceRecord) :=
  [some (linkObservation .offeredDemand
      { scalar := ⟨0x4059000000000000⟩, unit := .bitsPerSecond } "agent1" 1),
   some (linkObservation .achievedThroughput
      { scalar := ⟨0x4049000000000000⟩, unit := .bitsPerSecond } "agent2" 2)]

/-- The two kinds are reported as a conflict of sources. -/
theorem offered_and_achieved_conflict : ¬ ReportsReal linkRequest {} offeredAndAchieved := by
  intro hclaim
  have hanswer : ((classifySubject Double linkRequest offeredAndAchieved {}).toOption.map fun a =>
      a.hasBlocker Blockers.conflictingSources) = some true := by decide +kernel
  have hkinds : ∀ r ∈ usableRecords linkRequest {} offeredAndAchieved,
      ∀ r' ∈ usableRecords linkRequest {} offeredAndAchieved,
        r.kind = r'.kind → r.provenance.source = r'.provenance.source := by decide +kernel
  cases hc : classifySubject Double linkRequest offeredAndAchieved {} with
  | error e =>
      rw [hc] at hanswer
      cases hanswer
  | ok a =>
      rw [hc] at hanswer
      obtain ⟨r, hr, r', hr', hsource, hkind, -⟩ := hclaim a hc (Option.some.inj hanswer)
      exact hsource (hkinds r hr r' hr' hkind)

/-- Two sources that differ about the utilization are a real conflict. -/
theorem utilization_conflict_real :
    let records := [some (linkUtilization "agent1" ⟨0x3FE0000000000000⟩ 1),
      some (linkUtilization "agent2" ⟨0x3FF0000000000000⟩ 2)]
    (classifySubject Double linkRequest records {}).toOption.map (fun a =>
      a.hasBlocker Blockers.conflictingSources) = some true ∧
    ReportsReal linkRequest {} records := by
  intro records
  refine ⟨by decide +kernel, (reported_conflict_real_iff linkRequest {} records).2.2
    (by decide +kernel) fun role hrole _ => ?_⟩
  have hgroups : ∀ role ∈ agreementRoles,
      (usableOfRole linkRequest {} records role = [] ∨
        usableOfRole linkRequest {} records role
          = [linkUtilization "agent1" ⟨0x3FE0000000000000⟩ 1,
            linkUtilization "agent2" ⟨0x3FF0000000000000⟩ 2]) := by
    decide +kernel
  rcases hgroups role hrole with hgroup | hgroup <;> rw [hgroup]
  · exact ⟨by decide, by decide, by decide⟩
  · exact ⟨by decide +kernel, by decide +kernel, by decide +kernel⟩

end Real

end CongestionObservatory
