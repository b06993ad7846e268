import CongestionObservatory.Model.Generation
import Mathlib.Order.Interval.Finset.Nat

/-!
# `CongestionObservatory.Proofs.Model.Generation`: what the fence accepts

`FenceVector.order` is the lexicographic order key of an observation address: boot, epoch,
generation, revision, sequence. `FenceVector.Supersedes` says that one address comes after
another, in the same incarnation when the boot is the same. It is transitive.

`evaluateFence_supersedes` is the fact the store's history rests on: from a source with a
state, the fence accepts only an address that supersedes the last one. Inside one generation it
reports the number of sequence numbers strictly between the last and the incoming one
(`evaluateFence_sameSequence`, `evaluateSequence_gapSize`). Where a boot, an epoch or a generation
starts the sequence again, and for the first observation of a source, it reports no gap.
-/

set_option autoImplicit false

namespace CongestionObservatory

open Lib

/-- The address of an observation in the order of the fence. -/
def FenceVector.order (f : FenceVector) : UInt64 ×ₗ UInt64 ×ₗ UInt64 ×ₗ UInt64 ×ₗ UInt64 :=
  toLex (f.boot, toLex (f.gen.epoch, toLex (f.gen.generation, toLex (f.gen.revision, f.sequence))))

/-- The second address is lexicographically later, and within one boot the incarnation is the
same. -/
def FenceVector.Supersedes (a b : FenceVector) : Prop :=
  a.order < b.order ∧ (a.boot = b.boot → a.incarnation = b.incarnation)

theorem FenceVector.order_lt_iff {a b : FenceVector} :
    a.order < b.order ↔ a.boot < b.boot ∨ a.boot = b.boot ∧ (a.gen.epoch < b.gen.epoch ∨
      a.gen.epoch = b.gen.epoch ∧ (a.gen.generation < b.gen.generation ∨
        a.gen.generation = b.gen.generation ∧ (a.gen.revision < b.gen.revision ∨
          a.gen.revision = b.gen.revision ∧ a.sequence < b.sequence))) := by
  simp only [FenceVector.order, Prod.Lex.toLex_lt_toLex]

theorem FenceVector.boot_le_of_order_lt {a b : FenceVector} (h : a.order < b.order) :
    a.boot ≤ b.boot := by
  rcases FenceVector.order_lt_iff.mp h with h | ⟨h, -⟩
  · exact h.le
  · exact h.le

theorem FenceVector.Supersedes.trans {a b c : FenceVector} (hab : a.Supersedes b)
    (hbc : b.Supersedes c) : a.Supersedes c := by
  refine ⟨hab.1.trans hbc.1, fun hac => ?_⟩
  -- Boots never decrease, so equal outer boots force the middle one.
  have h1 := boot_le_of_order_lt hab.1
  have h2 := boot_le_of_order_lt hbc.1
  have hb : a.boot = b.boot := le_antisymm h1 (hac ▸ h2)
  rw [hab.2 hb]
  exact hbc.2 (hb ▸ hac)

/-- A newer vector in the fence's comparison: a later epoch, or in the same epoch a later
generation, or in the same generation a later revision. -/
theorem compareGeneration_newer {c r : GenerationVector} (h : compareGeneration c r = .newer) :
    r.epoch < c.epoch ∨ r.epoch = c.epoch ∧ (r.generation < c.generation ∨
      r.generation = c.generation ∧ r.revision < c.revision) := by
  unfold compareGeneration at h
  split at h
  · rename_i he
    split at h
    · rename_i hg
      split at h
      · cases h
      · rename_i hne
        split at h
        · cases h
        · rename_i hlt
          exact Or.inr ⟨he.symm, Or.inr ⟨hg.symm, lt_of_le_of_ne (not_lt.mp hlt) (Ne.symm hne)⟩⟩
    · rename_i hne
      split at h
      · cases h
      · rename_i hlt
        exact Or.inr ⟨he.symm, Or.inl (lt_of_le_of_ne (not_lt.mp hlt) (Ne.symm hne))⟩
  · rename_i hne
    split at h
    · cases h
    · rename_i hlt
      exact Or.inl (lt_of_le_of_ne (not_lt.mp hlt) (Ne.symm hne))

theorem compareGeneration_equal {c r : GenerationVector} (h : compareGeneration c r = .equal) :
    c = r := by
  unfold compareGeneration at h
  split at h
  · rename_i he
    split at h
    · rename_i hg
      split at h
      · rename_i hr
        cases c
        cases r
        simp_all
      · split at h <;> cases h
    · split at h <;> cases h
  · split at h
    · cases h
    · split at h <;> cases h

/-- The sequence check accepts exactly the later sequence numbers. -/
theorem evaluateSequence_accepted {incoming last : FenceVector} :
    (evaluateSequence incoming last).accepted = true ↔ last.sequence < incoming.sequence := by
  unfold evaluateSequence
  split
  · rename_i hle
    simp [FenceOutcome.accepted, fenceAccepted, hle]
  · rename_i hnle
    have hlt := not_le.mp hnle
    dsimp only
    split <;> simp [FenceOutcome.accepted, fenceAccepted, hlt]

/-- The two addresses count their sequence numbers together: neither a boot, nor an epoch, nor a
generation lies between them. A new revision does not start the sequence again. -/
def FenceVector.SameSequence (last incoming : FenceVector) : Prop :=
  last.boot = incoming.boot ∧ last.gen.epoch = incoming.gen.epoch ∧
    last.gen.generation = incoming.gen.generation

/-- The fence reports no gap. -/
def FenceOutcome.NoGap (outcome : FenceOutcome) : Prop :=
  outcome.gapSize = 0 ∧ outcome.sequenceGap = false

/-- From a source with a state, an accepted observation is a reboot, an epoch advance or a
generation advance, where the sequence starts again and no gap is reported, or it passed the
sequence check inside the generation. -/
theorem evaluateFence_accepted_cases {incoming : FenceVector} {authority minimum : AuthorityLevel}
    {previous : SourceFenceState} (hstate : previous.hasState = true)
    (h : (evaluateFence incoming authority minimum previous).accepted = true) :
    previous.last.boot < incoming.boot ∧
        (evaluateFence incoming authority minimum previous).NoGap ∨
    previous.last.boot = incoming.boot ∧ previous.last.incarnation = incoming.incarnation ∧
      (previous.last.gen.epoch < incoming.gen.epoch ∧
          (evaluateFence incoming authority minimum previous).NoGap ∨
       previous.last.gen.epoch = incoming.gen.epoch ∧
         (previous.last.gen.generation < incoming.gen.generation ∧
            (evaluateFence incoming authority minimum previous).NoGap ∨
          previous.last.gen.generation = incoming.gen.generation ∧
            previous.last.gen.revision ≤ incoming.gen.revision ∧
            previous.last.sequence < incoming.sequence ∧
            evaluateFence incoming authority minimum previous
              = evaluateSequence incoming previous.last)) := by
  unfold evaluateFence at h ⊢
  simp only [hstate, Bool.not_true, Bool.false_eq_true, if_false] at h ⊢
  split at h
  · cases h
  split at h
  · cases h
  split at h
  · -- A new boot identifier: only a later one is accepted.
    rename_i hsource hauth hboot
    split at h
    · cases h
    · rename_i hlt
      refine Or.inl ⟨lt_of_le_of_ne (not_lt.mp hlt) (Ne.symm hboot), ?_⟩
      simp [hsource, hauth, hboot, hlt, FenceOutcome.NoGap]
  rename_i hsource hauth hboot
  split at h
  · cases h
  split at h
  · cases h
  rename_i hlt hgt
  have hinc : previous.last.incarnation = incoming.incarnation :=
    le_antisymm (not_lt.mp hlt) (not_lt.mp hgt)
  refine Or.inr ⟨(not_not.mp hboot).symm, hinc, ?_⟩
  cases hcmp : compareGeneration incoming.gen previous.last.gen with
  | older =>
      rw [hcmp] at h
      simp only at h
      split at h
      · cases h
      · split at h <;> cases h
  | incomparable =>
      rw [hcmp] at h
      cases h
  | equal =>
      rw [hcmp] at h
      have hg := compareGeneration_equal hcmp
      have hseq := evaluateSequence_accepted.mp h
      refine Or.inr ⟨by rw [hg], Or.inr ⟨by rw [hg], by rw [hg], hseq, ?_⟩⟩
      simp [hsource, hauth, hboot, hlt, hgt]
  | newer =>
      rw [hcmp] at h
      rcases compareGeneration_newer hcmp with he | ⟨he, hg | ⟨hg, hr⟩⟩
      · refine Or.inl ⟨he, ?_⟩
        simp [hsource, hauth, hboot, hlt, hgt, he, FenceOutcome.NoGap]
      · refine Or.inr ⟨he, Or.inl ⟨hg, ?_⟩⟩
        simp [hsource, hauth, hboot, hlt, hgt, he, hg, FenceOutcome.NoGap]
      · -- A revision advance falls through to the sequence check.
        have hne : ¬ incoming.gen.epoch > previous.last.gen.epoch := by
          rw [he]
          exact lt_irrefl _
        have hng : ¬ incoming.gen.generation > previous.last.gen.generation := by
          rw [hg]
          exact lt_irrefl _
        simp only [hne, hng, if_false] at h
        refine Or.inr ⟨he, Or.inr ⟨hg, hr.le, evaluateSequence_accepted.mp h, ?_⟩⟩
        simp [hsource, hauth, hboot, hlt, hgt, hne, hng]

/-- The fence accepts from a source with a state only an address that supersedes the last. -/
theorem evaluateFence_supersedes {incoming : FenceVector} {authority minimum : AuthorityLevel}
    {previous : SourceFenceState} (hstate : previous.hasState = true)
    (h : (evaluateFence incoming authority minimum previous).accepted = true) :
    previous.last.Supersedes incoming := by
  rcases evaluateFence_accepted_cases hstate h with ⟨hb, -⟩ | ⟨hb, hi, hrest⟩
  · exact ⟨FenceVector.order_lt_iff.mpr (Or.inl hb), fun heq => absurd heq (ne_of_lt hb)⟩
  refine ⟨FenceVector.order_lt_iff.mpr (Or.inr ⟨hb, ?_⟩), fun _ => hi⟩
  rcases hrest with ⟨he, -⟩ | ⟨he, ⟨hg, -⟩ | ⟨hg, hr, hs, -⟩⟩
  · exact Or.inl he
  · exact Or.inr ⟨he, Or.inl hg⟩
  · rcases lt_or_eq_of_le hr with hr | hr
    · exact Or.inr ⟨he, Or.inr ⟨hg, Or.inl hr⟩⟩
    · exact Or.inr ⟨he, Or.inr ⟨hg, Or.inr ⟨hr, hs⟩⟩⟩

/-- A later sequence number leaves room for the successor of the last one: it does not wrap. -/
theorem toNat_succ_of_lt {a b : UInt64} (h : a < b) : (a + 1).toNat = a.toNat + 1 := by
  have hlt : a.toNat < b.toNat := UInt64.lt_iff_toNat_lt.mp h
  have hb : b.toNat < 2 ^ 64 := b.toNat_lt
  rw [UInt64.toNat_add]
  exact Nat.mod_eq_of_lt (by simp only [UInt64.toNat_one]; omega)

/-- The sequence numbers strictly between two. -/
def skippedSequences (last incoming : FenceVector) : Finset Nat :=
  Finset.Ioo last.sequence.toNat incoming.sequence.toNat

/-- What the sequence check reports about a later number: the gap size is the number of skipped
sequence numbers, the flag says whether there are any, and the detail names their number. -/
theorem evaluateSequence_gapSize {incoming last : FenceVector}
    (h : last.sequence < incoming.sequence) :
    (evaluateSequence incoming last).gapSize.toNat = (skippedSequences last incoming).card ∧
    (evaluateSequence incoming last).sequenceGap
      = decide (0 < (skippedSequences last incoming).card) ∧
    ((evaluateSequence incoming last).sequenceGap = true →
      (evaluateSequence incoming last).detail
        = ascii "missing " ++ decimal (skippedSequences last incoming).card
          ++ ascii " sequence numbers") := by
  have hlt : last.sequence.toNat < incoming.sequence.toNat := UInt64.lt_iff_toNat_lt.mp h
  have hsucc := toNat_succ_of_lt h
  have hcard : (skippedSequences last incoming).card
      = incoming.sequence.toNat - last.sequence.toNat - 1 := Nat.card_Ioo _ _
  unfold evaluateSequence
  rw [if_neg (not_le.mpr h), hcard]
  -- The source subtracts without a check. It only does so above the successor, where nothing
  -- wraps.
  by_cases hgap : incoming.sequence > last.sequence + 1
  · have hgapNat : (last.sequence + 1).toNat < incoming.sequence.toNat :=
      UInt64.lt_iff_toNat_lt.mp hgap
    have hsub : (incoming.sequence - (last.sequence + 1)).toNat
        = incoming.sequence.toNat - last.sequence.toNat - 1 := by
      rw [UInt64.toNat_sub_of_le _ _ hgap.le]
      omega
    simp only [hgap, if_true, number, hsub, true_and]
    refine ⟨?_, fun _ => trivial⟩
    have hpos : 0 < incoming.sequence.toNat - last.sequence.toNat - 1 := by omega
    simp [hpos]
  · have hle : incoming.sequence.toNat ≤ (last.sequence + 1).toNat :=
      UInt64.le_iff_toNat_le.mp (not_lt.mp hgap)
    have hzero : incoming.sequence.toNat - last.sequence.toNat - 1 = 0 := by omega
    simp [hgap, hzero]

/-- Within one sequence an accepted observation has passed the sequence check. -/
theorem evaluateFence_sameSequence {incoming : FenceVector} {authority minimum : AuthorityLevel}
    {previous : SourceFenceState} (hstate : previous.hasState = true)
    (h : (evaluateFence incoming authority minimum previous).accepted = true)
    (hsame : previous.last.SameSequence incoming) :
    evaluateFence incoming authority minimum previous = evaluateSequence incoming previous.last ∧
      previous.last.sequence < incoming.sequence := by
  obtain ⟨hboot, hepoch, hgen⟩ := hsame
  rcases evaluateFence_accepted_cases hstate h with
    ⟨hb, -⟩ | ⟨-, -, ⟨he, -⟩ | ⟨-, ⟨hg, -⟩ | ⟨-, -, hs, heq⟩⟩⟩
  · exact absurd hboot (ne_of_lt hb)
  · exact absurd hepoch (ne_of_lt he)
  · exact absurd hgen (ne_of_lt hg)
  · exact ⟨heq, hs⟩

/-- Only the sequence check reports a gap: every other exit of the fence leaves it at zero. -/
theorem evaluateFence_noGap_or (incoming : FenceVector) (authority minimum : AuthorityLevel)
    (previous : SourceFenceState) :
    (evaluateFence incoming authority minimum previous).NoGap ∨
      evaluateFence incoming authority minimum previous = evaluateSequence incoming previous.last := by
  unfold evaluateFence
  dsimp only
  repeat' split
  all_goals first
    | exact Or.inl ⟨rfl, rfl⟩
    | exact Or.inr rfl

/-- No gap is reported with an observation that the fence does not accept. -/
theorem evaluateFence_noGap_of_rejected {incoming : FenceVector}
    {authority minimum : AuthorityLevel} {previous : SourceFenceState}
    (h : (evaluateFence incoming authority minimum previous).accepted = false) :
    (evaluateFence incoming authority minimum previous).NoGap := by
  rcases evaluateFence_noGap_or incoming authority minimum previous with hgap | heq
  · exact hgap
  · rw [heq] at h ⊢
    have hle : incoming.sequence ≤ previous.last.sequence := by
      rw [← not_lt, ← evaluateSequence_accepted, h]
      exact Bool.false_ne_true
    unfold evaluateSequence
    rw [if_pos hle]
    exact ⟨rfl, rfl⟩
/-- An accepted observation that starts the sequence again has no gap before it. -/
theorem evaluateFence_noGap_of_restart {incoming : FenceVector} {authority minimum : AuthorityLevel}
    {previous : SourceFenceState} (hstate : previous.hasState = true)
    (h : (evaluateFence incoming authority minimum previous).accepted = true)
    (hother : ¬ previous.last.SameSequence incoming) :
    (evaluateFence incoming authority minimum previous).NoGap := by
  rcases evaluateFence_accepted_cases hstate h with
    ⟨-, hgap⟩ | ⟨hb, -, ⟨-, hgap⟩ | ⟨he, ⟨-, hgap⟩ | ⟨hg, -⟩⟩⟩
  · exact hgap
  · exact hgap
  · exact hgap
  · exact absurd ⟨hb, he, hg⟩ hother

/-- The first observation of a source has no gap before it. -/
theorem evaluateFence_noGap_of_first {incoming : FenceVector} {authority minimum : AuthorityLevel}
    {previous : SourceFenceState} (hstate : previous.hasState = false) :
    (evaluateFence incoming authority minimum previous).NoGap := by
  simp only [evaluateFence, hstate, Bool.not_false, if_true]
  split
  · exact ⟨rfl, rfl⟩
  · split <;> exact ⟨rfl, rfl⟩

/-- Only a new boot resets the liveness of a source. -/
theorem evaluateFence_livenessReset {incoming : FenceVector} {authority minimum : AuthorityLevel}
    {previous : SourceFenceState}
    (h : (evaluateFence incoming authority minimum previous).accepted = true)
    (hreset : (evaluateFence incoming authority minimum previous).livenessReset = false) :
    previous.hasState = false ∨
      previous.last.boot = incoming.boot ∧ previous.last.incarnation = incoming.incarnation := by
  by_cases hstate : previous.hasState = true
  · right
    rcases evaluateFence_accepted_cases hstate h with ⟨hb, -⟩ | ⟨hb, hi, -⟩
    · -- An accepted later boot is a reboot, and a reboot resets.
      exfalso
      have hne : incoming.boot ≠ previous.last.boot := Ne.symm (ne_of_lt hb)
      have hnlt : ¬ incoming.boot < previous.last.boot := not_lt.mpr hb.le
      unfold evaluateFence at h hreset
      simp only [hstate, Bool.not_true, Bool.false_eq_true, if_false] at h hreset
      split at h
      · cases h
      split at h
      · cases h
      rename_i hsource hauth
      simp [hsource, hauth, hne, hnlt] at hreset
    · exact ⟨hb, hi⟩
  · exact Or.inl (Bool.not_eq_true _ |>.mp hstate)

end CongestionObservatory
