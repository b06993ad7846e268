import CongestionObservatory.Proofs.Evidence.Representation
import CongestionObservatory.Lib.DropFirst

/-!
# `CongestionObservatory.Proofs.Evidence.Sweep`: what a retention sweep removes and keeps

`sweep` goes through the buckets in key order and through each bucket in insertion order. It
removes the expired records until the budget is used up or the token is cancelled. `placed`
lists the records in that order, each with its key, and `Lib.dropFirst` is the list without its
first expired records. `sweep_kept` is the result for every sweep: the records left are those of
`dropFirst`, up to what a self-move may change.

The records kept in a bucket are moved to its front. Until a record of the bucket is removed,
the source and the target of the move are one object. `sweep_exact_iff` says that the survivors
are intact exactly when every bucket the sweep comes to begins with a record it removes
(`HeadRemoved`), so that no record is moved to itself.
-/

set_option autoImplicit false

namespace CongestionObservatory

open Lib

/-- The token once it was asked some times. -/
def CancellationToken.after (t : CancellationToken) (polls : Nat) : CancellationToken :=
  ⟨t.pollsLeft.map (· - polls)⟩

theorem CancellationToken.after_cancelled (t : CancellationToken) (polls : Nat) :
    (t.after polls).cancelled.2 = t.after (polls + 1) := by
  obtain ⟨left⟩ := t
  cases left with
  | none => rfl
  | some n =>
      unfold after cancelled
      dsimp only [Option.map_some]
      cases hleft : n - polls with
      | zero =>
          have hnext : n - (polls + 1) = 0 := by omega
          rw [hnext]
      | succ m =>
          have hnext : n - (polls + 1) = m := by omega
          rw [hnext]

theorem CancellationToken.cancelled_next (t : CancellationToken) :
    t.cancelled.2 = t.after 1 := by
  have hzero : t.after 0 = t := by
    obtain ⟨left⟩ := t
    cases left with
    | none => rfl
    | some n => rfl
  rw [← t.after_cancelled 0, hzero]

/-- Of the records in the order of a loop that polls the token once before it and once for each
record, those it looks at while the token is not cancelled. -/
def CancellationToken.within {α : Type} (t : CancellationToken) (l : List α) : List α :=
  match t.pollsLeft with
  | none => l
  | some n => l.take (n - 1)

theorem CancellationToken.within_of_live {α : Type} {t : CancellationToken} {l : List α}
    (h : (t.after l.length).cancelled.1 = false) : t.within l = l := by
  obtain ⟨left⟩ := t
  cases left with
  | none => rfl
  | some n =>
      refine List.take_of_length_le ?_
      by_contra hlt
      have hzero : n - l.length = 0 := by omega
      simp [after, cancelled, hzero] at h

/-- Behind a cancelled poll nothing more is looked at. -/
theorem CancellationToken.within_append {α : Type} {t : CancellationToken} {l : List α} {q : Nat}
    (h : (t.after (q + 1)).cancelled.1 = true) (hq : q ≤ l.length) (l' : List α) :
    t.within (l ++ l') = t.within l := by
  obtain ⟨left⟩ := t
  cases left with
  | none => simp [after, cancelled] at h
  | some n =>
      have hle : n ≤ q + 1 := by
        by_contra hlt
        obtain ⟨m, hm⟩ : ∃ m, n - (q + 1) = m + 1 := ⟨n - (q + 1) - 1, by omega⟩
        simp [after, cancelled, hm] at h
      exact List.take_append_of_le_length (by omega)

theorem CancellationToken.within_prefix {α : Type} (t : CancellationToken) (l l' : List α) :
    t.within l <+: t.within (l ++ l') := by
  obtain ⟨left⟩ := t
  cases left with
  | none => exact List.prefix_append l l'
  | some n =>
      show l.take (n - 1) <+: (l ++ l').take (n - 1)
      rw [List.take_append]
      exact List.prefix_append _ _

theorem CancellationToken.within_isPrefix {α : Type} (t : CancellationToken) (l : List α) :
    t.within l <+: l := by
  obtain ⟨left⟩ := t
  cases left with
  | none => exact List.prefix_refl l
  | some n => exact List.take_prefix (n - 1) l

/-- A self-move that leaves a note of the given length. -/
def SelfMove.overwrite (length : Nat) : SelfMove :=
  ⟨fun r => { r with note := List.replicate length 0 }, fun _ => rfl⟩

namespace EvidenceStore

/-! ### The loop as a pass over the records -/

/-- The records in the order a sweep comes to them, each with the key of its bucket. -/
def placed (buckets : List (Name × List EvidenceRecord)) : List (Name × EvidenceRecord) :=
  buckets.flatMap fun e => e.2.map fun r => (e.1, r)

/-- What the sweep is to remove. -/
def expired (horizon : Timestamp) (r : EvidenceRecord) : Bool := decide (r.observedAt < horizon)

/-- `expired` of a placed record. -/
def expiredAt (horizon : Timestamp) (e : Name × EvidenceRecord) : Bool := expired horizon e.2

section Loop

variable (horizon : Timestamp) (maxRecords : Nat) (token : CancellationToken)

/-- While the sweep looks at these records it finds its token cancelled. The token is asked once
before the loop, and once for each record as long as there is budget. -/
def CancelledWithin (passed : List EvidenceRecord) : Prop :=
  ∃ q < passed.length, (passed.take q).countP (expired horizon) < maxRecords ∧
    (token.after (q + 1)).cancelled.1 = true

/-- The variables of the loop when these records are behind it. -/
structure Passed (passed : List EvidenceRecord) (st : SweepState) : Prop where
  cancelled_iff : st.cancelled = true ↔ CancelledWithin horizon maxRecords token passed
  removed : st.removed = min maxRecords ((token.within passed).countP (expired horizon))
  live : st.cancelled = false → st.removed = min maxRecords (passed.countP (expired horizon))
  token_eq : st.cancelled = false → passed.countP (expired horizon) < maxRecords →
    st.token = token.after (passed.length + 1)

variable {horizon maxRecords token}

theorem cancelledWithin_snoc {passed : List EvidenceRecord} {r : EvidenceRecord} :
    CancelledWithin horizon maxRecords token (passed ++ [r]) ↔
      CancelledWithin horizon maxRecords token passed ∨
      passed.countP (expired horizon) < maxRecords ∧
        (token.after (passed.length + 1)).cancelled.1 = true := by
  unfold CancelledWithin
  rw [List.length_append, List.length_singleton]
  constructor
  · rintro ⟨q, hq, hbudget, hpoll⟩
    rw [List.take_append_of_le_length (by omega)] at hbudget
    rcases Nat.lt_succ_iff_lt_or_eq.mp hq with hq | rfl
    · exact Or.inl ⟨q, hq, hbudget, hpoll⟩
    · rw [List.take_length] at hbudget
      exact Or.inr ⟨hbudget, hpoll⟩
  · rintro (⟨q, hq, hbudget, hpoll⟩ | ⟨hbudget, hpoll⟩)
    · refine ⟨q, by omega, ?_, hpoll⟩
      rw [List.take_append_of_le_length hq.le]
      exact hbudget
    · refine ⟨passed.length, by omega, ?_, hpoll⟩
      rw [List.take_append_of_le_length le_rfl, List.take_length]
      exact hbudget

/-- A loop that is cancelled stays as it is. -/
theorem Passed.cancelled {passed : List EvidenceRecord} {st : SweepState}
    (h : Passed horizon maxRecords token passed st) (hstop : st.cancelled = true)
    (l : List EvidenceRecord) : Passed horizon maxRecords token (passed ++ l) st := by
  obtain ⟨q, hq, hbudget, hpoll⟩ := h.cancelled_iff.mp hstop
  refine ⟨iff_of_true hstop ⟨q, ?_, ?_, hpoll⟩, ?_, fun hlive => ?_, fun hlive => ?_⟩
  · rw [List.length_append]
    omega
  · rw [List.take_append_of_le_length hq.le]
    exact hbudget
  · rw [CancellationToken.within_append hpoll hq.le]
    exact h.removed
  · rw [hstop] at hlive
    cases hlive
  · rw [hstop] at hlive
    cases hlive

/-- A loop without budget passes the records that are left and asks no more. -/
theorem Passed.exhausted {st : SweepState} (hlive : st.cancelled = false)
    (hfull : maxRecords ≤ st.removed) (l : List EvidenceRecord) :
    ∀ {passed : List EvidenceRecord}, Passed horizon maxRecords token passed st →
      Passed horizon maxRecords token (passed ++ l) st := by
  induction l with
  | nil =>
      intro passed h
      rw [List.append_nil]
      exact h
  | cons r rest ih =>
      intro passed h
      have hremoved := h.live hlive
      have hwithin := h.removed
      have hmore : (token.within passed).countP (expired horizon)
          ≤ (token.within (passed ++ [r])).countP (expired horizon) :=
        (token.within_prefix passed [r]).sublist.countP_le
      have hcount : (passed ++ [r]).countP (expired horizon)
          = passed.countP (expired horizon) + [r].countP (expired horizon) :=
        List.countP_append
      have hnext : Passed horizon maxRecords token (passed ++ [r]) st := by
        refine ⟨?_, by omega, fun _ => by omega, fun _ hbudget => by omega⟩
        rw [h.cancelled_iff, cancelledWithin_snoc]
        refine ⟨Or.inl, fun hor => ?_⟩
        rcases hor with hor | ⟨hbudget, -⟩
        · exact hor
        · omega
      have hrest := ih hnext
      rw [List.append_assoc, List.singleton_append] at hrest
      exact hrest

/-- A record that the loop looked at is behind it. -/
theorem Passed.snoc {passed : List EvidenceRecord} {st st' : SweepState} {r : EvidenceRecord}
    (h : Passed horizon maxRecords token passed st) (hlive : st.cancelled = false)
    (hbudget : st.removed < maxRecords) (hpoll : st.token.cancelled.1 = false)
    (hlive' : st'.cancelled = false) (htoken : st'.token = st.token.cancelled.2)
    (hremoved : st'.removed = st.removed + if expired horizon r then 1 else 0) :
    Passed horizon maxRecords token (passed ++ [r]) st' := by
  have hbefore := h.live hlive
  have hcount : (passed ++ [r]).countP (expired horizon)
      = passed.countP (expired horizon) + if expired horizon r then 1 else 0 := by
    rw [List.countP_append, List.countP_singleton]
  have hleft : passed.countP (expired horizon) < maxRecords := by omega
  have htoken' := h.token_eq hlive hleft
  rw [htoken'] at hpoll htoken
  have hwhole : token.within (passed ++ [r]) = passed ++ [r] := by
    refine CancellationToken.within_of_live ?_
    rw [List.length_append, List.length_singleton]
    exact hpoll
  have hcounted : st'.removed = min maxRecords ((passed ++ [r]).countP (expired horizon)) := by
    rw [hremoved, hcount, hbefore]
    split
    · omega
    · omega
  refine ⟨?_, by rw [hwhole]; exact hcounted, fun _ => hcounted, fun _ _ => ?_⟩
  · rw [hlive', cancelledWithin_snoc, hpoll, ← h.cancelled_iff, hlive]
    simp
  · rw [htoken, CancellationToken.after_cancelled, List.length_append, List.length_singleton]

/-- The loop over one bucket puts the bucket behind it. -/
theorem Passed.bucket (move : SelfMove) (bucket : List EvidenceRecord) :
    ∀ {passed : List EvidenceRecord} {st : SweepState} (shifted : Bool),
      Passed horizon maxRecords token passed st → st.cancelled = false →
      Passed horizon maxRecords token (passed ++ bucket)
        (sweepBucket move horizon maxRecords shifted st bucket).1 := by
  induction bucket with
  | nil =>
      intro passed st shifted h hlive
      rw [List.append_nil]
      exact h
  | cons r rest ih =>
      intro passed st shifted h hlive
      rw [sweepBucket]
      dsimp only
      split
      · rename_i hfull
        exact Passed.exhausted hlive hfull _ h
      rename_i hbudget
      have happend : passed ++ r :: rest = passed ++ [r] ++ rest := by
        rw [List.append_assoc, List.singleton_append]
      split
      · -- The token is found cancelled at this very record.
        rename_i hpoll
        have hbefore := h.live hlive
        have hleft : passed.countP (expired horizon) < maxRecords := by omega
        rw [h.token_eq hlive hleft] at hpoll
        rw [happend]
        refine Passed.cancelled ⟨iff_of_true rfl ?_, ?_, fun hlive => ?_, fun hlive => ?_⟩ rfl rest
        · exact cancelledWithin_snoc.mpr (Or.inr ⟨hleft, hpoll⟩)
        · rw [CancellationToken.within_append hpoll le_rfl]
          exact h.removed
        · cases hlive
        · cases hlive
      rename_i hpoll
      rw [Bool.not_eq_true] at hpoll
      rw [happend]
      split
      · rename_i hexpired
        refine ih true (h.snoc hlive (not_le.mp hbudget) hpoll hlive rfl ?_) hlive
        have hexp : expired horizon r = true := decide_eq_true hexpired
        rw [if_pos hexp]
      · rename_i hexpired
        refine ih shifted (h.snoc hlive (not_le.mp hbudget) hpoll hlive rfl ?_) hlive
        rw [if_neg (by simpa [expired] using hexpired), Nat.add_zero]

/-- The loop over one bucket removes the first expired records of the bucket, none when there is
no budget, and keeps the others as far as a self-move keeps them. -/
theorem sweepBucket_kept {β : Type} (move : SelfMove) {f : EvidenceRecord → β}
    (hf : ∀ r, f (move.apply r) = f r) (bucket : List EvidenceRecord) :
    ∀ (shifted : Bool) (st : SweepState), ∃ n ≤ bucket.countP (expired horizon),
      (sweepBucket move horizon maxRecords shifted st bucket).1.removed = st.removed + n ∧
      (maxRecords ≤ st.removed → n = 0) ∧
      (sweepBucket move horizon maxRecords shifted st bucket).2.map f
        = (dropFirst (expired horizon) n bucket).map f := by
  -- The number `n` counts what this call removes. Once something was removed, the later records
  -- are shifted and no longer moved onto themselves.
  induction bucket with
  | nil =>
      intro shifted st
      refine ⟨0, Nat.zero_le _, rfl, fun _ => rfl, ?_⟩
      rw [dropFirst_zero]
      rfl
  | cons r rest ih =>
      intro shifted st
      have hkeep : ∀ x : EvidenceRecord, f (if shifted then x else move.apply x) = f x := by
        intro x
        split
        · rfl
        · exact hf x
      have hall : ∀ l : List EvidenceRecord,
          (l.map fun x => if shifted then x else move.apply x).map f = l.map f := by
        intro l
        rw [List.map_map]
        exact List.map_congr_left fun x _ => hkeep x
      rw [sweepBucket]
      dsimp only
      split
      · refine ⟨0, Nat.zero_le _, rfl, fun _ => rfl, ?_⟩
        rw [dropFirst_zero]
        exact hall _
      rename_i hbudget
      split
      · refine ⟨0, Nat.zero_le _, rfl, fun _ => rfl, ?_⟩
        rw [dropFirst_zero]
        exact hall _
      split
      · rename_i hexpired
        have hexp : expired horizon r = true := decide_eq_true hexpired
        obtain ⟨n, hle, hremoved, -, hkept⟩ := ih true { st with
          token := st.token.cancelled.2
          insertionOrder := st.insertionOrder.erase r.insertionIndex
          retained := st.retained - 1
          removed := st.removed + 1 }
        refine ⟨n + 1, ?_, ?_, fun hfull => absurd hfull hbudget, ?_⟩
        · rw [List.countP_cons_of_pos hexp]
          omega
        · rw [hremoved]
          show st.removed + 1 + n = _
          omega
        · rw [dropFirst_cons_of_pos hexp]
          exact hkept
      · rename_i hexpired
        have hexp : expired horizon r = false := decide_eq_false hexpired
        obtain ⟨n, hle, hremoved, hnone, hkept⟩ := ih shifted
          { st with token := st.token.cancelled.2 }
        refine ⟨n, ?_, hremoved, hnone, ?_⟩
        · rw [List.countP_cons_of_neg (by simp [hexp])]
          exact hle
        · rw [dropFirst_cons_of_neg hexp, List.map_cons, List.map_cons, hkeep, hkept]

/-- The outer loop puts all buckets behind it, and each loses its first expired records. -/
theorem sweepEntries_kept {β : Type} (move : SelfMove) {f : EvidenceRecord → β}
    (hf : ∀ r, f (move.apply r) = f r) (buckets : List (Name × List EvidenceRecord)) :
    ∀ {passed : List EvidenceRecord} {st : SweepState}, Passed horizon maxRecords token passed st →
      Passed horizon maxRecords token (passed ++ buckets.flatMap Prod.snd)
        (OrdMap.mapAccumList (sweepEntry move horizon maxRecords) st buckets).1 ∧
      ∃ n ≤ (placed buckets).countP (expiredAt horizon),
        (OrdMap.mapAccumList (sweepEntry move horizon maxRecords) st buckets).1.removed
          = st.removed + n ∧
        (st.cancelled = true ∨ maxRecords ≤ st.removed → n = 0) ∧
        (placed (OrdMap.mapAccumList (sweepEntry move horizon maxRecords) st buckets).2).map
            (fun e => (e.1, f e.2))
          = (dropFirst (expiredAt horizon) n (placed buckets)).map (fun e => (e.1, f e.2)) := by
  induction buckets with
  | nil =>
      intro passed st h
      refine ⟨?_, 0, Nat.zero_le _, rfl, fun _ => rfl, ?_⟩
      · rw [List.flatMap_nil, List.append_nil]
        exact h
      · rw [dropFirst_zero]
        rfl
  | cons entry rest ih =>
      obtain ⟨key, bucket⟩ := entry
      intro passed st h
      rw [OrdMap.mapAccumList_cons]
      -- The first bucket, seen as placed records.
      have hfirst : ∃ n ≤ bucket.countP (expired horizon),
          (sweepEntry move horizon maxRecords st key bucket).1.removed = st.removed + n ∧
          (st.cancelled = true ∨ maxRecords ≤ st.removed → n = 0) ∧
          (sweepEntry move horizon maxRecords st key bucket).2.map f
            = (dropFirst (expired horizon) n bucket).map f ∧
          Passed horizon maxRecords token (passed ++ bucket)
            (sweepEntry move horizon maxRecords st key bucket).1 := by
        unfold sweepEntry
        split
        · rename_i hstop
          refine ⟨0, Nat.zero_le _, rfl, fun _ => rfl, ?_, h.cancelled hstop bucket⟩
          rw [dropFirst_zero]
        · rename_i hlive
          rw [Bool.not_eq_true] at hlive
          obtain ⟨n, hle, hremoved, hnone, hkept⟩ :=
            @sweepBucket_kept horizon maxRecords β move f hf bucket false st
          refine ⟨n, hle, hremoved, fun hor => hnone ?_, hkept, h.bucket move bucket false hlive⟩
          rcases hor with hstop | hfull
          · rw [hlive] at hstop
            cases hstop
          · exact hfull
      obtain ⟨n, hle, hremoved, hnone, hkept, hpassed⟩ := hfirst
      obtain ⟨hall, n', hle', hremoved', hnone', hkept'⟩ := ih hpassed
      generalize hst : (sweepEntry move horizon maxRecords st key bucket).1 = st₁ at *
      have hcount : (bucket.map fun r => (key, r)).countP (expiredAt horizon)
          = bucket.countP (expired horizon) := by
        rw [List.countP_map]
        rfl
      have hdrop : (dropFirst (expired horizon) n bucket).map (fun r => (key, r))
          = dropFirst (expiredAt horizon) n (bucket.map fun r => (key, r)) :=
        dropFirst_map (q := expiredAt horizon) (fun r => (key, r)) (fun _ => rfl) n bucket
      -- The later buckets lose nothing until the first one has lost all it has to.
      have hfinished : n' = 0 ∨ n = (bucket.map fun r => (key, r)).countP (expiredAt horizon) := by
        by_cases hstop : st₁.cancelled = true ∨ maxRecords ≤ st₁.removed
        · exact Or.inl (hnone' hstop)
        rw [not_or, Bool.not_eq_true, not_le] at hstop
        have hlive : st.cancelled = false := by
          cases hc : st.cancelled with
          | false => rfl
          | true =>
              have hsame : (sweepEntry move horizon maxRecords st key bucket).1 = st := by
                rw [sweepEntry, if_pos hc]
              rw [hst] at hsame
              rw [hsame, hc] at hstop
              exact absurd hstop.1 (by simp)
        have hbefore := h.live hlive
        have hafter := hpassed.live hstop.1
        rw [List.countP_append] at hafter
        rw [hcount]
        omega
      refine ⟨?_, n + n', ?_, ?_, fun hor => ?_, ?_⟩
      · rw [List.flatMap_cons, ← List.append_assoc]
        exact hall
      · rw [placed, List.flatMap_cons, List.countP_append, hcount]
        exact Nat.add_le_add hle hle'
      · rw [hremoved', hremoved, Nat.add_assoc]
      · have hzero := hnone hor
        have hzero' := hnone' (by
          rcases hor with hstop | hfull
          · have hsame : (sweepEntry move horizon maxRecords st key bucket).1 = st := by
              rw [sweepEntry, if_pos hstop]
            rw [hst] at hsame
            rw [hsame]
            exact Or.inl hstop
          · exact Or.inr (by omega))
        omega
      · rw [placed, List.flatMap_cons, placed, List.flatMap_cons,
          dropFirst_append (hcount ▸ hle) _ hfinished, ← hdrop, List.map_append, List.map_append]
        congr 1
        have hpair : ∀ l : List EvidenceRecord,
            (l.map fun r => (key, r)).map (fun e => (e.1, f e.2))
              = (l.map f).map fun b => (key, b) := by
          intro l
          rw [List.map_map, List.map_map]
          rfl
        rw [hpair, hpair, hkept]

/-! ### Self-moves -/

variable (horizon maxRecords token)

/-- The sweep was cancelled before it comes to the bucket, or it removes the first record of the
bucket. The records in `passed` are those of the buckets before. -/
def HeadRemoved (passed bucket : List EvidenceRecord) : Prop :=
  CancelledWithin horizon maxRecords token passed ∨ ∀ r ∈ bucket.head?,
    passed.countP (expired horizon) < maxRecords ∧
    (token.after (passed.length + 1)).cancelled.1 = false ∧ r.observedAt < horizon

/-- Each bucket of the list in turn. -/
def HeadsRemoved (passed : List EvidenceRecord) (buckets : List (Name × List EvidenceRecord)) :
    Prop :=
  ∀ before key bucket after, buckets = before ++ (key, bucket) :: after →
    HeadRemoved horizon maxRecords token (passed ++ before.flatMap Prod.snd) bucket

variable {horizon maxRecords token}

theorem headsRemoved_nil (passed : List EvidenceRecord) :
    HeadsRemoved horizon maxRecords token passed [] := by
  intro before key bucket after heq
  cases before with
  | nil => cases heq
  | cons e before => cases heq

theorem headsRemoved_cons {passed : List EvidenceRecord} {key : Name}
    {bucket : List EvidenceRecord} {rest : List (Name × List EvidenceRecord)} :
    HeadsRemoved horizon maxRecords token passed ((key, bucket) :: rest) ↔
      HeadRemoved horizon maxRecords token passed bucket ∧
      HeadsRemoved horizon maxRecords token (passed ++ bucket) rest := by
  constructor
  · intro h
    refine ⟨?_, fun before key' bucket' after heq => ?_⟩
    · have hfirst := h [] key bucket rest rfl
      rwa [List.flatMap_nil, List.append_nil] at hfirst
    · have hlater := h ((key, bucket) :: before) key' bucket' after (by rw [heq, List.cons_append])
      rwa [List.flatMap_cons, ← List.append_assoc] at hlater
  · rintro ⟨hfirst, hrest⟩ before key' bucket' after heq
    cases before with
    | nil =>
        cases heq
        rw [List.flatMap_nil, List.append_nil]
        exact hfirst
    | cons e before =>
        obtain ⟨hentry, htail⟩ := List.cons.inj heq
        subst hentry
        have hlater := hrest before key' bucket' after htail
        rw [List.append_assoc] at hlater
        exact hlater

/-- Behind a removed record every move has another target. -/
theorem sweepBucket_shifted (move : SelfMove) (bucket : List EvidenceRecord) (st : SweepState) :
    sweepBucket move horizon maxRecords true st bucket
      = sweepBucket .transfer horizon maxRecords true st bucket := by
  induction bucket generalizing st with
  | nil => rfl
  | cons r rest ih =>
      rw [sweepBucket, sweepBucket]
      simp only [if_true, ih]

/-- A bucket that begins with a removed record has no self-move; any other bucket the loop comes
to begins with one. -/
theorem sweepEntry_headRemoved (move : SelfMove) {passed : List EvidenceRecord} {st : SweepState}
    (h : Passed horizon maxRecords token passed st) (key : Name) (bucket : List EvidenceRecord) :
    (HeadRemoved horizon maxRecords token passed bucket →
      sweepEntry move horizon maxRecords st key bucket
        = sweepEntry .transfer horizon maxRecords st key bucket) ∧
    (¬ HeadRemoved horizon maxRecords token passed bucket →
      ∃ r, move.apply r ∈ (sweepEntry move horizon maxRecords st key bucket).2) := by
  unfold sweepEntry
  by_cases hstop : st.cancelled = true
  · have hhead : HeadRemoved horizon maxRecords token passed bucket :=
      Or.inl (h.cancelled_iff.mp hstop)
    rw [if_pos hstop, if_pos hstop]
    exact ⟨fun _ => rfl, fun hnot => absurd hhead hnot⟩
  rw [if_neg hstop, if_neg hstop]
  have hlive := Bool.not_eq_true _ ▸ hstop
  have hwithin : ¬ CancelledWithin horizon maxRecords token passed :=
    fun hc => hstop (h.cancelled_iff.mpr hc)
  have hremoved := h.live hlive
  cases bucket with
  | nil =>
      refine ⟨fun _ => rfl, fun hnot => absurd (Or.inr ?_) hnot⟩
      intro r hr
      cases hr
  | cons r rest =>
      -- Each of the three ways to stay behind starts with the record moved to itself.
      have hhead : HeadRemoved horizon maxRecords token passed (r :: rest) ↔
          passed.countP (expired horizon) < maxRecords ∧
          (token.after (passed.length + 1)).cancelled.1 = false ∧ r.observedAt < horizon := by
        simp [HeadRemoved, hwithin]
      rw [hhead, sweepBucket, sweepBucket]
      dsimp only
      by_cases hfull : st.removed ≥ maxRecords
      · rw [if_pos hfull, if_pos hfull]
        refine ⟨fun hgood => ?_, fun _ => ⟨r, List.mem_map.mpr ⟨r, List.mem_cons_self, rfl⟩⟩⟩
        omega
      rw [if_neg hfull, if_neg hfull]
      have hbudget : passed.countP (expired horizon) < maxRecords := by omega
      rw [← h.token_eq hlive hbudget]
      cases hpoll : st.token.cancelled.1 with
      | true =>
          refine ⟨fun hgood => absurd hgood.2.1 (by simp), fun _ => ⟨r, ?_⟩⟩
          exact List.mem_map.mpr ⟨r, List.mem_cons_self, rfl⟩
      | false =>
          by_cases hexpired : r.observedAt < horizon
          · simp only [Bool.false_eq_true, if_false, hexpired, if_true]
            exact ⟨fun _ => sweepBucket_shifted move rest _,
              fun hnot => absurd ⟨hbudget, trivial, trivial⟩ hnot⟩
          · simp only [Bool.false_eq_true, if_false, hexpired]
            exact ⟨fun hgood => absurd hgood.2.2 not_false,
              fun _ => ⟨r, List.mem_cons_self⟩⟩

theorem sweepEntries_headsRemoved (move : SelfMove)
    (buckets : List (Name × List EvidenceRecord)) :
    ∀ {passed : List EvidenceRecord} {st : SweepState}, Passed horizon maxRecords token passed st →
      (HeadsRemoved horizon maxRecords token passed buckets →
        OrdMap.mapAccumList (sweepEntry move horizon maxRecords) st buckets
          = OrdMap.mapAccumList (sweepEntry .transfer horizon maxRecords) st buckets) ∧
      (¬ HeadsRemoved horizon maxRecords token passed buckets →
        ∃ key r, (key, move.apply r) ∈
          placed (OrdMap.mapAccumList (sweepEntry move horizon maxRecords) st buckets).2) := by
  -- What was passed before decides whether a bucket is reached, so it is generalised together with
  -- the state of the loop.
  induction buckets with
  | nil =>
      intro passed st h
      exact ⟨fun _ => rfl, fun hnot => absurd (headsRemoved_nil passed) hnot⟩
  | cons entry rest ih =>
      obtain ⟨key, bucket⟩ := entry
      intro passed st h
      obtain ⟨hsame, hmoved⟩ := sweepEntry_headRemoved move h key bucket
      have hpassed := (sweepEntries_kept (f := fun _ => ()) move (fun _ => rfl) [(key, bucket)] h).1
      rw [OrdMap.mapAccumList_cons, List.flatMap_cons, List.flatMap_nil, List.append_nil]
        at hpassed
      obtain ⟨hsame', hmoved'⟩ := ih hpassed
      rw [headsRemoved_cons]
      refine ⟨fun hheads => ?_, fun hnot => ?_⟩
      · rw [OrdMap.mapAccumList_cons, OrdMap.mapAccumList_cons, ← hsame hheads.1]
        have hrest := hsame' hheads.2
        dsimp only [OrdMap.mapAccumList] at hrest
        rw [hrest]
      · rw [OrdMap.mapAccumList_cons]
        by_cases hhead : HeadRemoved horizon maxRecords token passed bucket
        · obtain ⟨key', r, hr⟩ := hmoved' fun hrest => hnot ⟨hhead, hrest⟩
          exact ⟨key', r, List.mem_append_right _ hr⟩
        · obtain ⟨r, hr⟩ := hmoved hhead
          exact ⟨key, r, List.mem_append_left _ (List.mem_map.mpr ⟨_, hr, rfl⟩)⟩

end Loop

/-! ### A sweep -/

/-- The variables the loop of `sweep` starts with. -/
def sweepStart (s : EvidenceStore) (token : CancellationToken) : SweepState :=
  { insertionOrder := s.insertionOrder, retained := s.retained, removed := 0
    token := token, cancelled := false }

theorem sweepLoop_fst (s : EvidenceStore) (move : SelfMove) (horizon : Timestamp)
    (maxRecords : Nat) (token : CancellationToken) :
    (s.sweepLoop move horizon maxRecords token).1 = (OrdMap.mapAccumList
      (sweepEntry move horizon maxRecords) (s.sweepStart token) s.bySubject.entries).1 := rfl

theorem sweepLoop_entries (s : EvidenceStore) (move : SelfMove) (horizon : Timestamp)
    (maxRecords : Nat) (token : CancellationToken) :
    (s.sweepLoop move horizon maxRecords token).2.entries = (OrdMap.mapAccumList
      (sweepEntry move horizon maxRecords) (s.sweepStart token) s.bySubject.entries).2 := rfl

theorem passed_init (s : EvidenceStore) (horizon : Timestamp) (maxRecords : Nat)
    (token : CancellationToken) :
    Passed horizon maxRecords token [] (s.sweepStart token.cancelled.2) := by
  have hnone : token.within ([] : List EvidenceRecord) = [] := by
    exact List.prefix_nil.mp (token.within_isPrefix [])
  refine ⟨iff_of_false Bool.false_ne_true ?_, ?_, fun _ => ?_, fun _ _ => ?_⟩
  · rintro ⟨q, hq, -⟩
    exact Nat.not_lt_zero q hq
  · rw [hnone, List.countP_nil, Nat.min_zero]
    rfl
  · rw [List.countP_nil, Nat.min_zero]
    rfl
  · exact token.cancelled_next

theorem placed_records (s : EvidenceStore) :
    (placed s.bySubject.entries).map Prod.snd = s.records := by
  rw [placed, List.map_flatMap, records, OrdMap.values, List.flatMap]
  simp only [List.map_map, Function.comp_def, List.map_id']

theorem countP_placed (horizon : Timestamp) (buckets : List (Name × List EvidenceRecord)) :
    (placed buckets).countP (expiredAt horizon)
      = (buckets.flatMap Prod.snd).countP (expired horizon) := by
  have hsnd : (placed buckets).map Prod.snd = buckets.flatMap Prod.snd := by
    rw [placed, List.map_flatMap]
    simp only [List.map_map, Function.comp_def, List.map_id']
  rw [← hsnd, List.countP_map]
  rfl

/-- The number of records a sweep removes: the expired ones among those it looks at, as far as
the budget goes. -/
def sweptCount (s : EvidenceStore) (horizon : Timestamp) (maxRecords : Nat)
    (token : CancellationToken) : Nat :=
  min maxRecords ((token.within s.records).countP (expired horizon))

theorem sweptCount_le (s : EvidenceStore) (horizon : Timestamp) (maxRecords : Nat)
    (token : CancellationToken) :
    s.sweptCount horizon maxRecords token
      ≤ (placed s.bySubject.entries).countP (expiredAt horizon) := by
  rw [countP_placed]
  exact (Nat.min_le_right _ _).trans (token.within_isPrefix s.records).sublist.countP_le

/-- Every sweep, completed or cancelled, leaves the records without the first expired ones, up to
the effect of self-moves, and one that completes removes as many as the budget allows. -/
theorem sweep_kept {β : Type} (s : EvidenceStore) (move : SelfMove) {f : EvidenceRecord → β}
    (hf : ∀ r, f (move.apply r) = f r) (horizon : Timestamp) (maxRecords : Nat)
    (token : CancellationToken) :
    (placed (s.sweep move horizon maxRecords token).2.bySubject.entries).map
        (fun e => (e.1, f e.2))
      = (dropFirst (expiredAt horizon) (s.sweptCount horizon maxRecords token)
          (placed s.bySubject.entries)).map (fun e => (e.1, f e.2)) ∧
    ∀ m, (s.sweep move horizon maxRecords token).1 = .ok m →
      m = s.sweptCount horizon maxRecords token ∧
      m = min maxRecords ((placed s.bySubject.entries).countP (expiredAt horizon)) := by
  unfold sweep
  by_cases hzero : maxRecords = 0
  · have hcount : s.sweptCount horizon maxRecords token = 0 := by
      rw [sweptCount, hzero, Nat.zero_min]
    rw [if_pos hzero, hcount, dropFirst_zero]
    refine ⟨rfl, fun m hm => ?_⟩
    obtain rfl := Except.ok.inj hm
    omega
  rw [if_neg hzero]
  dsimp only
  split
  · -- Cancelled before any work is done.
    rename_i hstop
    have hcount : s.sweptCount horizon maxRecords token = 0 := by
      obtain ⟨left⟩ := token
      cases left with
      | none => simp [CancellationToken.cancelled] at hstop
      | some n =>
          cases n with
          | zero => simp [sweptCount, CancellationToken.within]
          | succ n => simp [CancellationToken.cancelled] at hstop
    rw [hcount, dropFirst_zero]
    refine ⟨rfl, fun m hm => ?_⟩
    cases hm
  obtain ⟨hpassed, n, hle, hremoved, -, hkept⟩ :=
    sweepEntries_kept move hf s.bySubject.entries (passed_init s horizon maxRecords token)
  have hstart : (s.sweepStart token.cancelled.2).removed = 0 := rfl
  have hcount : s.sweptCount horizon maxRecords token = n := by
    have htotal := hpassed.removed
    rw [List.nil_append] at htotal
    have hall : s.sweptCount horizon maxRecords token = min maxRecords
      ((token.within (s.bySubject.entries.flatMap Prod.snd)).countP (expired horizon)) := rfl
    omega
  rw [hcount]
  split
  · refine ⟨hkept, fun m hm => ?_⟩
    cases hm
  · rename_i hlive
    refine ⟨hkept, fun m hm => ?_⟩
    have htotal := hpassed.live (Bool.not_eq_true _ ▸ hlive)
    rw [List.nil_append, ← countP_placed] at htotal
    have hm' := Except.ok.inj hm
    rw [sweepLoop_fst] at hm'
    omega

/-- The records a sweep removes, in order. -/
def sweptRecords (s : EvidenceStore) (horizon : Timestamp) (maxRecords : Nat)
    (token : CancellationToken) : List EvidenceRecord :=
  takeFirst (expired horizon) maxRecords (token.within s.records)

/-- The records before a sweep are those it leaves and those it removes. -/
theorem sweep_records_perm {β : Type} (s : EvidenceStore) (move : SelfMove)
    {f : EvidenceRecord → β} (hf : ∀ r, f (move.apply r) = f r) (horizon : Timestamp)
    (maxRecords : Nat) (token : CancellationToken) :
    ((s.sweep move horizon maxRecords token).2.records.map f
      ++ (s.sweptRecords horizon maxRecords token).map f).Perm (s.records.map f) := by
  have hleft : (s.sweep move horizon maxRecords token).2.records.map f
      = (dropFirst (expired horizon) (s.sweptCount horizon maxRecords token) s.records).map f := by
    have hkept := congrArg (List.map Prod.snd) (sweep_kept s move hf horizon maxRecords token).1
    rw [List.map_map, List.map_map] at hkept
    rw [← placed_records, ← placed_records, List.map_map,
      ← dropFirst_map (p := expiredAt horizon) (q := expired horizon) Prod.snd (fun _ => rfl),
      List.map_map]
    exact hkept
  have hgone : s.sweptRecords horizon maxRecords token
      = takeFirst (expired horizon) (s.sweptCount horizon maxRecords token) s.records :=
    (takeFirst_of_isPrefix maxRecords (token.within_isPrefix s.records)).symm
  rw [hleft, hgone, ← List.map_append]
  exact (dropFirst_append_takeFirst_perm _ s.records).map f

/-- What a sweep is to do: the records left are the records before without the first expired
ones, in bucket and insertion order, each as it was; and a sweep that completes removes as many
as the budget allows and returns their number. -/
def SweptExactly (s : EvidenceStore) (horizon : Timestamp) (maxRecords : Nat)
    (swept : Result Nat × EvidenceStore) : Prop :=
  ∃ n ≤ (placed s.bySubject.entries).countP (expiredAt horizon),
    placed swept.2.bySubject.entries
      = dropFirst (expiredAt horizon) n (placed s.bySubject.entries) ∧
    ∀ m, swept.1 = .ok m →
      m = n ∧ m = min maxRecords ((placed s.bySubject.entries).countP (expiredAt horizon))

theorem exists_note_bound (l : List (Name × EvidenceRecord)) :
    ∃ bound, ∀ e ∈ l, e.2.note.length < bound := by
  induction l with
  | nil => exact ⟨0, fun e he => absurd he List.not_mem_nil⟩
  | cons a l ih =>
      obtain ⟨bound, hbound⟩ := ih
      refine ⟨max bound (a.2.note.length + 1), fun e he => ?_⟩
      rcases List.mem_cons.mp he with rfl | he
      · omega
      · have hlt := hbound e he
        omega

/-- A sweep removes and keeps exactly what it should, whatever a self-move does, if and only if
the token is cancelled before the loop or every bucket the loop comes to begins with a record
that it removes. -/
theorem sweep_exact_iff (s : EvidenceStore) (horizon : Timestamp) (maxRecords : Nat)
    (token : CancellationToken) (hbudget : 1 ≤ maxRecords) :
    (∀ move, SweptExactly s horizon maxRecords (s.sweep move horizon maxRecords token)) ↔
      token.cancelled.1 = true ∨ HeadsRemoved horizon maxRecords token [] s.bySubject.entries := by
  have hinit := passed_init s horizon maxRecords token
  have hmove := fun move => sweepEntries_headsRemoved move s.bySubject.entries hinit
  have hexact : SweptExactly s horizon maxRecords (s.sweep .transfer horizon maxRecords token) := by
    obtain ⟨hkept, hcount⟩ :=
      sweep_kept s .transfer (f := fun r => r) (fun _ => rfl) horizon maxRecords token
    rw [List.map_id', List.map_id'] at hkept
    exact ⟨_, s.sweptCount_le horizon maxRecords token, hkept, hcount⟩
  by_cases hstop : token.cancelled.1 = true
  · refine iff_of_true (fun move => ?_) (Or.inl hstop)
    have hsame : s.sweep move horizon maxRecords token
        = s.sweep .transfer horizon maxRecords token := by
      unfold sweep
      simp only [hstop, if_true]
    rw [hsame]
    exact hexact
  rw [or_iff_right hstop]
  constructor
  · intro hall
    by_contra hnot
    -- A self-moved record would have to be one of the store, but its note is longer than theirs.
    obtain ⟨bound, hbound⟩ := exists_note_bound (placed s.bySubject.entries)
    obtain ⟨key, r, hr⟩ := (hmove (.overwrite bound)).2 hnot
    obtain ⟨n, -, hkept, -⟩ := hall (.overwrite bound)
    have hloop : (s.sweep (.overwrite bound) horizon maxRecords token).2.bySubject
        = (s.sweepLoop (.overwrite bound) horizon maxRecords token.cancelled.2).2 := by
      unfold sweep
      rw [if_neg (by omega)]
      dsimp only
      rw [if_neg hstop]
      split
      · rfl
      · rfl
    rw [← sweepLoop_entries, ← hloop, hkept] at hr
    have hlt := hbound _ ((dropFirst_sublist n _).subset hr)
    have hlength : ((SelfMove.overwrite bound).apply r).note.length = bound :=
      List.length_replicate
    rw [hlength] at hlt
    exact lt_irrefl _ hlt
  · intro hheads move
    have hloop := (hmove move).1 hheads
    have hsame : s.sweep move horizon maxRecords token
        = s.sweep .transfer horizon maxRecords token := by
      have hentries : s.sweepLoop move horizon maxRecords token.cancelled.2
          = s.sweepLoop .transfer horizon maxRecords token.cancelled.2 := by
        refine Prod.ext ?_ (OrdMap.eq_of_entries_eq ?_)
        · rw [sweepLoop_fst, sweepLoop_fst, hloop]
        · rw [sweepLoop_entries, sweepLoop_entries, hloop]
      unfold sweep
      dsimp only
      rw [hentries]
    rw [hsame]
    exact hexact

/-- A store with two records of one link. -/
def twoDrops : EvidenceStore :=
  { limits := {}
    bySubject := OrdMap.empty.insert (Name.unchecked (sampleDrop 1 ⟨10⟩).subject.str)
      [sampleDrop 1 ⟨10⟩, sampleDrop 2 ⟨20⟩] }

/-- The first record is expired, and the second is moved to its place. -/
theorem sweep_exact_twoDrops :
    HeadsRemoved ⟨15⟩ 8 .never [] twoDrops.bySubject.entries ∧
      ∀ move, SweptExactly twoDrops ⟨15⟩ 8 (twoDrops.sweep move ⟨15⟩ 8 .never) := by
  have hheads : HeadsRemoved ⟨15⟩ 8 .never [] twoDrops.bySubject.entries := by
    have hentries : twoDrops.bySubject.entries
        = [(Name.unchecked (sampleDrop 1 ⟨10⟩).subject.str,
          [sampleDrop 1 ⟨10⟩, sampleDrop 2 ⟨20⟩])] := by decide +kernel
    rw [hentries, headsRemoved_cons]
    refine ⟨Or.inr fun r hr => ?_, headsRemoved_nil _⟩
    obtain rfl := Option.mem_some.mp hr
    decide +kernel
  exact ⟨hheads, (sweep_exact_iff twoDrops ⟨15⟩ 8 .never (by decide)).mpr (Or.inr hheads)⟩

/-- When nothing is expired both records are moved to themselves, and a move that empties the
strings of its target loses their subject. -/
theorem sweep_loses_subject :
    ∃ move : SelfMove, ¬ SweptExactly twoDrops ⟨5⟩ 8 (twoDrops.sweep move ⟨5⟩ 8 .never) := by
  refine ⟨⟨EvidenceRecord.withoutOwnedMembers, fun _ => rfl⟩, ?_⟩
  rintro ⟨n, hle, hkept, -⟩
  have hnone : (placed twoDrops.bySubject.entries).countP (expiredAt ⟨5⟩) = 0 := by decide +kernel
  have hzero : n = 0 := by omega
  subst hzero
  rw [dropFirst_zero] at hkept
  revert hkept
  decide +kernel

end EvidenceStore

end CongestionObservatory
