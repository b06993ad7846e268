import Mathlib.Order.Bounds.Basic
import CongestionObservatory.Proofs.Correlation.Group

/-!
# `CongestionObservatory.Proofs.Correlation.Window`: what the window of a group says

The members of a group should lie within `window_span` of each other. `correlate` never reads
`window_span`: it compares an episode with the reference of the group and with `max_gap`. Where
`max_gap` is not above `window_span` that is enough for the reference, but a long reference has
members at both of its ends. `span_kept_iff` says when the members are near each other all the
same, and gives a bound on the intervals of the input that keeps them near.

The window of a group should be the hull of its members (`Hull`). `take` extends the start of the
window when the start is zero, as if zero meant that there is no start yet. The first member sets
the start, so a start of zero is a member that was first seen at zero, and the next member moves
the window past it. `hull_iff` says that nothing else goes wrong.
-/

set_option autoImplicit false

namespace CongestionObservatory

open Lib

variable {policy : CorrelationPolicy} {limits : Limits} {token : CancellationToken}

/-! ### The span -/

/-- Every member of the group overlaps the episode or is at most the span away from it. -/
def WithinSpan (span : Duration) (held : List Episode) (episode : Episode) : Prop :=
  ∀ member ∈ held, IntervalsNear span member episode

instance (span : Duration) (held : List Episode) (episode : Episode) :
    Decidable (WithinSpan span held episode) :=
  inferInstanceAs (Decidable (∀ member ∈ held, _))

theorem IntervalsNear.refl {episode : Episode} (h : episode.firstSeen ≤ episode.lastSeen)
    (span : Duration) : IntervalsNear span episode episode := .inl ⟨h, h⟩

/-- Of two intervals that do not overlap one ends before the other starts. -/
theorem separation_comm {a b : Episode} (ha : a.firstSeen ≤ a.lastSeen)
    (hb : b.firstSeen ≤ b.lastSeen) (hapart : ¬ intervalsOverlap a b) :
    separation a b = separation b a := by
  unfold separation gapStart gapEnd
  by_cases hafter : a.firstSeen > b.lastSeen
  · have hbefore : ¬ b.firstSeen > a.lastSeen :=
      not_lt.mpr ((hb.trans hafter.le).trans ha)
    simp only [if_pos hafter, if_neg hbefore]
  · have hafter' : b.firstSeen > a.lastSeen :=
      lt_of_not_ge fun hle => hapart ⟨not_lt.mp hafter, hle⟩
    simp only [if_neg hafter, if_pos hafter']

theorem IntervalsNear.symm {span : Duration} {a b : Episode} (ha : a.firstSeen ≤ a.lastSeen)
    (hb : b.firstSeen ≤ b.lastSeen) (h : IntervalsNear span a b) : IntervalsNear span b a := by
  by_cases hoverlap : intervalsOverlap a b
  · exact .inl ⟨hoverlap.2, hoverlap.1⟩
  · refine .inr ?_
    rw [← separation_comm ha hb hoverlap]
    exact h.resolve_left hoverlap

/-- An episode that starts no earlier is within the span of a member exactly when it starts at
most the span after the member ended. -/
theorem intervalsNear_iff_of_le {span : Duration} {member episode : Episode}
    (hepisode : episode.firstSeen ≤ episode.lastSeen)
    (hordered : member.firstSeen ≤ episode.firstSeen) :
    IntervalsNear span member episode ↔
      episode.firstSeen.nanos.toInt - member.lastSeen.nanos.toInt ≤ max span.nanos.toInt 0 := by
  have hbefore : member.firstSeen ≤ episode.lastSeen := hordered.trans hepisode
  have hoverlap : intervalsOverlap member episode ↔ episode.firstSeen ≤ member.lastSeen :=
    and_iff_right hbefore
  have hseparation : separation member episode
      = episode.firstSeen.nanos.toInt - member.lastSeen.nanos.toInt := by
    unfold separation gapStart gapEnd
    rw [if_neg (not_lt.mpr hbefore), if_neg (not_lt.mpr hbefore)]
  rw [IntervalsNear, hoverlap, hseparation, Timestamp.le_iff]
  omega

/-- The comparison with the reference keeps the episode in the span: they overlap, or `max_gap` is
not above the span and the subtraction stays in 64 bits, or the gap itself is not above it. -/
def ReferenceSpans (policy : CorrelationPolicy) (episode reference : Episode) : Prop :=
  intervalsOverlap episode reference ∨
    if policy.maxGap ≤ policy.windowSpan then separation episode reference < 2 ^ 63
    else separation episode reference ≤ policy.windowSpan.nanos.toInt

instance (policy : CorrelationPolicy) (episode reference : Episode) :
    Decidable (ReferenceSpans policy episode reference) :=
  inferInstanceAs (Decidable (_ ∨ ite _ _ _))

/-- The end of the member after the reference that ended first. -/
def earliestEnd (held : List Episode) : Option Int :=
  (held.tail.map fun member => member.lastSeen.nanos.toInt).min?

/-- The comparison with the reference keeps the episode in the span, and the episode starts at
most the span after the first of the other members ended. -/
def SpanSafe (policy : CorrelationPolicy) (held : List Episode) (episode : Episode) : Prop :=
  (∀ reference ∈ held.head?, ReferenceSpans policy episode reference) ∧
  ∀ earliest ∈ earliestEnd held,
    episode.firstSeen.nanos.toInt - earliest ≤ max policy.windowSpan.nanos.toInt 0

instance (policy : CorrelationPolicy) (held : List Episode) (episode : Episode) :
    Decidable (SpanSafe policy held episode) :=
  inferInstanceAs (Decidable ((∀ reference ∈ held.head?, _) ∧ ∀ earliest ∈ earliestEnd held, _))

/-- Every episode with `max_gap` after it is within the span, and no two episodes are 2^63
nanoseconds apart. -/
def ShortFor (policy : CorrelationPolicy) (ordered : List Episode) : Prop :=
  (∀ e ∈ ordered, e.lastSeen.nanos.toInt - e.firstSeen.nanos.toInt
    + max policy.maxGap.nanos.toInt 0 ≤ policy.windowSpan.nanos.toInt) ∧
  ∀ a ∈ ordered, ∀ b ∈ ordered, separation a b < 2 ^ 63

/-- What joined the reference is in its span exactly when the comparison keeps it there. -/
theorem referenceSpans_iff {cap size : Nat} {episode reference : Episode}
    (hjoinable : Joinable policy cap episode reference size) :
    ReferenceSpans policy episode reference ↔
      IntervalsNear policy.windowSpan episode reference := by
  unfold ReferenceSpans
  split
  · rename_i hle
    exact (intervalsNear_iff_fits hjoinable.within hle).symm
  · exact Iff.rfl

/-- A distance from every member is a distance from the one that ended first. -/
theorem earliestEnd_iff {reference : Episode} {rest : List Episode} {start bound : Int} :
    (∀ earliest ∈ earliestEnd (reference :: rest), start - earliest ≤ bound) ↔
      ∀ member ∈ rest, start - member.lastSeen.nanos.toInt ≤ bound := by
  have hends : earliestEnd (reference :: rest)
      = (rest.map fun member => member.lastSeen.nanos.toInt).min? := rfl
  rw [hends]
  constructor
  · intro hearliest member hmember
    have hmem := List.mem_map_of_mem hmember (f := fun m : Episode => m.lastSeen.nanos.toInt)
    obtain ⟨earliest, hmin⟩ := Option.ne_none_iff_exists'.mp
      (mt List.min?_eq_none_iff.mp (List.ne_nil_of_mem hmem))
    have hle := (List.min?_eq_some_iff.mp hmin).2 _ hmem
    have hbound := hearliest earliest hmin
    omega
  · intro hall earliest hmin
    obtain ⟨member, hmember, rfl⟩ := List.mem_map.mp (List.min?_eq_some_iff.mp hmin).1
    exact hall member hmember

/-- Among members in order, an episode that joined their reference is in the span of all of them
exactly when it is safe. -/
theorem spanSafe_iff {cap size : Nat} {episode reference : Episode} {rest : List Episode}
    (hjoinable : Joinable policy cap episode reference size)
    (hinterval : ∀ e ∈ episode :: reference :: rest, e.firstSeen ≤ e.lastSeen)
    (hordered : ∀ member ∈ rest, member.firstSeen ≤ episode.firstSeen) :
    SpanSafe policy (reference :: rest) episode ↔
      WithinSpan policy.windowSpan (reference :: rest) episode := by
  have hepisode := hinterval episode (by simp)
  have hreference := hinterval reference (by simp)
  have hhead : (∀ r ∈ (reference :: rest).head?, ReferenceSpans policy episode r) ↔
      IntervalsNear policy.windowSpan reference episode := by
    simp only [List.head?_cons, Option.mem_some_iff, forall_eq', referenceSpans_iff hjoinable]
    exact ⟨fun h => h.symm hepisode hreference, fun h => h.symm hreference hepisode⟩
  rw [SpanSafe, WithinSpan, hhead, earliestEnd_iff, List.forall_mem_cons]
  refine and_congr_right fun _ => forall₂_congr fun member hmember => ?_
  exact (intervalsNear_iff_of_le hepisode (hordered member hmember)).symm

section Ordered

variable {ordered held : List Episode} {g : CorrelationGroup}
  (hmade : MadeFrom ordered policy limits token g held)
  (hsorted : ordered.Pairwise fun a b => placementKey a ≤ placementKey b)

include hmade hsorted

/-- A group holds its episodes in the order they were first seen. -/
theorem MadeFrom.pairwise_firstSeen : held.Pairwise fun a b => a.firstSeen ≤ b.firstSeen :=
  (hsorted.sublist (FirstFit.sublist_run hmade.mem_placement)).imp fun hab =>
    (Prod.Lex.le_iff.mp hab).elim le_of_lt fun h => h.1.le

variable (hinterval : ∀ e ∈ ordered, e.firstSeen ≤ e.lastSeen)

include hinterval

theorem MadeFrom.formed_spanSafe_iff : FirstFit.Formed (SpanSafe policy) held ↔
    ∀ a ∈ held, ∀ b ∈ held, IntervalsNear policy.windowSpan a b := by
  have hsub := FirstFit.sublist_run hmade.mem_placement
  have hfirst := hmade.pairwise_firstSeen hsorted
  rw [← hmade.formed_iff (fun a ha => .refl (hinterval a ha) policy.windowSpan)
    fun a ha b hb hab => hab.symm (hinterval a ha) (hinterval b hb)]
  refine FirstFit.Formed.congr fun before e after hsplit hformed => ?_
  obtain ⟨reference, rest, rfl, hjoinable⟩ := hmade.joinable hsplit hformed.1
  rw [hsplit] at hsub hfirst
  refine spanSafe_iff hjoinable (fun m hm => hinterval m (hsub.subset ?_)) fun m hm => ?_
  · simp only [List.mem_cons, List.mem_append] at hm ⊢
    tauto
  · exact (List.pairwise_append.mp hfirst).2.2 m (List.mem_cons_of_mem _ hm) e List.mem_cons_self

/-- Where every episode and `max_gap` together are short, the end of the reference is near the
end of every member. -/
theorem MadeFrom.formed_spanSafe (hshort : ShortFor policy ordered) :
    FirstFit.Formed (SpanSafe policy) held := by
  have hsub := FirstFit.sublist_run hmade.mem_placement
  have hfirst := hmade.pairwise_firstSeen hsorted
  refine ⟨(FirstFit.formed_run hmade.mem_placement).1, fun before e after hsplit hbefore => ?_⟩
  obtain ⟨reference, rest, rfl, hjoinable⟩ := hmade.joinable hsplit hbefore
  rw [hsplit] at hsub hfirst
  have hreference : reference ∈ ordered := hsub.subset (by simp)
  have he : e ∈ ordered := hsub.subset (by simp)
  have hlength := hshort.1 reference hreference
  have hends := Timestamp.le_iff.mp (hinterval reference hreference)
  have hgap : policy.maxGap ≤ policy.windowSpan := Duration.le_iff.mpr (by omega)
  have hfits := hshort.2 e he reference hreference
  -- The exact gap to the reference is at most `max_gap`.
  have hnear := (intervalsNear_iff_fits hjoinable.within le_rfl).mpr (.inr hfits)
  have hstart : reference.firstSeen ≤ e.firstSeen :=
    (List.pairwise_append.mp hfirst).2.2 reference List.mem_cons_self e List.mem_cons_self
  have hreach := (intervalsNear_iff_of_le (hinterval e he) hstart).mp
    (hnear.symm (hinterval e he) (hinterval reference hreference))
  refine ⟨fun r hr => ?_, earliestEnd_iff.mpr fun member hmember => ?_⟩
  · cases hr
    exact .inr (by rw [if_pos hgap]; exact hfits)
  · have hlater := Timestamp.le_iff.mp
      ((List.pairwise_cons.mp (List.pairwise_append.mp hfirst).1).1 member hmember)
    have hmends := Timestamp.le_iff.mp (hinterval member (hsub.subset (by simp [hmember])))
    omega

end Ordered

/-- Of episodes in the order `correlate` sorts them into, the members of every returned group are
within the span of each other exactly when at every step the comparison with the reference keeps
the episode in the span and the episode starts at most the span after the first of the other
members ended. That is so when every episode and `max_gap` together are short. -/
theorem span_kept_iff {ordered : List Episode} {returned : List CorrelationGroup}
    (h : correlateOrdered ordered policy limits token = .ok returned)
    (hsorted : ordered.Pairwise fun a b => placementKey a ≤ placementKey b)
    (hinterval : ∀ e ∈ ordered, e.firstSeen ≤ e.lastSeen) :
    ((∀ g ∈ returned, ∀ held, MadeFrom ordered policy limits token g held →
        ∀ a ∈ held, ∀ b ∈ held, IntervalsNear policy.windowSpan a b) ↔
      Guarded (FirstFit.step (FirstFit.strict (groupAccepts policy limits) (SpanSafe policy))
          (groupBound policy limits))
        (FirstFit.Picks (groupAccepts policy limits) (SpanSafe policy)) [] ordered) ∧
    (ShortFor policy ordered →
      ∀ g ∈ returned, ∀ held, MadeFrom ordered policy limits token g held →
        ∀ a ∈ held, ∀ b ∈ held, IntervalsNear policy.windowSpan a b) :=
  ⟨made_iff_guarded h fun _ _ hmade => hmade.formed_spanSafe_iff hsorted hinterval,
    fun hshort _ _ _ hmade => (hmade.formed_spanSafe_iff hsorted hinterval).mp
      (hmade.formed_spanSafe hsorted hinterval hshort)⟩

theorem oneTenant_span : ∃ returned, correlateOrdered oneTenant {} {} .never = .ok returned ∧
    ∀ g ∈ returned, ∀ held, MadeFrom oneTenant {} {} .never g held →
      ∀ a ∈ held, ∀ b ∈ held, IntervalsNear (Duration.fromSeconds 30) a b := by
  obtain ⟨groups, hgroups⟩ := placeEpisodes_never oneTenant {} {}
  have hreturned := correlateOrdered_of_placeEpisodes hgroups
  exact ⟨_, hreturned, (span_kept_iff hreturned (by decide +kernel) (by decide +kernel)).1.mpr
    (FirstFit.guarded_pair (by decide +kernel))⟩

/-- A long episode, and two short ones at its ends. -/
def longReference : List Episode :=
  [{ episodeSeen 1 "" 1 with lastSeen := ⟨100000000000⟩ }, episodeSeen 2 "" 2,
    episodeSeen 3 "" 99000000000]

/-- Both short episodes overlap the reference, and they are 98 seconds and more apart. -/
theorem longReference_exceeds_span : (∀ e ∈ longReference, e.firstSeen ≤ e.lastSeen) ∧
    ∃ g held, correlate longReference {} {} .never = .ok [g] ∧
      MadeFrom longReference {} {} .never g held ∧
      ∃ a ∈ held, ∃ b ∈ held, ¬ IntervalsNear ({} : CorrelationPolicy).windowSpan a b := by
  obtain ⟨g, hg, hmade⟩ := @correlate_of_placement {} {} longReference (by decide +kernel)
    (by decide +kernel)
  exact ⟨by decide +kernel, g, longReference, hg, hmade, episodeSeen 2 "" 2,
    by simp [longReference], episodeSeen 3 "" 99000000000, by simp [longReference],
    by decide +kernel⟩

/-! ### The hull -/

/-- The window, the peak and the sources of the group are those of its members. -/
structure Hull (g : CorrelationGroup) (held : List Episode) : Prop where
  windowStart : IsLeast {t | ∃ m ∈ held, m.firstSeen = t} g.windowStart
  windowEnd : IsGreatest {t | ∃ m ∈ held, m.lastSeen = t} g.windowEnd
  peak : IsGreatest {s | ∃ m ∈ held, toUnderlying m.peakSeverity = s}
    (toUnderlying g.peakSeverity)
  ascending : g.sources.Pairwise (· < ·)
  sources : ∀ s, s ∈ g.sources ↔ ∃ m ∈ held, s ∈ m.sources

/-- A group whose first episode was first seen at zero gets no episode first seen later. -/
def EpochSafe (held : List Episode) (episode : Episode) : Prop :=
  ∀ reference ∈ held.head?, reference.firstSeen.isZero = true → episode.firstSeen.isZero = true

instance (held : List Episode) (episode : Episode) : Decidable (EpochSafe held episode) :=
  inferInstanceAs (Decidable (∀ reference ∈ held.head?, _))

section Fold

variable {α β γ : Type} [LinearOrder β] [DecidableLT β]

/-- A loop that keeps the best candidate ends with a candidate, or with what it began with, and
none is better. -/
theorem foldl_best (measure : γ → β) (pick : α → γ) (l : List α) (best : γ) :
    let last := l.foldl (fun best a =>
      if measure (pick a) > measure best then pick a else best) best
    (last = best ∨ ∃ a ∈ l, pick a = last) ∧ measure best ≤ measure last ∧
      ∀ a ∈ l, measure (pick a) ≤ measure last := by
  induction l generalizing best with
  | nil => exact ⟨.inl rfl, le_refl _, fun a ha => absurd ha List.not_mem_nil⟩
  | cons a rest ih =>
      obtain ⟨hlast, hbest, hall⟩ := ih (if measure (pick a) > measure best then pick a else best)
      rw [List.foldl_cons]
      by_cases hbetter : measure (pick a) > measure best
      · rw [if_pos hbetter] at hlast hbest hall ⊢
        refine ⟨.inr ?_, hbetter.le.trans hbest, List.forall_mem_cons.mpr ⟨hbest, hall⟩⟩
        rcases hlast with hlast | ⟨b, hb, hlast⟩
        · exact ⟨a, List.mem_cons_self, hlast.symm⟩
        · exact ⟨b, List.mem_cons_of_mem _ hb, hlast⟩
      · rw [if_neg hbetter] at hlast hbest hall ⊢
        refine ⟨hlast.imp_right ?_, hbest, List.forall_mem_cons.mpr ⟨?_, hall⟩⟩
        · rintro ⟨b, hb, hlast⟩
          exact ⟨b, List.mem_cons_of_mem _ hb, hlast⟩
        · exact (not_lt.mp hbetter).trans hbest

end Fold

/-- The start of the window after one more member. -/
def extendStart (start : Timestamp) (episode : Episode) : Timestamp :=
  if episode.firstSeen < start ∨ start.isZero then episode.firstSeen else start

/-- The end of the window after one more member. -/
def extendEnd (finish : Timestamp) (episode : Episode) : Timestamp :=
  if episode.lastSeen > finish then episode.lastSeen else finish

/-- The window is what the members after the reference made of the interval of the reference. -/
structure WindowFolds (group : WorkingGroup) : Prop where
  windowStart : group.windowStart
    = group.episodes.tail.foldl extendStart group.reference.firstSeen
  windowEnd : group.windowEnd = group.episodes.tail.foldl extendEnd group.reference.lastSeen

theorem windowFolds_kept (policy : CorrelationPolicy) (limits : Limits) :
    WorkingGroup.Kept policy limits WindowFolds where
  opened _ := ⟨rfl, rfl⟩
  compared group episode h := by
    obtain ⟨code, detail, -, hcompare⟩ := group.compare_cases policy limits episode
    rw [hcompare]
    split
    · have htail : (group.episodes ++ [episode]).tail = group.episodes.tail ++ [episode] :=
        List.tail_append_of_ne_nil group.opened
      constructor
      · show extendStart group.windowStart episode = _
        rw [WorkingGroup.reference_take, WorkingGroup.reference_record, h.windowStart]
        show _ = (group.episodes ++ [episode]).tail.foldl extendStart _
        rw [htail, List.foldl_append]
        rfl
      · show extendEnd group.windowEnd episode = _
        rw [WorkingGroup.reference_take, WorkingGroup.reference_record, h.windowEnd]
        show _ = (group.episodes ++ [episode]).tail.foldl extendEnd _
        rw [htail, List.foldl_append]
        rfl
    · exact ⟨h.windowStart, h.windowEnd⟩

/-- A start that is not zero stays while the members do not come earlier. -/
theorem foldl_extendStart {start : Timestamp} {rest : List Episode}
    (hstart : start.isZero = false) (h : ∀ e ∈ rest, start ≤ e.firstSeen) :
    rest.foldl extendStart start = start := by
  induction rest with
  | nil => rfl
  | cons e rest ih =>
      obtain ⟨he, hrest⟩ := List.forall_mem_cons.mp h
      have hkeep : extendStart start e = start := by
        rw [extendStart, if_neg]
        simp [hstart, not_lt.mpr he]
      rw [List.foldl_cons, hkeep]
      exact ih hrest

theorem Timestamp.isZero_iff {t : Timestamp} : t.isZero = true ↔ t = Timestamp.zero := by
  cases t
  simp [Timestamp.isZero, Timestamp.zero]

/-- Of members in the order they were first seen the first one sets the start, unless it was first
seen at zero and a later one was not. -/
theorem foldl_extendStart_iff {reference : Episode} {rest : List Episode}
    (hsorted : (reference :: rest).Pairwise fun a b => a.firstSeen ≤ b.firstSeen) :
    rest.foldl extendStart reference.firstSeen = reference.firstSeen ↔
      ∀ e ∈ rest, reference.firstSeen.isZero = true → e.firstSeen.isZero = true := by
  obtain ⟨hfirst, hrest⟩ := List.pairwise_cons.mp hsorted
  cases hzero : reference.firstSeen.isZero with
  | false => simp [foldl_extendStart hzero hfirst]
  | true =>
      induction rest with
      | nil => simp
      | cons e rest ih =>
          obtain ⟨hlater, hpairs⟩ := List.pairwise_cons.mp hrest
          have hmove : extendStart reference.firstSeen e = e.firstSeen := by
            rw [extendStart, if_pos (Or.inr hzero)]
          rw [List.foldl_cons, hmove]
          cases he : e.firstSeen.isZero with
          | true =>
              have hsame : e.firstSeen = reference.firstSeen :=
                (Timestamp.isZero_iff.mp he).trans (Timestamp.isZero_iff.mp hzero).symm
              have hskip : (reference :: rest).Pairwise fun a b => a.firstSeen ≤ b.firstSeen :=
                List.pairwise_cons.mpr ⟨fun b hb => hfirst b (List.mem_cons_of_mem _ hb), hpairs⟩
              rw [hsame, ih hskip (List.pairwise_cons.mp hskip).1 hpairs]
              simp [he]
          | false =>
              -- The start moves to this member and stays there.
              rw [foldl_extendStart he hlater]
              constructor
              · intro hsame
                rw [hsame, hzero] at he
                cases he
              · intro hall
                have hbad := hall e List.mem_cons_self rfl
                rw [he] at hbad
                cases hbad

namespace WorkingGroup

variable {group : WorkingGroup}

theorem isGreatest_windowEnd (h : WindowFolds group) :
    IsGreatest {t | ∃ m ∈ group.episodes, m.lastSeen = t} group.windowEnd := by
  have hbest := foldl_best id Episode.lastSeen group.episodes.tail group.reference.lastSeen
  obtain ⟨hlast, hfirst, hall⟩ := hbest
  rw [h.windowEnd, group.episodes_eq_cons]
  refine ⟨?_, ?_⟩
  · rcases hlast with hlast | ⟨m, hm, hlast⟩
    · exact ⟨group.reference, List.mem_cons_self, hlast.symm⟩
    · exact ⟨m, List.mem_cons_of_mem _ hm, hlast⟩
  · rintro t ⟨m, hm, rfl⟩
    rcases List.mem_cons.mp hm with rfl | hm
    · exact hfirst
    · exact hall m hm

theorem isGreatest_peakSeverity (group : WorkingGroup) :
    IsGreatest {s | ∃ m ∈ group.episodes, toUnderlying m.peakSeverity = s}
      (toUnderlying group.peakSeverity) := by
  obtain ⟨hlast, -, hall⟩ :=
    foldl_best toUnderlying Episode.peakSeverity group.episodes Severity.none
  refine ⟨?_, ?_⟩
  · rcases hlast with hnone | ⟨m, hm, hlast⟩
    · -- No member is above the least severity, so the reference has it.
      have hreference := hall group.reference (List.head_mem group.opened)
      refine ⟨group.reference, List.head_mem group.opened, ?_⟩
      exact le_antisymm hreference (by rw [peakSeverity, hnone]; exact UInt8.zero_le)
    · exact ⟨m, hm, congrArg toUnderlying hlast⟩
  · rintro s ⟨m, hm, rfl⟩
    exact hall m hm

theorem mem_sources_iff {s : SourceId} :
    s ∈ group.sources ↔ ∃ m ∈ group.episodes, s ∈ m.sources :=
  (OrdMap.mem_values_ofValues_iff EntityId.name EntityId.name_injective).trans List.mem_flatMap

theorem sources_ascending (group : WorkingGroup) : group.sources.Pairwise (· < ·) :=
  OrdMap.pairwise_values_ofValues EntityId.name _

/-- The returned window is the hull exactly when the start was not moved off zero. -/
theorem hull_iff_formed (h : WindowFolds group)
    (hsorted : group.episodes.Pairwise fun a b => a.firstSeen ≤ b.firstSeen) :
    Hull group.result group.episodes ↔ FirstFit.Formed EpochSafe group.episodes := by
  have hcons := hsorted
  rw [group.episodes_eq_cons] at hcons
  -- The episodes come in the order of their starts, so the reference has the least one.
  have hleast : IsLeast {t | ∃ m ∈ group.episodes, m.firstSeen = t} group.reference.firstSeen := by
    rw [group.episodes_eq_cons]
    refine ⟨⟨_, List.mem_cons_self, rfl⟩, ?_⟩
    rintro t ⟨m, hm, rfl⟩
    rcases List.mem_cons.mp hm with rfl | hm
    · exact le_refl _
    · exact (List.pairwise_cons.mp hcons).1 m hm
  -- Only the start can go wrong: its fold takes a zero for a start that is not set.
  have hformed : FirstFit.Formed EpochSafe group.episodes ↔
      group.windowStart = group.reference.firstSeen := by
    rw [h.windowStart, foldl_extendStart_iff hcons]
    conv_lhs => rw [group.episodes_eq_cons]
    exact FirstFit.formed_head_iff
  rw [hformed]
  constructor
  · intro hhull
    exact hhull.windowStart.unique hleast
  · intro hstart
    exact {
      windowStart := by
        show IsLeast _ group.windowStart
        rw [hstart]
        exact hleast
      windowEnd := isGreatest_windowEnd h
      peak := isGreatest_peakSeverity group
      ascending := sources_ascending group
      sources := fun _ => mem_sources_iff }

end WorkingGroup

theorem MadeFrom.hull_iff {ordered held : List Episode} {g : CorrelationGroup}
    (h : MadeFrom ordered policy limits token g held)
    (hsorted : ordered.Pairwise fun a b => placementKey a ≤ placementKey b) :
    FirstFit.Formed EpochSafe held ↔ Hull g held := by
  have hfirst := h.pairwise_firstSeen hsorted
  obtain ⟨groups, hgroups, w, hw, rfl, rfl⟩ := h
  refine (WorkingGroup.hull_iff_formed ?_ ?_).symm
  · exact (placeEpisodes_spec hgroups).2 _ (windowFolds_kept policy limits) w hw
  · exact hfirst

/-- Of episodes in the order `correlate` sorts them into, every returned group has the window, the
peak and the sources of its members exactly when no group whose reference was first seen at zero
gets an episode first seen later. -/
theorem hulls_iff {ordered : List Episode} {returned : List CorrelationGroup}
    (h : correlateOrdered ordered policy limits token = .ok returned)
    (hsorted : ordered.Pairwise fun a b => placementKey a ≤ placementKey b) :
    (∀ g ∈ returned, ∀ held, MadeFrom ordered policy limits token g held → Hull g held) ↔
    Guarded (FirstFit.step (FirstFit.strict (groupAccepts policy limits) EpochSafe)
        (groupBound policy limits))
      (FirstFit.Picks (groupAccepts policy limits) EpochSafe) [] ordered :=
  made_iff_guarded h fun _ _ hmade => hmade.hull_iff hsorted

theorem oneTenant_hulls : ∃ returned, correlateOrdered oneTenant {} {} .never = .ok returned ∧
    ∀ g ∈ returned, ∀ held, MadeFrom oneTenant {} {} .never g held → Hull g held := by
  obtain ⟨groups, hgroups⟩ := placeEpisodes_never oneTenant {} {}
  have hreturned := correlateOrdered_of_placeEpisodes hgroups
  exact ⟨_, hreturned, (hulls_iff hreturned (by decide +kernel)).mpr
    (FirstFit.guarded_pair (by decide +kernel))⟩

/-- An episode first seen at zero, and one first seen five seconds later. -/
def epochReference : List Episode := [episodeSeen 1 "" 0, episodeSeen 2 "" 5000000000]

/-- The window starts with the second episode. -/
theorem epochReference_outside_window :
    ∃ g held, correlate epochReference {} {} .never = .ok [g] ∧
      MadeFrom epochReference {} {} .never g held ∧ ¬ Hull g held := by
  obtain ⟨g, hg, hmade⟩ := @correlate_of_placement {} {} epochReference (by decide +kernel)
    (by decide +kernel)
  refine ⟨g, epochReference, hg, hmade, ?_⟩
  rw [← hmade.hull_iff (by decide +kernel)]
  intro hformed
  have hsafe := hformed.2 [episodeSeen 1 "" 0] (episodeSeen 2 "" 5000000000) [] rfl (by simp)
  revert hsafe
  decide +kernel

end CongestionObservatory
