import CongestionObservatory.Lib.Room
import CongestionObservatory.Proofs.Episode.Lifecycle
import CongestionObservatory.Proofs.Evidence.Provenance
import CongestionObservatory.Proofs.Evidence.Representation
import CongestionObservatory.Runtime.Runtime

/-!
# `CongestionObservatory.Proofs.Runtime.Restore`: the two loops of a load

`load` restores the episodes of a snapshot one by one, and then its evidence. This module says in
one formula when each loop gets to its end, and what it leaves.

Restoring an episode keeps the copy with the higher revision, and the new one when they are equal.
That choice is associative (`Episode.newer_assoc`), so a whole loop is one choice between the live
episode and the latest copy in the snapshot (`find?_restoreAll`), and a second loop over the same
episodes changes nothing (`restoreAll_again`). `Restorable` and `Recoverable` say when the loops
succeed. A record is never recovered twice into the same place: each admission takes a new insertion
number (`recoverAll_cases`).
-/

set_option autoImplicit false

namespace CongestionObservatory

open Lib

/-! ### The newer of two copies -/

namespace Episode

/-- The copy that survives a restore: the known one only when its revision is higher. -/
def newer (known e : Episode) : Episode := if known.revision > e.revision then known else e

theorem newer_assoc (a b c : Episode) : newer (newer a b) c = newer a (newer b c) := by
  unfold newer
  by_cases hab : a.revision > b.revision
  · by_cases hbc : b.revision > c.revision
    · have hac : a.revision > c.revision := UInt64.lt_trans hbc hab
      simp [hab, hbc, hac]
    · simp [hab, hbc]
  · by_cases hbc : b.revision > c.revision
    · simp [hab, hbc]
    · have hac : ¬ a.revision > c.revision := by
        rw [gt_iff_lt, UInt64.not_lt] at hab hbc ⊢
        exact UInt64.le_trans hab hbc
      simp [hab, hbc, hac]

instance : Std.Associative newer := ⟨newer_assoc⟩

@[simp] theorem newer_self (e : Episode) : newer e e = e := by
  simp [newer]

theorem newer_eq_known_iff {known e : Episode} :
    newer known e = known ↔ e.revision < known.revision ∨ e = known := by
  unfold newer
  split
  · rename_i hlt
    exact iff_of_true rfl (Or.inl hlt)
  · rename_i hle
    refine ⟨Or.inr, fun h => h.resolve_left hle⟩

/-- The latest copy of an episode in a list: the last one of the highest revision. -/
def latest : List Episode → Option Episode
  | [] => none
  | e :: rest => some (rest.foldl newer e)

/-- What is left of a known episode and a list of copies. -/
def settle (known : Option Episode) (copies : List Episode) : Option Episode :=
  match known, latest copies with
  | known, none => known
  | none, some e => some e
  | some known, some e => some (newer known e)

theorem latest_cons (e : Episode) (rest : List Episode) :
    latest (e :: rest) = settle (some e) rest := by
  cases rest with
  | nil => rfl
  | cons e' rest =>
      show some (rest.foldl newer (newer e e')) = some (newer e (rest.foldl newer e'))
      rw [List.foldl_assoc]

/-- The copies are taken in one by one. -/
theorem settle_cons (known : Option Episode) (e : Episode) (rest : List Episode) :
    settle known (e :: rest) = settle (settle known [e]) rest := by
  unfold settle
  rw [latest_cons]
  unfold settle
  cases known with
  | none =>
      cases hlatest : latest rest with
      | none => rfl
      | some l => rfl
  | some k =>
      cases hlatest : latest rest with
      | none => rfl
      | some l => simp [latest, newer_assoc]

/-- A second pass over the same copies changes nothing. -/
theorem settle_settle (known : Option Episode) (copies : List Episode) :
    settle (settle known copies) copies = settle known copies := by
  unfold settle
  cases latest copies with
  | none => rfl
  | some l =>
      cases known with
      | none => simp
      | some k => simp [newer_assoc]

end Episode

/-! ### The episodes -/

namespace EpisodeRegistry

variable {r : EpisodeRegistry}

/-- The registry does not take the episode: it has no identity, or it is new and there is no room
for it. -/
def Refuses (r : EpisodeRegistry) (e : Episode) : Prop :=
  e.id.valid = false ∨ ¬ r.episodes.Takes r.limits.maxEpisodes e.id

/-- The copies of one episode in a list. -/
def copiesOf (id : EpisodeId) (episodes : List Episode) : List Episode :=
  episodes.filter fun e => e.id = id

/-- What one restore does: refused with an error that ends the loop, or taken, or skipped as the
older copy. -/
theorem restore_outcome (r : EpisodeRegistry) (e : Episode) :
    (∃ err, r.Refuses e ∧ r.restore e = (.error err, r) ∧ err.code ≠ .conflict) ∨
    (¬ r.Refuses e ∧ ∃ status r', r.restore e = (status, r') ∧
      (∀ err, status = .error err → err.code = .conflict) ∧ r'.limits = r.limits ∧
      OrdMap.Learns r.episodes r'.episodes e.id ∧
      ∀ id, r'.episodes.find? id
        = Episode.settle (r.episodes.find? id) (copiesOf id [e])) := by
  have hother : ∀ id, id ≠ e.id → copiesOf id [e] = [] := by
    intro id hne
    simp [copiesOf, Ne.symm hne]
  have hown : copiesOf e.id [e] = [e] := by simp [copiesOf]
  unfold restore Refuses OrdMap.Takes
  cases hvalid : e.id.valid with
  | false => exact Or.inl ⟨_, Or.inl rfl, rfl, by decide⟩
  | true =>
      cases hfind : r.episodes.find? e.id with
      | some known =>
          right
          refine ⟨by simp, ?_⟩
          simp only [Bool.not_true, Bool.false_eq_true, if_false]
          have hknown : r.episodes.find? e.id ≠ none := by simp [hfind]
          split
          · -- The known copy is newer: a conflict, which the loop passes over.
            rename_i hnewer
            refine ⟨_, _, rfl, fun err herr => by cases herr; rfl, rfl,
              OrdMap.learns_self hknown, fun id => ?_⟩
            by_cases heq : id = e.id
            · rw [heq, hown, hfind]
              simp [Episode.settle, Episode.latest, Episode.newer, hnewer]
            · rw [hother id heq]
              rfl
          · -- The known copy is not newer and is replaced.
            rename_i holder
            refine ⟨_, _, rfl, fun err herr => (by cases herr), rfl,
              OrdMap.learns_insert r.episodes e.id e, fun id => ?_⟩
            show (r.episodes.insert e.id e).find? id = _
            rw [OrdMap.find?_insert]
            split
            · rename_i heq
              rw [heq, hown, hfind]
              simp [Episode.settle, Episode.latest, Episode.newer, holder]
            · rename_i heq
              rw [hother id heq]
              rfl
      | none =>
          simp only [Bool.not_true, Bool.false_eq_true, if_false]
          -- A new identity needs room.
          by_cases hfull : r.episodes.size ≥ r.limits.maxEpisodes
          · left
            rw [if_pos hfull]
            exact ⟨_, Or.inr (by simp [hfull]), rfl, by simp [makeError]⟩
          · right
            rw [if_neg hfull]
            refine ⟨by simp [not_le.mp hfull], _, _, rfl, fun err herr => (by cases herr), rfl,
              OrdMap.learns_emplace r.episodes e.id e, fun id => ?_⟩
            show (r.episodes.emplace e.id e).find? id = _
            rw [OrdMap.find?_emplace]
            split
            · rename_i heq
              rw [heq, hown, hfind]
              rfl
            · rename_i heq
              rw [hother id heq]
              rfl

/-- All episodes are taken: they have an identity, and there is room for the new ones. -/
def Restorable (r : EpisodeRegistry) (episodes : List Episode) : Prop :=
  (∀ e ∈ episodes, e.id.valid = true) ∧
    r.episodes.Room r.limits.maxEpisodes (episodes.map Episode.id)

theorem restorable_nil (r : EpisodeRegistry) : r.Restorable [] :=
  ⟨fun _ he => absurd he List.not_mem_nil, OrdMap.room_nil _ _⟩

theorem not_refuses_iff {e : Episode} : ¬ r.Refuses e ↔
    e.id.valid = true ∧ r.episodes.Takes r.limits.maxEpisodes e.id := by
  unfold Refuses
  rw [not_or, not_not, Bool.not_eq_false]

/-- The loop stops at a refused episode, and goes on with any other one. -/
theorem restoreAll_cons (r : EpisodeRegistry) (stale : Nat) (e : Episode) :
    (r.Refuses e ∧ ∃ err, ∀ rest, r.restoreAll stale (e :: rest) = (.error err, r)) ∨
    (¬ r.Refuses e ∧ ∃ (stale' : Nat) (r' : EpisodeRegistry),
      (∀ rest, r.restoreAll stale (e :: rest) = r'.restoreAll stale' rest) ∧
      r'.limits = r.limits ∧ OrdMap.Learns r.episodes r'.episodes e.id ∧
      ∀ id, r'.episodes.find? id = Episode.settle (r.episodes.find? id) (copiesOf id [e])) := by
  simp only [restoreAll]
  rcases restore_outcome r e with ⟨err, hrefuses, heq, hcode⟩ | ⟨htaken, status, r', heq, hconflict,
    hlimits, hlearns, hfind⟩
  · left
    rw [heq]
    exact ⟨hrefuses, err, fun _ => if_neg hcode⟩
  · right
    refine ⟨htaken, ?_⟩
    rw [heq]
    cases status with
    | ok u => exact ⟨stale, r', fun _ => rfl, hlimits, hlearns, hfind⟩
    | error err =>
        simp only [hconflict err rfl, if_true]
        exact ⟨stale + 1, r', fun _ => rfl, hlimits, hlearns, hfind⟩

theorem restorable_cons {r' : EpisodeRegistry} {e : Episode} (hlimits : r'.limits = r.limits)
    (hlearns : OrdMap.Learns r.episodes r'.episodes e.id) (rest : List Episode) :
    r.Restorable (e :: rest) ↔ ¬ r.Refuses e ∧ r'.Restorable rest := by
  unfold Restorable
  rw [not_refuses_iff, List.forall_mem_cons, List.map_cons, OrdMap.room_cons hlearns, hlimits]
  tauto

/-- A refused episode at the front cannot be restored with the others. -/
theorem not_restorable_of_refuses {e : Episode} (h : r.Refuses e) (rest : List Episode) :
    ¬ r.Restorable (e :: rest) := by
  intro hrestorable
  let r' : EpisodeRegistry := { r with episodes := r.episodes.insert e.id e }
  have hlimits : r'.limits = r.limits := rfl
  have hlearns : OrdMap.Learns r.episodes r'.episodes e.id := OrdMap.learns_insert r.episodes e.id e
  exact ((restorable_cons hlimits hlearns rest).mp hrestorable).1 h

/-- Where the loop ends: after all episodes, or at the first refused one. -/
theorem restoreAll_cases (r : EpisodeRegistry) (stale : Nat) (episodes : List Episode) :
    (r.Restorable episodes ∧ ∃ n, (r.restoreAll stale episodes).1 = .ok n) ∨
    (¬ r.Restorable episodes ∧ (∃ err, (r.restoreAll stale episodes).1 = .error err) ∧
      ∃ before e after, episodes = before ++ e :: after ∧ r.Restorable before ∧
        (r.restoreAll stale episodes).2 = (r.restoreAll stale before).2 ∧
        (r.restoreAll stale before).2.Refuses e) := by
  induction episodes generalizing r stale with
  | nil => exact Or.inl ⟨restorable_nil r, stale, rfl⟩
  | cons e rest ih =>
      rcases restoreAll_cons r stale e with ⟨hrefuses, err, hstop⟩ | ⟨htaken, stale', r', hgo,
        hlimits, hlearns, -⟩
      · right
        refine ⟨not_restorable_of_refuses hrefuses rest, ⟨err, by rw [hstop]⟩, [], e, rest, rfl,
          restorable_nil r, ?_, hrefuses⟩
        rw [hstop]
        rfl
      · rw [hgo, restorable_cons hlimits hlearns rest]
        rcases ih r' stale' with ⟨hok, hn⟩ | ⟨hnot, herr, before, e', after, hsplit, hbefore, hsame,
          hrefuses⟩
        · exact Or.inl ⟨⟨htaken, hok⟩, hn⟩
        · right
          refine ⟨fun h => hnot h.2, herr, e :: before, e', after, by rw [hsplit]; rfl,
            (restorable_cons hlimits hlearns before).mpr ⟨htaken, hbefore⟩, ?_, ?_⟩
          · rw [hgo]
            exact hsame
          · rw [hgo]
            exact hrefuses

@[simp] theorem restoreAll_limits (r : EpisodeRegistry) (stale : Nat) (episodes : List Episode) :
    (r.restoreAll stale episodes).2.limits = r.limits := by
  induction episodes generalizing r stale with
  | nil => rfl
  | cons e rest ih =>
      rcases restoreAll_cons r stale e with ⟨-, err, hstop⟩ | ⟨-, stale', r', hgo, hlimits, -⟩
      · rw [hstop]
      · rw [hgo, ih, hlimits]

/-- A loop whose first part gets to its end goes on with the rest. -/
theorem restoreAll_append {before : List Episode} (h : r.Restorable before) (stale : Nat)
    (rest : List Episode) : ∃ stale', r.restoreAll stale (before ++ rest)
      = (r.restoreAll stale before).2.restoreAll stale' rest := by
  induction before generalizing r stale with
  | nil => exact ⟨stale, rfl⟩
  | cons e before ih =>
      rcases restoreAll_cons r stale e with ⟨hrefuses, -⟩ | ⟨-, stale', r', hgo, hlimits, hlearns, -⟩
      · exact absurd h (not_restorable_of_refuses hrefuses before)
      · rw [List.cons_append, hgo, hgo]
        exact ih ((restorable_cons hlimits hlearns before).mp h).2 stale'

/-- What a loop that gets to its end leaves under each identity. -/
theorem find?_restoreAll {episodes : List Episode} (h : r.Restorable episodes) (stale : Nat)
    (id : EpisodeId) : (r.restoreAll stale episodes).2.episodes.find? id
      = Episode.settle (r.episodes.find? id) (copiesOf id episodes) := by
  induction episodes generalizing r stale with
  | nil => cases hfind : r.episodes.find? id <;> simp [restoreAll, copiesOf, Episode.settle,
      Episode.latest, hfind]
  | cons e rest ih =>
      rcases restoreAll_cons r stale e with ⟨hrefuses, -⟩ | ⟨-, stale', r', hgo, hlimits, hlearns,
        hfind⟩
      · exact absurd h (not_restorable_of_refuses hrefuses rest)
      · rw [hgo, ih ((restorable_cons hlimits hlearns rest).mp h).2, hfind]
        by_cases heq : e.id = id
        · have hcopies : copiesOf id (e :: rest) = e :: copiesOf id rest := by simp [copiesOf, heq]
          have hone : copiesOf id [e] = [e] := by simp [copiesOf, heq]
          rw [hcopies, hone, ← Episode.settle_cons]
        · have hcopies : copiesOf id (e :: rest) = copiesOf id rest := by simp [copiesOf, heq]
          have hone : copiesOf id [e] = [] := by simp [copiesOf, heq]
          rw [hcopies, hone]
          rfl

/-- A second loop over the same episodes changes nothing. -/
theorem restoreAll_again {episodes : List Episode} (h : r.Restorable episodes) (stale stale' : Nat)
    (hagain : (r.restoreAll stale episodes).2.Restorable episodes) :
    ((r.restoreAll stale episodes).2.restoreAll stale' episodes).2.episodes
      = (r.restoreAll stale episodes).2.episodes := by
  refine OrdMap.ext fun id => ?_
  rw [find?_restoreAll hagain, find?_restoreAll h, Episode.settle_settle]

/-- The live registry already holds what the episodes would restore: for each of them the latest
copy is older than the live one, or is the live one. -/
def AlreadyHolds (r : EpisodeRegistry) (episodes : List Episode) : Prop :=
  (∀ e ∈ episodes, e.id.valid = true) ∧
    ∀ id e, Episode.latest (copiesOf id episodes) = some e →
      ∃ known, r.episodes.find? id = some known ∧ (e.revision < known.revision ∨ e = known)

/-- A registry that holds the episodes already has room for them. -/
theorem AlreadyHolds.restorable {episodes : List Episode} (h : r.AlreadyHolds episodes) :
    r.Restorable episodes := by
  refine ⟨h.1, Or.inl ?_⟩
  refine Finset.eq_empty_of_forall_notMem fun id hid => ?_
  obtain ⟨hmem, hnew⟩ := Finset.mem_filter.mp hid
  obtain ⟨e, he, rfl⟩ := List.mem_map.mp (List.mem_toFinset.mp hmem)
  have hcopies : copiesOf e.id episodes ≠ [] :=
    List.ne_nil_of_mem (List.mem_filter.mpr ⟨he, by simp⟩)
  obtain ⟨first, rest, hsplit⟩ := List.exists_cons_of_ne_nil hcopies
  obtain ⟨known, hknown, -⟩ := h.2 e.id _ (by rw [hsplit]; rfl)
  rw [hnew] at hknown
  cases hknown

/-- A loop that gets to its end leaves the registry as it was exactly when it held the episodes
already. -/
theorem restoreAll_unchanged_iff {episodes : List Episode} (h : r.Restorable episodes)
    (stale : Nat) : (r.restoreAll stale episodes).2.episodes = r.episodes ↔
      r.AlreadyHolds episodes := by
  constructor
  · intro hsame
    refine ⟨h.1, fun id e he => ?_⟩
    have hfind := find?_restoreAll h stale id
    rw [hsame] at hfind
    unfold Episode.settle at hfind
    rw [he] at hfind
    cases hknown : r.episodes.find? id with
    | none =>
        rw [hknown] at hfind
        cases hfind
    | some known =>
        rw [hknown] at hfind
        exact ⟨known, rfl, Episode.newer_eq_known_iff.mp (Option.some.inj hfind).symm⟩
  · intro hholds
    refine OrdMap.ext fun id => ?_
    rw [find?_restoreAll h]
    unfold Episode.settle
    cases hlatest : Episode.latest (copiesOf id episodes) with
    | none => cases r.episodes.find? id <;> rfl
    | some e =>
        obtain ⟨known, hknown, hle⟩ := hholds.2 id e hlatest
        rw [hknown]
        exact congrArg some (Episode.newer_eq_known_iff.mpr hle)

end EpisodeRegistry

/-! ### The evidence -/

namespace EvidenceStore

variable {s : EvidenceStore}

theorem sourceRoom_iff {key : Name} :
    s.SourceRoom key ↔ s.sources.Takes s.limits.maxSources key := by
  unfold SourceRoom OrdMap.Takes OrdMap.contains
  rw [Option.isSome_iff_ne_none]

/-- The record is refused before anything is written: it is not valid, there is no room for its
source, or its subject has no canonical name and its source is known. -/
def RefusesCleanly (s : EvidenceStore) (record : EvidenceRecord) : Prop :=
  validateEvidence record s.limits ≠ .ok () ∨
    ¬ s.sources.Takes s.limits.maxSources record.provenance.source.name ∨
    ((Name.unchecked record.subject.str).valid = false ∧
      s.sources.find? record.provenance.source.name ≠ none)

/-- The record is refused. A new source is known by then when only the name of the subject is at
fault. -/
def Refuses (s : EvidenceStore) (record : EvidenceRecord) : Prop :=
  validateEvidence record s.limits ≠ .ok () ∨
    ¬ s.sources.Takes s.limits.maxSources record.provenance.source.name ∨
    (Name.unchecked record.subject.str).valid = false

/-- An admission fails exactly when the subject has no canonical name. -/
theorem admitLocked_isOk_iff (record : EvidenceRecord) (recovered : Bool) :
    (∃ out, s.admitLocked record recovered = .ok out) ↔
      (Name.unchecked record.subject.str).valid = true := by
  unfold admitLocked
  dsimp only
  cases (Name.unchecked record.subject.str).valid <;> simp

@[simp] theorem evictOldest_nextInsertionIndex (s : EvidenceStore) :
    s.evictOldest.2.nextInsertionIndex = s.nextInsertionIndex := by
  unfold evictOldest
  split
  · split <;> rfl
  · rfl

@[simp] theorem evictFromSubject_nextInsertionIndex (s : EvidenceStore) (key : Name) :
    (s.evictFromSubject key).2.nextInsertionIndex = s.nextInsertionIndex := by
  unfold evictFromSubject
  split
  · split <;> rfl
  · rfl

/-- What recovering one record does: it is refused with an error that ends the loop, or it takes the
next insertion number. -/
theorem ingestRecovered_outcome (s : EvidenceStore) (record : EvidenceRecord) :
    (s.Refuses record ∧ ∃ err s', s.ingestRecovered record = (.error err, s') ∧
      s'.records = s.records ∧ (s'.sources = s.sources ↔ s.RefusesCleanly record)) ∨
    (¬ s.Refuses record ∧ ∃ outcome s', s.ingestRecovered record = (.ok outcome, s') ∧
      s'.limits = s.limits ∧ s'.nextInsertionIndex = s.nextInsertionIndex + 1 ∧
      OrdMap.Learns s.sources s'.sources record.provenance.source.name ∧
      ∃ r ∈ s'.records, r.insertionIndex = s.nextInsertionIndex) := by
  have hcounted : s.countInvalid.records = s.records ∧ s.countInvalid.sources = s.sources :=
    ⟨rfl, rfl⟩
  unfold ingestRecovered
  cases hvalid : validateEvidence record s.limits with
  | error e =>
      refine Or.inl ⟨Or.inl (by simp [hvalid]), _, _, rfl, hcounted.1, ?_⟩
      exact iff_of_true hcounted.2 (Or.inl (by simp [hvalid]))
  | ok u =>
      dsimp only
      by_cases hroom : s.SourceRoom record.provenance.source.name
      · have hfull : ¬ (!s.sources.contains record.provenance.source.name
            && decide (s.sources.size ≥ s.limits.maxSources)) = true := by
          rcases hroom with h | h
          · simp [h]
          · simp [h]
        have htakes := sourceRoom_iff.mp hroom
        rw [if_neg hfull]
        cases hadmitted : (s.knowSource record.provenance.source).admitLocked record true with
        | error e =>
            -- The source is known by now, so this refusal has changed the table of sources where
            -- it was new.
            have hname : (Name.unchecked record.subject.str).valid = false := by
              by_contra hname
              obtain ⟨out, hout⟩ := (admitLocked_isOk_iff record true).mpr
                (Bool.not_eq_false _ ▸ hname)
              rw [hadmitted] at hout
              cases hout
            refine Or.inl ⟨Or.inr (Or.inr hname), e, _, rfl, rfl, ?_⟩
            rw [knowSource_sources_eq_iff]
            unfold RefusesCleanly
            simp [hvalid, hname, htakes]
        | ok out =>
            obtain ⟨evicted, s'⟩ := out
            have hname := (admitLocked_isOk_iff record true).mp ⟨_, hadmitted⟩
            refine Or.inr ⟨by simp [Refuses, hvalid, htakes, hname], _, s', rfl,
              (admitLocked_limits hadmitted).trans rfl, ?_, ?_, _, stamp_mem_records hadmitted, rfl⟩
            · obtain ⟨-, -, rfl⟩ := admitLocked_ok hadmitted
              simp [append, makeRoom, knowSource]
            · rw [admitLocked_sources hadmitted]
              exact OrdMap.learns_emplace s.sources _ _
      · have hfull : (!s.sources.contains record.provenance.source.name
            && decide (s.sources.size ≥ s.limits.maxSources)) = true := by
          unfold SourceRoom at hroom
          rw [not_or, not_lt] at hroom
          simp [hroom.1, hroom.2]
        have htakes := mt sourceRoom_iff.mpr hroom
        rw [if_pos hfull]
        refine Or.inl ⟨Or.inr (Or.inl htakes), _, _, rfl, hcounted.1, ?_⟩
        exact iff_of_true hcounted.2 (Or.inr (Or.inl htakes))

/-- All records are recovered: they are valid, have canonical subjects, and there is room for the
new sources. -/
def Recoverable (s : EvidenceStore) (records : List EvidenceRecord) : Prop :=
  (∀ record ∈ records, validateEvidence record s.limits = .ok () ∧
      (Name.unchecked record.subject.str).valid = true) ∧
    s.sources.Room s.limits.maxSources (records.map fun record => record.provenance.source.name)

theorem recoverable_cons {s' : EvidenceStore} {record : EvidenceRecord}
    (hlimits : s'.limits = s.limits)
    (hlearns : OrdMap.Learns s.sources s'.sources record.provenance.source.name)
    (rest : List EvidenceRecord) :
    s.Recoverable (record :: rest) ↔ ¬ s.Refuses record ∧ s'.Recoverable rest := by
  unfold Recoverable Refuses
  rw [List.forall_mem_cons, List.map_cons, OrdMap.room_cons hlearns, hlimits, not_or, not_or,
    not_not, not_not, Bool.not_eq_false]
  tauto

/-- The loop gets to its end exactly when all records can be recovered. -/
theorem recoverAll_ok_iff (s : EvidenceStore) (records : List EvidenceRecord) :
    (s.recoverAll records).1 = .ok () ↔ s.Recoverable records := by
  induction records generalizing s with
  | nil => exact iff_of_true rfl ⟨fun r hr => absurd hr List.not_mem_nil, OrdMap.room_nil _ _⟩
  | cons record rest ih =>
      rw [recoverAll]
      rcases ingestRecovered_outcome s record with ⟨hrefuses, err, s', heq, -⟩ | ⟨htaken, outcome,
        s', heq, hlimits, -, hlearns, -⟩
      · rw [heq]
        let s₁ : EvidenceStore := s.knowSource record.provenance.source
        have hlimits : s₁.limits = s.limits := rfl
        have hlearns : OrdMap.Learns s.sources s₁.sources record.provenance.source.name :=
          OrdMap.learns_emplace s.sources _ _
        rw [recoverable_cons hlimits hlearns]
        exact iff_of_false (by simp) fun h => h.1 hrefuses
      · rw [heq, recoverable_cons hlimits hlearns, ← ih s']
        exact ⟨fun h => ⟨htaken, h⟩, And.right⟩

/-- Once a record is recovered, the store holds a record with a new insertion number. -/
theorem recoverAll_grows {record : EvidenceRecord} (h : ¬ s.Refuses record)
    (rest : List EvidenceRecord) :
    ∃ r ∈ (s.recoverAll (record :: rest)).2.records, s.nextInsertionIndex ≤ r.insertionIndex := by
  induction rest generalizing s record with
  | nil =>
      rcases ingestRecovered_outcome s record with ⟨hrefuses, -⟩ | ⟨-, outcome, s', heq, -, -, -, r,
        hr, hindex⟩
      · exact absurd hrefuses h
      · simp only [recoverAll, heq]
        exact ⟨r, hr, hindex.ge⟩
  | cons next rest ih =>
      rcases ingestRecovered_outcome s record with ⟨hrefuses, -⟩ | ⟨-, outcome, s', heq, -, hnext, -,
        r, hr, hindex⟩
      · exact absurd hrefuses h
      · rw [recoverAll, heq]
        show ∃ r ∈ (s'.recoverAll (next :: rest)).2.records, _
        by_cases hrefuses : s'.Refuses next
        · -- The loop stops here, with the records it has.
          rcases ingestRecovered_outcome s' next with ⟨-, err, s'', heq', hsame, -⟩ | ⟨htaken, -⟩
          · simp only [recoverAll, heq']
            rw [hsame]
            exact ⟨r, hr, hindex.ge⟩
          · exact absurd hrefuses htaken
        · obtain ⟨r', hr', hindex'⟩ := ih hrefuses
          exact ⟨r', hr', by omega⟩

/-- At a refused record the loop stops with the store as that record left it. -/
theorem recoverAll_stops {record : EvidenceRecord} (h : s.Refuses record)
    (rest : List EvidenceRecord) :
    ∃ err s', s.recoverAll (record :: rest) = (.error err, s') ∧ s'.records = s.records ∧
      (s'.sources = s.sources ↔ s.RefusesCleanly record) := by
  rcases ingestRecovered_outcome s record with ⟨-, err, s', heq, hrest⟩ | ⟨htaken, -⟩
  · rw [recoverAll, heq]
    exact ⟨err, s', rfl, hrest⟩
  · exact absurd h htaken

end EvidenceStore

end CongestionObservatory
