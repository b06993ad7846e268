import CongestionObservatory.Proofs.Episode.Fields

/-!
# `CongestionObservatory.Proofs.Episode.Windows`: the windows of `advance`

`windowLaw` is the rule `advance` is meant to apply, in exact integers. `FollowsWindows` says that
`advance` applies it to one episode: the state after the call is the one the rule gives, an episode
for which the rule gives none stays as it is, and the update list reports exactly the episodes
that move.

`advance` subtracts two timestamps and doubles a duration in 64 bits. `due_eq_windowLaw_iff` says
when the two wraps make no difference. An idle time of `2 ^ 63` nanoseconds or more wraps to a
negative one, and the episode is passed over. A doubled window of `2 ^ 63` or more wraps to a
negative one, and a quiescent episode is resolved at once. `timed_windows_iff` is the result for
every registered episode.

The updates carry identities, so the proof needs that an episode is registered under its own
identity, which `Keyed` says of every reached registry.
-/

set_option autoImplicit false

namespace CongestionObservatory

open Lib

namespace EpisodeRegistry

variable {r : EpisodeRegistry} {id : EpisodeId} {e e' : Episode} {call : Call} {now : Timestamp}
  {policy : EpisodePolicy} {token : CancellationToken}

/-! ### The rule -/

/-- The state an episode moves to after being idle for the given time, if it moves. -/
def windowLaw (idle resolveAfter expireAfter : Int) : EpisodeState → Option EpisodeState
  | .open => if idle > resolveAfter then some .quiescent else none
  | .quiescent =>
    if idle > 2 * resolveAfter then some .resolved
    else if idle > expireAfter then some .expired
    else none
  | .resolved => if idle > expireAfter then some .expired else none
  | .expired => none
  | .undeclared _ _ => none

/-- The time since the episode was last seen, as an exact number. -/
def exactIdle (e : Episode) (now : Timestamp) : Int :=
  now.nanos.toInt - e.lastSeen.nanos.toInt

/-- The state the rule gives for an episode. -/
def lawFor (e : Episode) (now : Timestamp) (policy : EpisodePolicy) : Option EpisodeState :=
  windowLaw (exactIdle e now) policy.resolveAfter.nanos.toInt policy.expireAfter.nanos.toInt e.state

/-- Neither the idle time nor the doubled window leaves the 64 bits where the state reads it. -/
structure WindowsFit (e : Episode) (now : Timestamp) (policy : EpisodePolicy) : Prop where
  idle : e.state = .open ∨ e.state = .quiescent ∨ e.state = .resolved →
    exactIdle e now < 2 ^ 63
  doubled : e.state = .quiescent → policy.resolveAfter.nanos.toInt < 2 ^ 62

/-- The idle time as computed: the exact one, or a negative number. -/
theorem idle_toInt (hseen : e.lastSeen ≤ now) :
    0 ≤ exactIdle e now ∧ (now - e.lastSeen).nanos.toInt
      = if exactIdle e now < 2 ^ 63 then exactIdle e now else exactIdle e now - 2 ^ 64 := by
  have hwrapped : (now - e.lastSeen).nanos.toInt = (exactIdle e now).bmod (2 ^ 64) :=
    Int64.toInt_sub _ _
  have hlow := e.lastSeen.nanos.le_toInt
  have hhigh := now.nanos.toInt_lt
  rw [Timestamp.le_iff] at hseen
  rw [hwrapped, Int.bmod_def]
  unfold exactIdle
  refine ⟨by omega, ?_⟩
  split <;> omega

/-- The doubled window as computed: the exact one, or a negative number. -/
theorem doubled_toInt {window : Duration} (hwindow : 0 ≤ window.nanos.toInt) :
    (window.nanos * 2).toInt = if window.nanos.toInt < 2 ^ 62 then 2 * window.nanos.toInt
      else 2 * window.nanos.toInt - 2 ^ 64 := by
  have hwrapped : (window.nanos * 2).toInt = (window.nanos.toInt * 2).bmod (2 ^ 64) :=
    Int64.toInt_mul _ _
  have hhigh := window.nanos.toInt_lt
  rw [hwrapped, Int.bmod_def]
  split <;> omega

/-- The idle time as computed is negative exactly when it wraps. -/
theorem idle_isNegative_iff (hseen : e.lastSeen ≤ now) :
    (now - e.lastSeen).isNegative = true ↔ 2 ^ 63 ≤ exactIdle e now := by
  have hlt : (now - e.lastSeen).isNegative = true ↔ (now - e.lastSeen).nanos.toInt < 0 := by
    rw [Duration.isNegative, decide_eq_true_eq, Int64.lt_iff_toInt_lt, Int64.toInt_zero]
  have hupper : exactIdle e now < 2 ^ 64 := by
    have hnow := now.nanos.toInt_lt
    have hlast := e.lastSeen.nanos.le_toInt
    unfold exactIdle
    omega
  obtain ⟨hpositive, hidle⟩ := idle_toInt hseen
  rw [hlt, hidle]
  split <;> omega

/-- Where the idle time wraps, the episode is passed over. -/
theorem due_of_wrapped (hseen : e.lastSeen ≤ now) (hwrap : 2 ^ 63 ≤ exactIdle e now) :
    e.due now policy = none := by
  unfold Episode.due
  simp only
  rw [if_pos ((idle_isNegative_iff hseen).mpr hwrap)]

/-- The rule moves an episode whose idle time wraps, unless the episode is over. -/
theorem lawFor_of_wrapped (hwrap : 2 ^ 63 ≤ exactIdle e now) :
    lawFor e now policy = none ↔ WindowsFit e now policy := by
  have hresolveHigh := policy.resolveAfter.nanos.toInt_lt
  have hexpireHigh := policy.expireAfter.nanos.toInt_lt
  unfold lawFor
  cases hstate : e.state with
  | «open» =>
      refine iff_of_false ?_ fun hfit => absurd (hfit.idle (Or.inl hstate)) (by omega)
      rw [windowLaw, if_pos (by omega)]
      exact nofun
  | quiescent =>
      refine iff_of_false ?_ fun hfit => absurd (hfit.idle (Or.inr (Or.inl hstate))) (by omega)
      rw [windowLaw]
      split
      · exact nofun
      · rw [if_pos (by omega)]
        exact nofun
  | resolved =>
      refine iff_of_false ?_ fun hfit => absurd (hfit.idle (Or.inr (Or.inr hstate))) (by omega)
      rw [windowLaw, if_pos (by omega)]
      exact nofun
  | expired => exact iff_of_true rfl ⟨by simp [hstate], by simp [hstate]⟩
  | undeclared raw h => exact iff_of_true rfl ⟨by simp [hstate], by simp [hstate]⟩

/-- Where the idle time is exact, only the doubled window can wrap. -/
theorem due_eq_windowLaw_of_exact (hseen : e.lastSeen ≤ now)
    (hresolve : 0 ≤ policy.resolveAfter.nanos.toInt) (hexact : exactIdle e now < 2 ^ 63) :
    (e.due now policy).map Prod.fst = lawFor e now policy ↔ WindowsFit e now policy := by
  obtain ⟨hpositive, hidle⟩ := idle_toInt hseen
  have hdoubled := doubled_toInt hresolve
  have hresolveHigh := policy.resolveAfter.nanos.toInt_lt
  have hsign : ¬ (now - e.lastSeen).isNegative = true := fun h =>
    absurd ((idle_isNegative_iff hseen).mp h) (by omega)
  have hlater : ∀ window : Duration,
      now - e.lastSeen > window ↔ exactIdle e now > window.nanos.toInt := by
    intro window
    rw [gt_iff_lt, Duration.lt_iff, hidle, if_pos hexact]
  unfold Episode.due lawFor
  simp only [if_neg hsign, hlater]
  cases hstate : e.state with
  | «open» =>
      refine iff_of_true ?_ ⟨fun _ => hexact, by simp [hstate]⟩
      simp only [windowLaw, true_and, reduceCtorEq, false_and, if_false, or_self]
      split <;> rfl
  | quiescent =>
      simp only [windowLaw, true_and, reduceCtorEq, false_and, if_false, or_true, hdoubled]
      by_cases hfits : policy.resolveAfter.nanos.toInt < 2 ^ 62
      · rw [if_pos hfits]
        refine iff_of_true ?_ ⟨fun _ => hexact, fun _ => hfits⟩
        split
        · rfl
        · split <;> rfl
      · -- The wrapped window is negative, so the episode is resolved although it is too early.
        rw [if_neg hfits, if_pos (by omega), if_neg (by omega)]
        refine iff_of_false ?_ fun hfit => hfits (hfit.doubled hstate)
        split <;> exact nofun
  | resolved =>
      refine iff_of_true ?_ ⟨fun _ => hexact, by simp [hstate]⟩
      simp only [windowLaw, true_and, reduceCtorEq, false_and, if_false, or_false]
      split <;> rfl
  | expired =>
      refine iff_of_true ?_ ⟨by simp [hstate], by simp [hstate]⟩
      simp [windowLaw]
  | undeclared raw h =>
      refine iff_of_true ?_ ⟨by simp [hstate], by simp [hstate]⟩
      simp [windowLaw]

/-- What is due is what the rule gives exactly when nothing wraps. -/
theorem due_eq_windowLaw_iff (hseen : e.lastSeen ≤ now)
    (hresolve : 0 ≤ policy.resolveAfter.nanos.toInt) :
    (e.due now policy).map Prod.fst = lawFor e now policy ↔ WindowsFit e now policy := by
  rcases Int.lt_or_le (exactIdle e now) (2 ^ 63) with hexact | hwrap
  · exact due_eq_windowLaw_of_exact hseen hresolve hexact
  · rw [due_of_wrapped hseen hwrap, Option.map_none, eq_comm]
    exact lawFor_of_wrapped hwrap

/-! ### The reported updates -/

/-- The update `advance` reports for an episode, if it moves. -/
def reportFor (limits : Limits) (now : Timestamp) (policy : EpisodePolicy) (e : Episode) :
    Option EpisodeUpdate :=
  (e.due now policy).map fun p => updateOf (e.moveTo p.1 p.2 now limits) (advanceUpdateKind p.2)

/-- The loop of `advance` reports the entries it visits that move, in order. -/
theorem advanceLoop_updates (limits : Limits) {st : AdvanceState} (hrunning : st.cancelled = false)
    (l : List (EpisodeId × Episode)) :
    (OrdMap.mapAccumList (fun st _ e => advanceEpisode limits now policy st e) st l).1.updates
      = st.updates ++ (visited st.token l).filterMap fun entry =>
          reportFor limits now policy entry.2 := by
  -- A cancelled loop reports nothing more.
  have hcancelled : ∀ (l : List (EpisodeId × Episode)) (st : AdvanceState), st.cancelled = true →
      (OrdMap.mapAccumList (fun st _ e => advanceEpisode limits now policy st e) st l).1 = st := by
    intro l
    induction l with
    | nil => exact fun _ _ => rfl
    | cons entry rest ih =>
        intro st hst
        have hstep : advanceEpisode limits now policy st entry.2 = (st, entry.2) := by
          rw [advanceEpisode, if_pos hst]
        rw [OrdMap.mapAccumList_cons, hstep, ih st hst]
  induction l generalizing st with
  | nil =>
      unfold visited
      cases st.token.pollsLeft <;> simp [OrdMap.mapAccumList]
  | cons entry rest ih =>
      rw [OrdMap.mapAccumList_cons]
      have hvisit : ∀ token, st.token.cancelled = (false, token) →
          (advanceEpisode limits now policy st entry.2).1.updates
            = st.updates ++ (reportFor limits now policy entry.2).toList := by
        intro token hpoll
        rw [advanceEpisode, if_neg (by simp [hrunning]), hpoll, reportFor]
        cases entry.2.due now policy with
        | none => exact (List.append_nil _).symm
        | some p => rfl
      -- The poll answers `true` only when no poll is left.
      cases hpolls : st.token.pollsLeft with
      | none =>
          have hpoll : st.token.cancelled = (false, st.token) := by
            simp [CancellationToken.cancelled, hpolls]
          obtain ⟨-, htoken, hnext⟩ :=
            advanceEpisode_visit limits now policy entry.2 hrunning hpoll
          rw [ih hnext, hvisit _ hpoll, htoken, List.append_assoc]
          simp only [visited, hpolls, List.filterMap_cons]
          cases reportFor limits now policy entry.2 <;> rfl
      | some n =>
          cases n with
          | zero =>
              have hpoll : st.token.cancelled = (true, st.token) := by
                simp [CancellationToken.cancelled, hpolls]
              have hstep : advanceEpisode limits now policy st entry.2
                  = ({ st with cancelled := true }, entry.2) := by
                rw [advanceEpisode, if_neg (by simp [hrunning]), hpoll]
                rfl
              rw [hstep, hcancelled rest _ rfl]
              simp [visited, hpolls]
          | succ n =>
              have hpoll : st.token.cancelled = (false, ⟨some n⟩) := by
                simp [CancellationToken.cancelled, hpolls]
              obtain ⟨-, htoken, hnext⟩ :=
                advanceEpisode_visit limits now policy entry.2 hrunning hpoll
              rw [ih hnext, hvisit _ hpoll, htoken, List.append_assoc]
              simp only [visited, hpolls, List.take_succ_cons, List.filterMap_cons]
              cases reportFor limits now policy entry.2 <;> rfl

theorem advance_updates {updates : List EpisodeUpdate}
    (h : (r.advance now policy token).1 = .ok updates) :
    updates = (visited token r.episodes.entries).filterMap fun entry =>
      reportFor r.limits now policy entry.2 := by
  have hloop := @advanceLoop_updates now policy r.limits
    { updates := [], token := token, cancelled := false } rfl r.episodes.entries
  rw [List.nil_append] at hloop
  rw [← hloop]
  unfold advance at h
  change (if _ then (_, _) else (_, _)).1 = _ at h
  split at h
  · cases h
  · cases h
    rfl

/-! ### Episodes under their own identity -/

/-- Every episode is registered under its own identity. -/
def Keyed (r : EpisodeRegistry) : Prop := ∀ id e, r.episodes.find? id = some e → e.id = id

theorem keyed_step (h : Keyed r) (call : Call) : Keyed (r.step call).2 := by
  -- Every call but a restore writes over a known episode, or opens one under its own identity.
  have hwritten : (∀ restored, call ≠ .restore restored) → Keyed (r.step call).2 := by
    intro hcall id e' hnext
    rcases find?_step_cases hcall hnext with hknown | hwrites
    · exact h id e' hknown
    · cases hwrites with
      | opened hid hnew => exact hid.symm
      | refreshed hobserves hasserted hfind =>
          have hid := h _ _ hfind
          exact hid
      | quiesced hobserves hquiet hfind =>
          have hid := h _ _ hfind
          exact hid
      | moved hvisited hdue =>
          have hid := h _ _ (find?_of_visited hvisited)
          exact hid
  cases call with
  | observe assessment policy now => exact hwritten (by simp)
  | advance now policy token => exact hwritten (by simp)
  | restore restored =>
      intro id e' hnext
      change (r.restore restored).2.episodes.find? id = some e' at hnext
      rcases restore_cases r restored with hsame | ⟨-, hepisodes, -⟩
      · exact h id e' (hsame ▸ hnext)
      · rw [hepisodes, OrdMap.find?_insert] at hnext
        split at hnext
        · rename_i heq
          cases hnext
          exact heq.symm
        · exact h id e' hnext

theorem keyed_run (limits : Limits) (calls : List Call) :
    Keyed (run step { limits := limits } calls) :=
  run_induction step Keyed (fun id e hfind => by cases hfind) (fun r call h => keyed_step h call)
    calls

/-! ### The result -/

/-- `advance` moves the episode as the rule says and reports it exactly when it moves. -/
structure FollowsWindows (r : EpisodeRegistry) (now : Timestamp) (policy : EpisodePolicy)
    (token : CancellationToken) (id : EpisodeId) (e : Episode) : Prop where
  moves : ∀ e', (r.advance now policy token).2.episodes.find? id = some e' →
    e'.state = (lawFor e now policy).getD e.state
  keeps : lawFor e now policy = none →
    (r.advance now policy token).2.episodes.find? id = some e
  reports : ∀ updates, (r.advance now policy token).1 = .ok updates →
    ((∃ update ∈ updates, update.id = id) ↔ (lawFor e now policy).isSome = true)

/-- An episode that `advance` visits is reported exactly when it moves. -/
theorem reported_iff (hkeyed : Keyed r) (hvisited : (id, e) ∈ visited token r.episodes.entries)
    {updates : List EpisodeUpdate} (h : (r.advance now policy token).1 = .ok updates) :
    (∃ update ∈ updates, update.id = id) ↔ (e.due now policy).isSome = true := by
  rw [advance_updates h]
  constructor
  · rintro ⟨update, hupdate, hid⟩
    obtain ⟨⟨id', e'⟩, hvisited', hreport⟩ := List.mem_filterMap.mp hupdate
    obtain ⟨p, hdue, rfl⟩ := Option.map_eq_some_iff.mp hreport
    -- The update carries the identity of its episode, which is registered once.
    have hfind := find?_of_visited hvisited'
    have hsame : id' = id := (hkeyed _ _ hfind).symm.trans hid
    subst hsame
    cases hfind.symm.trans (find?_of_visited hvisited)
    simp [hdue]
  · intro hdue
    obtain ⟨p, hsome⟩ := Option.isSome_iff_exists.mp hdue
    have hid := hkeyed _ _ (find?_of_visited hvisited)
    have hreport : reportFor r.limits now policy e
        = some (updateOf (e.moveTo p.1 p.2 now r.limits) (advanceUpdateKind p.2)) := by
      rw [reportFor, hsome, Option.map_some]
    exact ⟨_, List.mem_filterMap.mpr ⟨(id, e), hvisited, hreport⟩, hid⟩

/-- What is due is always another state. -/
theorem ne_state_of_due {next : EpisodeState} (h : (e.due now policy).map Prod.fst = some next) :
    next ≠ e.state := by
  obtain ⟨⟨next', kind⟩, hdue, rfl⟩ := Option.map_eq_some_iff.mp h
  rcases due_cases hdue with ⟨hopen, rfl, -⟩ | ⟨hclosed, hnext⟩
  · rw [hopen]
    exact nofun
  · have hedge := mem_advanceEdges hdue
    rintro rfl
    simp only [advanceEdges, List.mem_cons, Prod.mk.injEq, List.not_mem_nil, or_false] at hedge
    rcases hedge with ⟨h, h'⟩ | ⟨h, h'⟩ | ⟨h, h'⟩ | ⟨h, h'⟩ <;> rw [h] at h' <;> cases h'

/-- The rule always gives another state. -/
theorem ne_state_of_law {next : EpisodeState} (h : lawFor e now policy = some next) :
    next ≠ e.state := by
  rintro rfl
  revert h
  unfold lawFor windowLaw
  cases e.state <;> simp only <;> repeat' split
  all_goals exact nofun

theorem advanced_state (limits : Limits) :
    (advanced limits now policy e).state = ((e.due now policy).map Prod.fst).getD e.state := by
  unfold advanced
  cases e.due now policy with
  | none => rfl
  | some p => rfl

/-- After any run, `advance` treats an episode that it visits by the exact rule exactly when
neither the idle time nor the doubled window wraps. -/
theorem timed_windows_iff (limits : Limits) (calls : List Call)
    (hvisited : (id, e) ∈ visited token (run step { limits := limits } calls).episodes.entries)
    (hseen : e.lastSeen ≤ now) (hresolve : 0 ≤ policy.resolveAfter.nanos.toInt) :
    FollowsWindows (run step { limits := limits } calls) now policy token id e ↔
      WindowsFit e now policy := by
  rw [← due_eq_windowLaw_iff hseen hresolve]
  have hfind := find?_advance_visited now policy hvisited
  have hkeyed := keyed_run limits calls
  generalize run step { limits := limits } calls = r at *
  constructor
  · intro hfollows
    have hstate := hfollows.moves _ hfind
    rw [advanced_state] at hstate
    -- Neither side gives the state the episode has, so equal results are equal moves.
    cases hdue : (e.due now policy).map Prod.fst with
    | none =>
        cases hlaw : lawFor e now policy with
        | none => rfl
        | some next =>
            rw [hdue, hlaw] at hstate
            exact absurd hstate.symm (ne_state_of_law hlaw)
    | some next =>
        cases hlaw : lawFor e now policy with
        | none =>
            rw [hdue, hlaw] at hstate
            exact absurd hstate (ne_state_of_due hdue)
        | some next' =>
            rw [hdue, hlaw] at hstate
            exact congrArg some hstate
  · intro hlaw
    refine ⟨fun e' hnext => ?_, fun hnone => ?_, fun updates hupdates => ?_⟩
    · cases hfind.symm.trans hnext
      rw [advanced_state, hlaw]
    · rw [← hlaw, Option.map_eq_none_iff] at hnone
      rw [hfind, advanced, hnone]
    · rw [reported_iff hkeyed hvisited hupdates, ← hlaw, Option.isSome_map]

/-- The episode of a run that opened one at second 1, under the default policy. -/
theorem quiescent_after_window :
    FollowsWindows (run step { limits := {} } [.observe dropAsserted {} (atSecond 1)])
      (atSecond 40) {} .never (computeEpisodeId (keyOf dropAsserted))
      (Episode.opened (keyOf dropAsserted) dropAsserted (atSecond 1) {}) := by
  refine (timed_windows_iff {} _ (by decide +kernel) (by decide +kernel) (by decide)).mpr
    ⟨fun _ => by decide +kernel, nofun⟩

/-- A window of `2 ^ 62` nanoseconds, whose double wraps. -/
def longWindow : EpisodePolicy := { resolveAfter := ⟨4611686018427387904⟩ }

/-- An episode that was opened and then observed without congestion a second later. -/
def quietEpisode : Episode :=
  (Episode.opened (keyOf dropAsserted) dropAsserted (atSecond 1) {}).quiesce dropOver (atSecond 2) {}

/-- A quiescent episode is resolved at once under the long window. -/
theorem long_window_resolves_early :
    (computeEpisodeId (keyOf dropAsserted), quietEpisode) ∈ visited .never
      (run step { limits := {} } [.observe dropAsserted {} (atSecond 1),
        .observe dropOver {} (atSecond 2)]).episodes.entries ∧
    quietEpisode.lastSeen ≤ atSecond 2 ∧ 0 ≤ longWindow.resolveAfter.nanos.toInt ∧
    0 ≤ longWindow.expireAfter.nanos.toInt ∧
    ¬ FollowsWindows (run step { limits := {} } [.observe dropAsserted {} (atSecond 1),
        .observe dropOver {} (atSecond 2)]) (atSecond 2) longWindow .never
      (computeEpisodeId (keyOf dropAsserted)) quietEpisode := by
  refine ⟨by decide +kernel, by decide +kernel, by decide, by decide, fun hfollows => ?_⟩
  have hlaw : lawFor quietEpisode (atSecond 2) longWindow = none := by decide +kernel
  have hkept := hfollows.keeps hlaw
  revert hkept
  decide +kernel

end EpisodeRegistry

end CongestionObservatory
