import CongestionObservatory.Lib.Run
import CongestionObservatory.Transport.AcceptLoop
import Mathlib.Data.List.Perm.Basic

/-!
# `CongestionObservatory.Proofs.Transport.AcceptLoop`: no connection is lost

The history of a run says which connections were accepted, refused, admitted, begun and ended.
`Sound` ties these lists to the state. Every accepted connection is refused or admitted in its turn,
and an admitted one has ended or has a worker that is not finished. The reaping erases finished
workers alone, so the workers in the list bound the connections that are served.

A join goes on only past a finished worker, and nothing is admitted any more by then. So nothing is
served when `run` returns. `stop_returns` bounds the turns `run` takes once it was asked to stop.
-/

set_option autoImplicit false

namespace CongestionObservatory

open Lib

namespace AcceptLoop

variable {κ : Type} {maxConnections : Nat} {history : List (AcceptStep κ × AcceptReply κ)}
  {s s' : AcceptLoop κ}

/-! ### Histories -/

/-- The connection that was accepted. -/
def acceptedOf : AcceptStep κ × AcceptReply κ → Option κ
  | (_, .accepted connection) => some connection
  | _ => none

/-- The connection that was refused. -/
def refusedOf : AcceptStep κ × AcceptReply κ → Option κ
  | (_, .refused connection _) => some connection
  | _ => none

/-- The connection that got a thread. -/
def admittedOf : AcceptStep κ × AcceptReply κ → Option κ
  | (_, .admitted connection) => some connection
  | _ => none

/-- The connection that was refused or got a thread. -/
def settledOf (entry : AcceptStep κ × AcceptReply κ) : Option κ :=
  (refusedOf entry).or (admittedOf entry)

/-- The connection that a worker began to serve. -/
def beganOf : AcceptStep κ × AcceptReply κ → Option κ
  | (_, .began connection) => some connection
  | _ => none

/-- The connection that a worker has served. -/
def endedOf : AcceptStep κ × AcceptReply κ → Option κ
  | (_, .ended connection) => some connection
  | _ => none

/-- The workers that have not entered `serve_connection`. -/
def created (s : AcceptLoop κ) : List (ConnectionWorker κ) :=
  s.workers.filter fun worker => worker.stage = .created

/-- How many workers the joins are past. -/
def joinedCount (s : AcceptLoop κ) : Nat :=
  match s.phase with
  | .joining index _ => index
  | .returned _ => s.workers.length
  | _ => 0

/-- What holds of every history and the state it leads to. -/
structure Sound (maxConnections : Nat) (history : List (AcceptStep κ × AcceptReply κ))
    (s : AcceptLoop κ) : Prop where
  settled : history.filterMap acceptedOf = history.filterMap settledOf ++ s.pending.toList
  served : (history.filterMap admittedOf).Perm
    (history.filterMap endedOf ++ s.live.map ConnectionWorker.connection)
  began : (history.filterMap admittedOf).length
    = (history.filterMap beganOf).length + s.created.length
  bounded : s.workers.length ≤ maxConnections
  accepted : s.stats.connectionsAccepted = UInt64.ofNat (history.filterMap beganOf).length
  rejected : s.stats.connectionsRejected = UInt64.ofNat (history.filterMap refusedOf).length
  joined : ∀ worker ∈ s.workers.take s.joinedCount, worker.stage = .finished

theorem filterMap_snoc (f : AcceptStep κ × AcceptReply κ → Option κ)
    (history : List (AcceptStep κ × AcceptReply κ)) (entry : AcceptStep κ × AcceptReply κ) :
    (history ++ [entry]).filterMap f = history.filterMap f ++ (f entry).toList := by
  rw [List.filterMap_append, List.filterMap_cons]
  cases f entry <;> rfl

/-- How one step extends a sound history. -/
theorem Sound.snoc {entry : AcceptStep κ × AcceptReply κ} (h : Sound maxConnections history s)
    (hsettled : s.pending.toList ++ (acceptedOf entry).toList
      = (settledOf entry).toList ++ s'.pending.toList)
    (hserved : (s.live.map ConnectionWorker.connection ++ (admittedOf entry).toList).Perm
      ((endedOf entry).toList ++ s'.live.map ConnectionWorker.connection))
    (hbegan : s.created.length + (admittedOf entry).toList.length
      = (beganOf entry).toList.length + s'.created.length)
    (hbounded : s'.workers.length ≤ maxConnections)
    (haccepted : s'.stats.connectionsAccepted
      = s.stats.connectionsAccepted + UInt64.ofNat (beganOf entry).toList.length)
    (hrejected : s'.stats.connectionsRejected
      = s.stats.connectionsRejected + UInt64.ofNat (refusedOf entry).toList.length)
    (hjoined : ∀ worker ∈ s'.workers.take s'.joinedCount, worker.stage = .finished) :
    Sound maxConnections (history ++ [entry]) s' := by
  refine ⟨?_, ?_, ?_, hbounded, ?_, ?_, hjoined⟩
  · rw [filterMap_snoc, filterMap_snoc, h.settled, List.append_assoc, hsettled, List.append_assoc]
  · rw [filterMap_snoc, filterMap_snoc, List.append_assoc]
    refine (h.served.append_right _).trans ?_
    rw [List.append_assoc]
    exact List.Perm.append_left _ hserved
  · have hold := h.began
    rw [filterMap_snoc, filterMap_snoc, List.length_append, List.length_append]
    omega
  · rw [filterMap_snoc, List.length_append, UInt64.ofNat_add, haccepted, h.accepted]
  · rw [filterMap_snoc, List.length_append, UInt64.ofNat_add, hrejected, h.rejected]

/-- A reply that says nothing about a connection. -/
def Quiet : AcceptReply κ → Prop
  | .done | .returned _ | .blocked => True
  | _ => False

/-- A quiet step that keeps the connections keeps the history sound. -/
theorem Sound.quiet {event : AcceptStep κ} {reply : AcceptReply κ} (h : Sound maxConnections history s)
    (hreply : Quiet reply) (hpending : s'.pending = s.pending) (hlive : s'.live = s.live)
    (hcreated : s'.created = s.created) (hbounded : s'.workers.length ≤ maxConnections)
    (hstats : s'.stats = s.stats)
    (hjoined : ∀ worker ∈ s'.workers.take s'.joinedCount, worker.stage = .finished) :
    Sound maxConnections (history ++ [(event, reply)]) s' := by
  have hnone : settledOf (event, reply) = none ∧ acceptedOf (event, reply) = none ∧
      admittedOf (event, reply) = none ∧ beganOf (event, reply) = none ∧
      endedOf (event, reply) = none ∧ refusedOf (event, reply) = none := by
    cases reply <;> first | exact ⟨rfl, rfl, rfl, rfl, rfl, rfl⟩ | exact hreply.elim
  obtain ⟨hsettled, haccepted, hadmitted, hbegan, hended, hrefused⟩ := hnone
  refine h.snoc ?_ ?_ ?_ hbounded ?_ ?_ hjoined
  · rw [hsettled, haccepted, hpending]
    exact List.append_nil _
  · rw [hadmitted, hended, hlive]
    exact List.Perm.of_eq (List.append_nil _)
  · rw [hadmitted, hbegan, hcreated, Nat.add_comm]
  · rw [hbegan, hstats]
    exact (UInt64.add_zero _).symm
  · rw [hrefused, hstats]
    exact (UInt64.add_zero _).symm

/-- A quiet step within the loop that changes nothing but the phase. -/
theorem Sound.move {event : AcceptStep κ} (h : Sound maxConnections history s) {phase : RunPhase κ}
    (hpending : ({ s with phase := phase } : AcceptLoop κ).pending = s.pending)
    (hloop : ({ s with phase := phase } : AcceptLoop κ).joinedCount = 0) :
    Sound maxConnections (history ++ [(event, .done)]) { s with phase := phase } := by
  refine h.quiet trivial hpending rfl rfl h.bounded rfl ?_
  rw [hloop]
  exact fun _ hworker => absurd hworker List.not_mem_nil

theorem Sound.blocked (h : Sound maxConnections history s) (event : AcceptStep κ) :
    Sound maxConnections (history ++ [(event, .blocked)]) s :=
  h.quiet trivial rfl rfl rfl h.bounded rfl h.joined

/-! ### The workers -/

/-- The workers around the one a step changes. -/
theorem exists_workers_around {workers : List (ConnectionWorker κ)} {index : Nat}
    {worker : ConnectionWorker κ} (h : workers[index]? = some worker) :
    ∃ before after, workers = before ++ worker :: after ∧ before.length = index ∧
      (∀ worker', workers.set index worker' = before ++ worker' :: after) ∧
      workers.eraseIdx index = before ++ after := by
  obtain ⟨hlt, rfl⟩ := List.getElem?_eq_some_iff.mp h
  refine ⟨workers.take index, workers.drop (index + 1), ?_, ?_, fun worker' => ?_, ?_⟩
  · rw [List.getElem_cons_drop, List.take_append_drop]
  · exact List.length_take_of_le hlt.le
  · rw [List.set_eq_take_append_cons_drop, if_pos hlt]
  · exact List.eraseIdx_eq_take_drop_succ _ _

/-- One round of the reaping erases nothing that is served. -/
theorem Sound.reap {event : AcceptStep κ} {connection : κ} {index : Nat}
    (h : Sound maxConnections history s) (hphase : s.phase = .reaping connection index) :
    Sound maxConnections (history ++ [(event, .done)]) (s.reap connection index) := by
  have hpending : s.pending = some connection := by rw [pending, hphase]
  unfold AcceptLoop.reap
  split
  · exact h.move hpending.symm rfl
  · rename_i worker hworker
    split
    · rename_i hfinished
      obtain ⟨before, after, hworkers, -, -, herase⟩ := exists_workers_around hworker
      refine h.quiet trivial rfl ?_ ?_ ((List.length_eraseIdx_le _ _).trans h.bounded) rfl ?_
      · show (s.workers.eraseIdx index).filter _ = s.workers.filter _
        rw [herase, hworkers, List.filter_append, List.filter_append,
          List.filter_cons_of_neg (by simp [hfinished])]
      · show (s.workers.eraseIdx index).filter _ = s.workers.filter _
        rw [herase, hworkers, List.filter_append, List.filter_append,
          List.filter_cons_of_neg (by simp [hfinished])]
      · have hloop : ({ s with workers := s.workers.eraseIdx index } : AcceptLoop κ).joinedCount = 0 := by
          rw [joinedCount, hphase]
        rw [hloop]
        exact fun _ hworker => absurd hworker List.not_mem_nil
    · exact h.move hpending.symm rfl

/-- One round of the joins is past a finished worker, or the joins are past all of them. -/
theorem Sound.join {event : AcceptStep κ} {index : Nat} {status : Status}
    (h : Sound maxConnections history s) (hphase : s.phase = .joining index status) :
    Sound maxConnections (history ++ [(event, (s.join index status).1)]) (s.join index status).2 := by
  have hpending : s.pending = none := by rw [pending, hphase]
  have hjoined : ∀ worker ∈ s.workers.take index, worker.stage = .finished := by
    have hcount : s.joinedCount = index := by rw [joinedCount, hphase]
    rw [← hcount]
    exact h.joined
  unfold AcceptLoop.join
  split
  · rename_i hnone
    refine h.quiet trivial hpending.symm rfl rfl h.bounded rfl ?_
    show ∀ worker ∈ s.workers.take s.workers.length, _
    rw [List.take_length]
    rwa [List.take_of_length_le (List.getElem?_eq_none_iff.mp hnone)] at hjoined
  · rename_i worker hworker
    split
    · rename_i hfinished
      refine h.quiet trivial hpending.symm rfl rfl h.bounded rfl ?_
      show ∀ worker ∈ s.workers.take (index + 1), _
      rw [List.take_add_one, hworker]
      intro worker' hworker'
      rcases List.mem_append.mp hworker' with hbefore | hlast
      · exact hjoined worker' hbefore
      · obtain rfl : worker' = worker := by simpa using hlast
        exact hfinished
    · exact h.blocked event

/-- A pending connection is refused, or it gets a thread while there is room. -/
theorem Sound.startWorker {event : AcceptStep κ} {connection : κ} (h : Sound maxConnections history s)
    (hphase : s.phase = .admitting connection) :
    Sound maxConnections (history ++ [(event, (s.startWorker maxConnections connection).1)])
      (s.startWorker maxConnections connection).2 := by
  have hpending : s.pending = some connection := by rw [pending, hphase]
  have hnone : ∀ worker ∈ s.workers.take 0, worker.stage = .finished :=
    fun _ hworker => absurd hworker List.not_mem_nil
  unfold AcceptLoop.startWorker
  split
  · refine h.snoc ?_ ?_ ?_ h.bounded (UInt64.add_zero _).symm rfl hnone
    · rw [hpending]
      rfl
    · exact List.Perm.of_eq (List.append_nil _)
    · exact Nat.add_comm _ _
  · rename_i hroom
    have hlive : ({ s with phase := .head, workers := s.workers ++ [{ connection := connection }] } :
        AcceptLoop κ).live = s.live ++ [{ connection := connection }] := List.filter_append _ _
    have hcreated : ({ s with phase := .head, workers := s.workers ++ [{ connection := connection }] } :
        AcceptLoop κ).created = s.created ++ [{ connection := connection }] := List.filter_append _ _
    refine h.snoc ?_ ?_ ?_ ?_ (UInt64.add_zero _).symm (UInt64.add_zero _).symm ?_
    · rw [hpending]
      rfl
    · rw [hlive, List.map_append]
      exact List.Perm.refl _
    · rw [hcreated, List.length_append]
      exact (Nat.zero_add _).symm
    · rw [List.length_append, List.length_singleton]
      omega
    · exact fun _ hworker => absurd hworker List.not_mem_nil

/-- The joins are not past a worker that is not finished, so it may change its stage. -/
theorem joined_set {index : Nat} {worker worker' : ConnectionWorker κ}
    (h : ∀ worker ∈ s.workers.take s.joinedCount, worker.stage = .finished)
    (hworker : s.workers[index]? = some worker) (hopen : worker.stage ≠ .finished)
    (hphase : s'.phase = s.phase) (hworkers : s'.workers = s.workers.set index worker') :
    ∀ other ∈ s'.workers.take s'.joinedCount, other.stage = .finished := by
  have hpast : s.joinedCount ≤ index := by
    by_contra hlt
    obtain ⟨hindex, rfl⟩ := List.getElem?_eq_some_iff.mp hworker
    exact hopen (h _ (List.mem_take_iff_getElem.mpr ⟨index, by omega, rfl⟩))
  have hcount : s'.joinedCount = s.joinedCount := by
    unfold joinedCount
    rw [hphase, hworkers, List.length_set]
  rw [hcount, hworkers, List.take_set_of_le hpast]
  exact h

theorem Sound.begin (h : Sound maxConnections history s) (index : Nat) :
    Sound maxConnections (history ++ [(.begin index, (s.begin index).1)]) (s.begin index).2 := by
  unfold AcceptLoop.begin
  split
  · rename_i connection hworker
    obtain ⟨before, after, hworkers, -, hset, -⟩ := exists_workers_around hworker
    refine h.snoc ?_ ?_ ?_ ?_ rfl (UInt64.add_zero _).symm ?_
    · exact List.append_nil _
    · refine List.Perm.of_eq ((List.append_nil _).trans ?_)
      show (s.workers.filter _).map _ = ((s.workers.set index _).filter _).map _
      rw [hset, hworkers]
      simp [List.filter_append]
    · show (s.workers.filter _).length + 0 = 1 + ((s.workers.set index _).filter _).length
      rw [hset, hworkers]
      simp [List.filter_append]
      omega
    · show (s.workers.set index _).length ≤ maxConnections
      rw [List.length_set]
      exact h.bounded
    · exact joined_set h.joined hworker ConnectionStage.noConfusion rfl rfl
  · exact h.blocked _

theorem Sound.finish (h : Sound maxConnections history s) (index : Nat) :
    Sound maxConnections (history ++ [(.finish index, (s.finish index).1)]) (s.finish index).2 := by
  unfold AcceptLoop.finish
  split
  · rename_i connection hworker
    obtain ⟨before, after, hworkers, -, hset, -⟩ := exists_workers_around hworker
    refine h.snoc ?_ ?_ ?_ ?_ (UInt64.add_zero _).symm (UInt64.add_zero _).symm ?_
    · exact List.append_nil _
    · show ((s.workers.filter _).map _ ++ []).Perm
        (connection :: ((s.workers.set index _).filter _).map _)
      rw [hset, hworkers, List.append_nil]
      simp only [List.filter_append, List.map_append]
      exact List.perm_middle
    · show (s.workers.filter _).length + 0 = 0 + ((s.workers.set index _).filter _).length
      rw [hset, hworkers]
      simp [List.filter_append]
    · show (s.workers.set index _).length ≤ maxConnections
      rw [List.length_set]
      exact h.bounded
    · exact joined_set h.joined hworker ConnectionStage.noConfusion rfl rfl
  · exact h.blocked _

/-- Every step keeps the history sound. -/
theorem Sound.step (h : Sound maxConnections history s) (event : AcceptStep κ) :
    Sound maxConnections (history ++ [(event, (s.step maxConnections event).1)])
      (s.step maxConnections event).2 := by
  cases event with
  | begin index => exact h.begin index
  | finish index => exact h.finish index
  | stop => exact h.quiet trivial rfl rfl rfl h.bounded rfl h.joined
  | cancel => exact h.quiet trivial rfl rfl rfl h.bounded rfl h.joined
  | turn accepted =>
      show Sound maxConnections (history ++ [(_, (s.turn maxConnections accepted).1)])
        (s.turn maxConnections accepted).2
      unfold AcceptLoop.turn
      split
      · rename_i hphase
        have hpending : s.pending = none := by rw [pending, hphase]
        cases s.stopping with
        | true =>
            refine h.quiet trivial hpending.symm rfl rfl h.bounded rfl ?_
            exact fun _ hworker => absurd hworker List.not_mem_nil
        | false => exact h.move hpending.symm rfl
      · rename_i hphase
        have hpending : s.pending = none := by rw [pending, hphase]
        cases accepted with
        | ok connection =>
            refine h.snoc ?_ ?_ ?_ h.bounded (UInt64.add_zero _).symm (UInt64.add_zero _).symm ?_
            · rw [hpending]
              rfl
            · exact List.Perm.of_eq (List.append_nil _)
            · exact Nat.add_comm _ _
            · exact fun _ hworker => absurd hworker List.not_mem_nil
        | error e => exact h.move hpending.symm rfl
      · rename_i hphase
        have hpending : s.pending = none := by rw [pending, hphase]
        exact h.move hpending.symm rfl
      · rename_i connection index hphase
        exact h.reap hphase
      · rename_i connection hphase
        exact h.startWorker hphase
      · rename_i index status hphase
        exact h.join hphase
      · exact h.blocked _

/-! ### Every run -/

/-- Every run is sound. -/
theorem sound_run (maxConnections : Nat) (listening : Bool) (events : List (AcceptStep κ)) :
    Sound maxConnections (trace (AcceptLoop.step maxConnections) (enter listening) events)
      (run (AcceptLoop.step maxConnections) (enter listening) events) := by
  have hnew : Sound maxConnections [] (enter listening : AcceptLoop κ) := by
    cases listening with
    | true => exact ⟨rfl, List.Perm.refl _, rfl, Nat.zero_le _, rfl, rfl, by simp [enter]⟩
    | false => exact ⟨rfl, List.Perm.refl _, rfl, Nat.zero_le _, rfl, rfl, by simp [enter]⟩
  exact history_induction (AcceptLoop.step maxConnections) (Sound maxConnections) hnew
    (fun _ _ event h _ => h.step event) events (guarded_true _ _ _)

/-- What a server does with its connections. -/
structure Accounts (maxConnections : Nat) (history : List (AcceptStep κ × AcceptReply κ))
    (s : AcceptLoop κ) : Prop where
  /-- No more connections than allowed are served at a time. -/
  bounded : s.live.length ≤ maxConnections
  /-- The connections are refused or admitted in the order in which they were accepted. -/
  settled : history.filterMap acceptedOf = history.filterMap settledOf ++ s.pending.toList
  /-- Each admitted connection has been served to its end or still has its worker. -/
  served : (history.filterMap admittedOf).Perm
    (history.filterMap endedOf ++ s.live.map ConnectionWorker.connection)
  accepted : s.stats.connectionsAccepted = UInt64.ofNat (history.filterMap beganOf).length
  rejected : s.stats.connectionsRejected = UInt64.ofNat (history.filterMap refusedOf).length
  /-- When `run` has returned, each accepted connection was refused or served to its end. -/
  returned : ∀ status, s.phase = .returned status → s.live = [] ∧
    history.filterMap acceptedOf = history.filterMap settledOf ∧
    (history.filterMap admittedOf).Perm (history.filterMap endedOf) ∧
    (history.filterMap beganOf).length = (history.filterMap admittedOf).length

/-- **No connection is lost, served twice or left behind**, whatever the order of the steps. -/
theorem run_accounts (maxConnections : Nat) (listening : Bool) (events : List (AcceptStep κ)) :
    Accounts maxConnections (trace (AcceptLoop.step maxConnections) (enter listening) events)
      (run (AcceptLoop.step maxConnections) (enter listening) events) := by
  have h := sound_run maxConnections listening events
  refine ⟨(List.length_filter_le _ _).trans h.bounded, h.settled, h.served, h.accepted, h.rejected,
    fun status hreturned => ?_⟩
  have hfinished : ∀ worker ∈ (run (AcceptLoop.step maxConnections) (enter listening) events).workers,
      worker.stage = .finished := by
    have hjoined := h.joined
    rwa [joinedCount, hreturned, List.take_length] at hjoined
  have hlive : (run (AcceptLoop.step maxConnections) (enter listening) events).live = [] :=
    List.filter_eq_nil_iff.mpr fun worker hworker => by simp [hfinished worker hworker]
  have hcreated : (run (AcceptLoop.step maxConnections) (enter listening) events).created = [] :=
    List.filter_eq_nil_iff.mpr fun worker hworker => by simp [hfinished worker hworker]
  have hpending : (run (AcceptLoop.step maxConnections) (enter listening) events).pending = none := by
    rw [pending, hreturned]
  have hsettled := h.settled
  have hserved := h.served
  have hbegan := h.began
  rw [hpending] at hsettled
  rw [hlive] at hserved
  rw [hcreated] at hbegan
  exact ⟨hlive, hsettled.trans (List.append_nil _), hserved.trans (List.Perm.of_eq (List.append_nil _)),
    hbegan.symm⟩

/-! ### The end of a run -/

/-- A bound on the turns that `run` still takes once it was asked to stop. -/
def rank (s : AcceptLoop κ) : Nat :=
  match s.phase with
  | .head | .acceptFailed _ => s.workers.length + 2
  | .accepting => 2 * s.workers.length + 6
  | .reaping _ index => (s.workers.length - index) + s.workers.length + 5
  | .admitting _ => s.workers.length + 4
  | .joining index _ => s.workers.length - index + 1
  | .returned _ => 0

theorem returned_of_rank (h : s.rank = 0) : ∃ status, s.phase = .returned status := by
  unfold rank at h
  split at h
  · omega
  · omega
  · omega
  · omega
  · omega
  · omega
  · rename_i status hphase
    exact ⟨status, hphase⟩

/-- A turn of `run` that was not blocked. -/
def moved : AcceptStep κ × AcceptReply κ → Bool
  | (.turn _, .blocked) => false
  | (.turn _, _) => true
  | _ => false

theorem rank_le (s : AcceptLoop κ) : s.rank ≤ 2 * s.workers.length + 6 := by
  unfold rank
  split <;> omega

/-- A turn of `run` brings it closer to its end, or it is blocked and changes nothing. -/
theorem rank_turn (maxConnections : Nat) (hstopping : s.stopping = true) (accepted : Result κ) :
    ((s.turn maxConnections accepted).2.rank < s.rank ∨
      (s.turn maxConnections accepted).1 = .blocked ∧ (s.turn maxConnections accepted).2 = s) ∧
    (s.turn maxConnections accepted).2.stopping = true := by
  unfold turn
  split
  · rename_i hphase
    refine ⟨Or.inl ?_, hstopping⟩
    rw [hstopping, rank, rank, hphase]
    exact Nat.lt_succ_self _
  · rename_i hphase
    cases accepted with
    | ok connection =>
        refine ⟨Or.inl ?_, hstopping⟩
        rw [rank, rank, hphase]
        dsimp only
        omega
    | error e =>
        refine ⟨Or.inl ?_, hstopping⟩
        rw [rank, rank, hphase]
        dsimp only
        omega
  · rename_i e hphase
    refine ⟨Or.inl ?_, hstopping⟩
    rw [rank, rank, hphase]
    exact Nat.lt_succ_self _
  · rename_i connection index hphase
    unfold AcceptLoop.reap
    split
    · refine ⟨Or.inl ?_, hstopping⟩
      rw [rank, rank, hphase]
      dsimp only
      omega
    · rename_i worker hworker
      obtain ⟨hindex, -⟩ := List.getElem?_eq_some_iff.mp hworker
      split
      · refine ⟨Or.inl ?_, hstopping⟩
        rw [rank, rank, hphase]
        dsimp only
        rw [List.length_eraseIdx_of_lt hindex]
        omega
      · refine ⟨Or.inl ?_, hstopping⟩
        rw [rank, rank, hphase]
        dsimp only
        omega
  · rename_i connection hphase
    unfold AcceptLoop.startWorker
    split
    · refine ⟨Or.inl ?_, hstopping⟩
      rw [rank, rank, hphase]
      dsimp only
      omega
    · refine ⟨Or.inl ?_, hstopping⟩
      rw [rank, rank, hphase]
      dsimp only
      rw [List.length_append, List.length_singleton]
      omega
  · rename_i index status hphase
    unfold AcceptLoop.join
    split
    · refine ⟨Or.inl ?_, hstopping⟩
      rw [rank, rank, hphase]
      exact Nat.succ_pos _
    · rename_i worker hworker
      obtain ⟨hindex, -⟩ := List.getElem?_eq_some_iff.mp hworker
      split
      · refine ⟨Or.inl ?_, hstopping⟩
        rw [rank, rank, hphase]
        dsimp only
        omega
      · exact ⟨Or.inr ⟨rfl, rfl⟩, hstopping⟩
  · exact ⟨Or.inr ⟨rfl, rfl⟩, hstopping⟩

/-- The workers and the other threads leave `run` where it is. -/
theorem rank_step (maxConnections : Nat) (hstopping : s.stopping = true) (event : AcceptStep κ) :
    (if moved (event, (s.step maxConnections event).1) then 1 else 0)
        + (s.step maxConnections event).2.rank ≤ s.rank ∧
      (s.step maxConnections event).2.stopping = true := by
  have hkept : ∀ {index worker} {stats : ServerStats},
      ({ s with workers := s.workers.set index worker, stats := stats } : AcceptLoop κ).rank
        = s.rank := by
    intro index worker stats
    unfold rank
    rw [List.length_set]
  cases event with
  | turn accepted =>
      obtain ⟨hcloser | ⟨hblocked, hsame⟩, hstopping'⟩ := rank_turn maxConnections
        hstopping accepted
      · refine ⟨?_, hstopping'⟩
        show _ + (s.turn maxConnections accepted).2.rank ≤ s.rank
        split <;> omega
      · refine ⟨?_, hstopping'⟩
        rw [show (s.step maxConnections (.turn accepted)).1 = .blocked from hblocked,
          show (s.step maxConnections (.turn accepted)).2 = s from hsame]
        exact Nat.le_of_eq (Nat.zero_add _)
  | begin index =>
      refine ⟨?_, ?_⟩
      · refine Nat.le_of_eq ((Nat.zero_add _).trans ?_)
        show (s.begin index).2.rank = s.rank
        unfold AcceptLoop.begin
        split
        · exact hkept
        · rfl
      · show (s.begin index).2.stopping = true
        unfold AcceptLoop.begin
        split <;> exact hstopping
  | finish index =>
      refine ⟨?_, ?_⟩
      · refine Nat.le_of_eq ((Nat.zero_add _).trans ?_)
        show (s.finish index).2.rank = s.rank
        unfold AcceptLoop.finish
        split
        · exact hkept
        · rfl
      · show (s.finish index).2.stopping = true
        unfold AcceptLoop.finish
        split <;> exact hstopping
  | stop => exact ⟨Nat.le_of_eq (Nat.zero_add _), rfl⟩
  | cancel => exact ⟨Nat.le_of_eq (Nat.zero_add _), Bool.or_true _⟩

/-- A turn is blocked only when `run` has returned or waits for a connection that is served. -/
theorem blocked_turn {accepted : Result κ} (h : (s.turn maxConnections accepted).1 = .blocked) :
    (∃ status, s.phase = .returned status) ∨ s.live ≠ [] := by
  unfold turn at h
  split at h
  · cases h
  · split at h <;> cases h
  · cases h
  · cases h
  · unfold AcceptLoop.startWorker at h
    split at h <;> cases h
  · unfold AcceptLoop.join at h
    split at h
    · cases h
    · rename_i worker hworker
      split at h
      · cases h
      · rename_i hopen
        refine Or.inr (List.ne_nil_of_mem (a := worker) ?_)
        exact List.mem_filter.mpr ⟨List.mem_of_getElem? hworker, by simpa using hopen⟩
  · rename_i status hphase
    exact Or.inl ⟨status, hphase⟩

/-- The turns of a run that was asked to stop. -/
theorem moved_add_rank_le (maxConnections : Nat) (hstopping : s.stopping = true)
    (events : List (AcceptStep κ)) :
    (trace (AcceptLoop.step maxConnections) s events).countP moved
      + (run (AcceptLoop.step maxConnections) s events).rank ≤ s.rank := by
  induction events generalizing s with
  | nil => exact Nat.le_of_eq (Nat.zero_add _)
  | cons event rest ih =>
      obtain ⟨hcloser, hstopping'⟩ := rank_step maxConnections hstopping event
      have hrest := ih hstopping'
      rw [run, trace, List.countP_cons]
      omega

/-- **A server that was asked to stop returns.** Whatever the other threads do, `run` has returned
once it took twice as many more turns as it has workers, and six. It is blocked only while a
connection is served. -/
theorem stop_returns (maxConnections : Nat) (s : AcceptLoop κ) (hstopping : s.stopping = true)
    (events : List (AcceptStep κ)) :
    ((∃ status, (run (AcceptLoop.step maxConnections) s events).phase = .returned status) ∨
      (trace (AcceptLoop.step maxConnections) s events).countP moved < 2 * s.workers.length + 6) ∧
    ∀ accepted, ((run (AcceptLoop.step maxConnections) s events).turn maxConnections accepted).1
        = .blocked →
      (∃ status, (run (AcceptLoop.step maxConnections) s events).phase = .returned status) ∨
        (run (AcceptLoop.step maxConnections) s events).live ≠ [] := by
  refine ⟨?_, fun accepted => blocked_turn⟩
  have hbound := (moved_add_rank_le maxConnections hstopping events).trans (rank_le s)
  by_cases hzero : (run (AcceptLoop.step maxConnections) s events).rank = 0
  · exact Or.inl (returned_of_rank hzero)
  · exact Or.inr (by omega)

/-- A server that is asked to stop while it serves a connection and waits for another. -/
def servingOne : AcceptLoop Nat :=
  { phase := .accepting
    workers := [⟨0, .serving⟩]
    stopRequested := true }

/-- Another connection comes, and both are served to their ends. One turn is blocked by the first
connection. -/
def servingOneTurns : List (AcceptStep Nat) :=
  [.turn (.ok 1), .turn (.ok 1), .turn (.ok 1), .turn (.ok 1), .turn (.ok 1), .turn (.ok 1),
    .finish 0, .turn (.ok 1), .begin 1, .finish 1, .turn (.ok 1), .turn (.ok 1)]

/-- The eight turns that the bound admits. -/
theorem stop_returns_servingOne :
    ∃ status, (run (AcceptLoop.step 8) servingOne servingOneTurns).phase = .returned status :=
  (stop_returns 8 servingOne rfl servingOneTurns).1.resolve_right (by decide)

end AcceptLoop

end CongestionObservatory
