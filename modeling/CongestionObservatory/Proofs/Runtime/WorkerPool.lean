import CongestionObservatory.Lib.Run
import CongestionObservatory.Runtime.WorkerPool
import Mathlib.Data.List.Perm.Basic
import Mathlib.Algebra.GroupWithZero.Nat

/-!
# `CongestionObservatory.Proofs.Runtime.WorkerPool`: accepted work is run, once

The history of a run says which tasks were accepted, which a worker took and which were counted
as completed. `Sound` ties the three to the state: the accepted tasks are those taken, in the
order they were accepted, followed by the queue, and the taken ones are those completed and those
running. The counters are the lengths of these lists.

The drain rests on the two facts `drained` and `idle`. A worker leaves only an empty queue while
the flag is set, and from then on nothing is accepted until the threads are gone. So when every
thread has been joined the queue is empty and nothing runs, and `stop` returns with every
accepted task completed.

Nothing accepted is abandoned either. `workLeft` goes down with every step of a worker, so workers
left to themselves come to an end. Where none of them can move (`WorkersBlocked`) the accepted
tasks are the completed ones, and a stop that waits can join its threads.
-/

set_option autoImplicit false

namespace CongestionObservatory

open Lib

namespace WorkerPool

variable {τ : Type}

/-! ### Histories -/

/-- The task a submission put into the queue. -/
def acceptedTask? : PoolStep τ × PoolReply τ → Option τ
  | (.submit task, .accepted) => task
  | _ => none

/-- The task a worker took. -/
def takenTask? : PoolStep τ × PoolReply τ → Option τ
  | (_, .took task) => some task
  | _ => none

/-- The task a worker completed. -/
def completedTask? : PoolStep τ × PoolReply τ → Option τ
  | (_, .finished task) => some task
  | _ => none

/-- What holds of every history and the state it leads to. -/
structure Sound (history : List (PoolStep τ × PoolReply τ)) (pool : WorkerPool τ) : Prop where
  accepted : history.filterMap acceptedTask? = history.filterMap takenTask? ++ pool.tasks
  taken : (history.filterMap takenTask?).Perm
    (history.filterMap completedTask? ++ pool.running)
  submitted : pool.submitted = (history.filterMap acceptedTask?).length
  completed : pool.completed = (history.filterMap completedTask?).length
  bounded : pool.tasks.length ≤ pool.maxPending
  drained : (∃ w ∈ pool.threads, w.ended = true) → pool.stopping = true ∧ pool.tasks = []
  idle : pool.threads = [] → pool.tasks = []

variable {history : List (PoolStep τ × PoolReply τ)} {entry : PoolStep τ × PoolReply τ}
  {pool pool' : WorkerPool τ} {worker : Nat}

/-- How one step extends a sound history: what it accepts goes to the end of the queue, what it
takes comes off the front and runs, what it completes runs no more. -/
theorem Sound.snoc (h : Sound history pool)
    (htasks : pool.tasks ++ (acceptedTask? entry).toList
      = (takenTask? entry).toList ++ pool'.tasks)
    (hrunning : ((takenTask? entry).toList ++ pool.running).Perm
      ((completedTask? entry).toList ++ pool'.running))
    (hsubmitted : pool'.submitted = pool.submitted + (acceptedTask? entry).toList.length)
    (hcompleted : pool'.completed = pool.completed + (completedTask? entry).toList.length)
    (hbounded : pool'.tasks.length ≤ pool'.maxPending)
    (hdrained : (∃ w ∈ pool'.threads, w.ended = true) → pool'.stopping = true ∧ pool'.tasks = [])
    (hidle : pool'.threads = [] → pool'.tasks = []) : Sound (history ++ [entry]) pool' := by
  have hsnoc : ∀ f : PoolStep τ × PoolReply τ → Option τ,
      (history ++ [entry]).filterMap f = history.filterMap f ++ (f entry).toList := by
    intro f
    rw [List.filterMap_append, List.filterMap_cons]
    cases f entry <;> rfl
  refine ⟨?_, ?_, ?_, ?_, hbounded, hdrained, hidle⟩
  · rw [hsnoc, hsnoc, h.accepted, List.append_assoc, htasks, List.append_assoc]
  · rw [hsnoc, hsnoc, List.append_assoc]
    refine (h.taken.append_right _).trans ?_
    rw [List.append_assoc]
    exact List.Perm.append_left _ (List.perm_append_comm.trans hrunning)
  · rw [hsnoc, List.length_append, hsubmitted, h.submitted]
  · rw [hsnoc, List.length_append, hcompleted, h.completed]

/-- A step that accepts, takes and completes nothing. -/
def Quiet (entry : PoolStep τ × PoolReply τ) : Prop :=
  acceptedTask? entry = none ∧ takenTask? entry = none ∧ completedTask? entry = none

/-- A quiet step that leaves the tasks where they are keeps the history sound, when it keeps
what is said of the flag and the threads. -/
theorem Sound.quiet (h : Sound history pool) (hentry : Quiet entry)
    (htasks : pool'.tasks = pool.tasks) (hrunning : pool'.running = pool.running)
    (hsubmitted : pool'.submitted = pool.submitted) (hcompleted : pool'.completed = pool.completed)
    (hbounded : pool.tasks.length ≤ pool'.maxPending)
    (hdrained : (∃ w ∈ pool'.threads, w.ended = true) → pool'.stopping = true ∧ pool.tasks = [])
    (hidle : pool'.threads = [] → pool.tasks = []) : Sound (history ++ [entry]) pool' := by
  obtain ⟨ha, ht, hc⟩ := hentry
  apply h.snoc <;> simp only [ha, ht, hc, htasks, hrunning]
  · exact List.append_nil _
  · exact List.Perm.refl _
  · exact hsubmitted
  · exact hcompleted
  · exact hbounded
  · exact hdrained
  · exact hidle

/-- A step that answers quietly and changes nothing but a count or the flag. -/
theorem Sound.still (h : Sound history pool) (hentry : Quiet entry)
    (htasks : pool'.tasks = pool.tasks) (hthreads : pool'.threads = pool.threads)
    (hsubmitted : pool'.submitted = pool.submitted) (hcompleted : pool'.completed = pool.completed)
    (hmax : pool'.maxPending = pool.maxPending)
    (hstopping : pool.stopping = true → pool'.stopping = true) :
    Sound (history ++ [entry]) pool' := by
  refine h.quiet hentry htasks (by rw [running, running, hthreads]) hsubmitted hcompleted ?_ ?_ ?_
  · rw [hmax]
    exact h.bounded
  · rw [hthreads]
    exact fun hended => ⟨hstopping (h.drained hended).1, (h.drained hended).2⟩
  · rw [hthreads]
    exact h.idle

theorem Sound.blocked (h : Sound history pool) (event : PoolStep τ) :
    Sound (history ++ [(event, .blocked)]) pool :=
  h.still ⟨by cases event <;> rfl, rfl, rfl⟩ rfl rfl rfl rfl rfl fun hstopping => hstopping

/-! ### The threads -/

/-- The threads around the one a step changes. -/
theorem exists_split_of_getElem? {threads : List (Worker τ)} {w : Worker τ}
    (h : threads[worker]? = some w) : ∃ before after, threads = before ++ w :: after ∧
      ∀ w', threads.set worker w' = before ++ w' :: after := by
  obtain ⟨hlt, rfl⟩ := List.getElem?_eq_some_iff.mp h
  refine ⟨threads.take worker, threads.drop (worker + 1), ?_, fun w' => ?_⟩
  · rw [List.getElem_cons_drop, List.take_append_drop]
  · rw [List.set_eq_take_append_cons_drop, if_pos hlt]

/-- A thread that has ended, after a step of a thread that goes on, had ended before. -/
theorem mem_threads_of_ended {threads before after : List (Worker τ)} {v v' w : Worker τ}
    (hthreads : threads = before ++ v :: after)
    (hset : ∀ w', threads.set worker w' = before ++ w' :: after) (hw : w ∈ threads.set worker v')
    (hended : w.ended = true) (hlive : v'.ended ≠ true) : w ∈ threads := by
  rw [hset] at hw
  rw [hthreads]
  simp only [List.mem_append, List.mem_cons] at hw ⊢
  rcases hw with hw | rfl | hw
  · exact .inl hw
  · exact absurd hended hlive
  · exact .inr (.inr hw)

theorem task?_eq_none_of_ended {w : Worker τ} (h : w.ended = true) : w.task? = none := by
  cases w <;> first | rfl | cases h

/-- Nothing runs on threads that have all ended. -/
theorem running_eq_nil_of_ended (h : ∀ w ∈ pool.threads, w.ended = true) : pool.running = [] :=
  List.filterMap_eq_nil_iff.mpr fun w hw => task?_eq_none_of_ended (h w hw)

theorem ended_of_isJoined {w : Worker τ} (h : w.isJoined = true) : w.ended = true := by
  cases w <;> first | rfl | cases h

/-- Once every thread has ended there is nothing left to do. -/
theorem Sound.tasks_eq_nil (h : Sound history pool) (hended : ∀ w ∈ pool.threads, w.ended = true) :
    pool.tasks = [] := by
  cases hthreads : pool.threads with
  | nil => exact h.idle hthreads
  | cons w rest =>
      have hw : w ∈ pool.threads := hthreads ▸ List.mem_cons_self
      exact (h.drained ⟨w, hw, hended w hw⟩).2

/-! ### One step -/

theorem Sound.start (h : Sound history pool) (count pendingBound : Nat) :
    Sound (history ++ [(.start count pendingBound, (pool.start count pendingBound).1)])
      (pool.start count pendingBound).2 := by
  unfold WorkerPool.start
  split
  · rename_i hempty
    have hthreads : pool.threads = [] := List.isEmpty_iff.mp hempty
    have htasks := h.idle hthreads
    refine h.quiet ⟨rfl, rfl, rfl⟩ rfl ?_ rfl rfl ?_ ?_ fun _ => htasks
    · simp [running, hthreads, Worker.task?]
    · show pool.tasks.length ≤ pendingBound
      simp [htasks]
    · rintro ⟨w, hw, hended⟩
      cases (List.mem_replicate.mp hw).2
      cases hended
  · exact h.still ⟨rfl, rfl, rfl⟩ rfl rfl rfl rfl rfl fun hstopping => hstopping

theorem Sound.submit (h : Sound history pool) (task : Option τ) :
    Sound (history ++ [(.submit task, (pool.submit task).1)]) (pool.submit task).2 := by
  have hreject : ∀ error, Sound (history ++ [(.submit task, (pool.reject error).1)])
      (pool.reject error).2 := fun error =>
    h.still ⟨rfl, rfl, rfl⟩ rfl rfl rfl rfl rfl fun hstopping => hstopping
  cases task with
  | none => exact h.still ⟨rfl, rfl, rfl⟩ rfl rfl rfl rfl rfl fun hstopping => hstopping
  | some task =>
      rw [WorkerPool.submit]
      split
      · exact hreject _
      rename_i hflag
      split
      · exact hreject _
      rename_i hthreads
      split
      · exact hreject _
      rename_i hroom
      refine h.snoc rfl (List.Perm.refl _) rfl rfl ?_ ?_ ?_
      · show (pool.tasks ++ [task]).length ≤ pool.maxPending
        rw [List.length_append, List.length_singleton]
        omega
      · exact fun hended => absurd (h.drained hended).1 hflag
      · exact fun hnil => absurd (List.isEmpty_iff.mpr hnil) hthreads

theorem Sound.take (h : Sound history pool) (worker : Nat) :
    Sound (history ++ [(.take worker, (pool.take worker).1)]) (pool.take worker).2 := by
  unfold WorkerPool.take
  split
  · rename_i task rest hthread htasks
    obtain ⟨before, after, hthreads, hset⟩ := exists_split_of_getElem? hthread
    refine h.snoc ?_ ?_ rfl rfl ?_ ?_ ?_
    · simp [acceptedTask?, takenTask?, htasks]
    · show (task :: pool.running).Perm ((pool.threads.set worker (.running task)).filterMap _)
      rw [hset, running, hthreads]
      simp only [List.filterMap_append, List.filterMap_cons, Worker.task?]
      exact List.perm_middle.symm
    · have hbound := h.bounded
      rw [htasks, List.length_cons] at hbound
      show rest.length ≤ pool.maxPending
      omega
    · -- A thread that has ended was there before, and then there was no task to take.
      rintro ⟨w, hw, hended⟩
      have hold := mem_threads_of_ended hthreads hset hw hended (by rintro ⟨⟩)
      rw [(h.drained ⟨w, hold, hended⟩).2] at htasks
      cases htasks
    · intro hnil
      rw [hset] at hnil
      exact absurd hnil (by simp)
  · exact h.blocked _

theorem Sound.finish (h : Sound history pool) (worker : Nat) :
    Sound (history ++ [(.finish worker, (pool.finish worker).1)]) (pool.finish worker).2 := by
  unfold WorkerPool.finish
  split
  · rename_i task hthread
    obtain ⟨before, after, hthreads, hset⟩ := exists_split_of_getElem? hthread
    refine h.snoc (List.append_nil _) ?_ rfl rfl h.bounded ?_ ?_
    · show pool.running.Perm (task :: (pool.threads.set worker .waiting).filterMap _)
      rw [hset, running, hthreads]
      simp only [List.filterMap_append, List.filterMap_cons, Worker.task?]
      exact List.perm_middle
    · rintro ⟨w, hw, hended⟩
      exact h.drained ⟨w, mem_threads_of_ended hthreads hset hw hended (by rintro ⟨⟩), hended⟩
    · intro hnil
      rw [hset] at hnil
      exact absurd hnil (by simp)
  · exact h.blocked _

theorem Sound.leave (h : Sound history pool) (worker : Nat) :
    Sound (history ++ [(.leave worker, (pool.leave worker).1)]) (pool.leave worker).2 := by
  unfold WorkerPool.leave
  split
  · rename_i hthread htasks
    split
    · rename_i hstopping
      obtain ⟨before, after, hthreads, hset⟩ := exists_split_of_getElem? hthread
      refine h.quiet ⟨rfl, rfl, rfl⟩ rfl ?_ rfl rfl h.bounded (fun _ => ⟨hstopping, htasks⟩)
        fun _ => htasks
      show (pool.threads.set worker .exited).filterMap _ = _
      rw [hset, running, hthreads]
      simp only [List.filterMap_append, List.filterMap_cons, Worker.task?]
    · exact h.blocked _
  · exact h.blocked _

theorem Sound.beginStop (h : Sound history pool) :
    Sound (history ++ [(.beginStop, pool.beginStop.1)]) pool.beginStop.2 :=
  h.still ⟨rfl, rfl, rfl⟩ rfl rfl rfl rfl rfl fun _ => rfl

theorem Sound.join (h : Sound history pool) :
    Sound (history ++ [(.join, pool.join.1)]) pool.join.2 := by
  unfold WorkerPool.join
  split
  · rename_i hjoin
    have hended : ∀ w ∈ pool.threads, w.ended = true := by simpa using hjoin.2
    refine h.quiet ⟨rfl, rfl, rfl⟩ rfl ?_ rfl rfl h.bounded ?_ fun _ => h.tasks_eq_nil hended
    · rw [running_eq_nil_of_ended hended]
      exact running_eq_nil_of_ended fun w hw => by
        obtain ⟨_, -, rfl⟩ := List.mem_map.mp hw
        rfl
    · rintro ⟨w, hw, -⟩
      obtain ⟨w', hw', -⟩ := List.mem_map.mp hw
      exact h.drained ⟨w', hw', hended w' hw'⟩
  · exact h.blocked _

theorem Sound.endStop (h : Sound history pool) :
    Sound (history ++ [(.endStop, pool.endStop.1)]) pool.endStop.2 := by
  unfold WorkerPool.endStop
  split
  · exact h.blocked _
  split
  · rename_i hjoined
    have hended : ∀ w ∈ pool.threads, w.ended = true := fun w hw =>
      ended_of_isJoined (List.all_eq_true.mp hjoined w hw)
    refine h.quiet ⟨rfl, rfl, rfl⟩ rfl ?_ rfl rfl h.bounded (by simp) fun _ => h.tasks_eq_nil hended
    rw [running_eq_nil_of_ended hended]
    rfl
  · exact h.still ⟨rfl, rfl, rfl⟩ rfl rfl rfl rfl rfl fun hstopping => hstopping

/-- Every step keeps the history sound. -/
theorem Sound.step (h : Sound history pool) (event : PoolStep τ) :
    Sound (history ++ [(event, (pool.step event).1)]) (pool.step event).2 := by
  unfold WorkerPool.step
  split
  · exact h.blocked event
  cases event with
  | start count pendingBound => exact h.start count pendingBound
  | submit task => exact h.submit task
  | take worker => exact h.take worker
  | finish worker => exact h.finish worker
  | leave worker => exact h.leave worker
  | beginStop => exact h.beginStop
  | join => exact h.join
  | endStop => exact h.endStop

/-- Every run from a new pool is sound. -/
theorem sound_run (events : List (PoolStep τ)) :
    Sound (trace WorkerPool.step {} events) (run WorkerPool.step {} events) := by
  have hnew : Sound [] ({} : WorkerPool τ) :=
    ⟨rfl, List.Perm.refl _, rfl, rfl, Nat.le_refl _, by simp, fun _ => rfl⟩
  exact history_induction WorkerPool.step Sound hnew (fun _ _ event h _ => h.step event) events
    (guarded_true _ _ _)

theorem Sound.submitted_eq (h : Sound history pool) :
    pool.submitted = pool.completed + pool.tasks.length + pool.running.length := by
  have htaken := h.taken.length_eq
  rw [List.length_append] at htaken
  rw [h.submitted, h.completed, h.accepted, List.length_append]
  omega

/-! ### Stopping -/

/-- A stop returns only when every thread has been joined, and then all work is done. -/
theorem Sound.stopReturned (h : Sound history pool)
    (hreturned : (pool.step .endStop).1 = .stopReturned) :
    (pool.step .endStop).2.tasks = [] ∧ (pool.step .endStop).2.running = [] ∧
      (pool.step .endStop).2.completed = (pool.step .endStop).2.submitted := by
  have hnext := h.step .endStop
  have hthreads : (pool.step .endStop).2.threads = [] := by
    unfold WorkerPool.step at hreturned ⊢
    split at hreturned
    · cases hreturned
    rename_i hlive
    rw [if_neg hlive]
    show pool.endStop.2.threads = []
    have hend : pool.endStop.1 = .stopReturned := hreturned
    unfold WorkerPool.endStop at hend ⊢
    split at hend
    · cases hend
    rename_i hclearing
    split at hend
    · rename_i hjoined
      rw [if_neg hclearing, if_pos hjoined]
    · cases hend
  have htasks := hnext.idle hthreads
  have hrunning : (pool.step .endStop).2.running = [] := by rw [running, hthreads, List.filterMap_nil]
  refine ⟨htasks, hrunning, ?_⟩
  have hcount := hnext.submitted_eq
  rw [htasks, hrunning] at hcount
  simpa using hcount.symm

/-- Only a start takes the stop flag back. -/
theorem stopping_step {event : PoolStep τ} (hstopping : pool.stopping = true)
    (hstart : ∀ count pendingBound, event ≠ .start count pendingBound) :
    (pool.step event).2.stopping = true := by
  unfold WorkerPool.step
  split
  · exact hstopping
  cases event with
  | start count pendingBound => exact absurd rfl (hstart count pendingBound)
  | submit task =>
      cases task with
      | none => exact hstopping
      | some task =>
          show (pool.submit (some task)).2.stopping = true
          rw [WorkerPool.submit, if_pos hstopping]
          exact hstopping
  | take worker =>
      show (pool.take worker).2.stopping = true
      unfold WorkerPool.take
      split <;> exact hstopping
  | finish worker =>
      show (pool.finish worker).2.stopping = true
      unfold WorkerPool.finish
      split <;> exact hstopping
  | leave worker =>
      show (pool.leave worker).2.stopping = true
      unfold WorkerPool.leave
      split
      · split <;> exact hstopping
      · exact hstopping
  | beginStop => rfl
  | join =>
      show pool.join.2.stopping = true
      unfold WorkerPool.join
      split <;> exact hstopping
  | endStop =>
      show pool.endStop.2.stopping = true
      unfold WorkerPool.endStop
      split
      · exact hstopping
      · split <;> exact hstopping

theorem run_of_terminated (hterminated : pool.terminated = true) (events : List (PoolStep τ)) :
    run WorkerPool.step pool events = pool := by
  induction events with
  | nil => rfl
  | cons event rest ih =>
      have hstep : pool.step event = (.blocked, pool) := if_pos hterminated
      rw [run, hstep]
      exact ih

theorem stopping_run {events : List (PoolStep τ)} (hstopping : pool.stopping = true)
    (hstart : ∀ count pendingBound, PoolStep.start count pendingBound ∉ events) :
    (run WorkerPool.step pool events).stopping = true := by
  induction events generalizing pool with
  | nil => exact hstopping
  | cons event rest ih =>
      refine ih (stopping_step hstopping fun count pendingBound heq => ?_)
        fun count pendingBound hmem => hstart count pendingBound (List.mem_cons_of_mem _ hmem)
      exact hstart count pendingBound (heq ▸ List.mem_cons_self)

theorem submit_of_stopping (hlive : pool.terminated = false) (hstopping : pool.stopping = true)
    (task : Option τ) : ∃ error, (pool.step (.submit task)).1 = .refused error := by
  have hstep : pool.step (.submit task) = pool.submit task := if_neg (by simp [hlive])
  rw [hstep]
  cases task with
  | none => exact ⟨_, rfl⟩
  | some task =>
      rw [WorkerPool.submit, if_pos hstopping]
      exact ⟨_, rfl⟩

/-- After a stop has begun, and until a start, a submission is refused. -/
theorem submit_refused {before between : List (PoolStep τ)}
    (hstart : ∀ count pendingBound, PoolStep.start count pendingBound ∉ between)
    (hlive : (run WorkerPool.step pool (before ++ .beginStop :: between)).terminated = false)
    (task : Option τ) : ∃ error,
    ((run WorkerPool.step pool (before ++ .beginStop :: between)).step (.submit task)).1
      = .refused error := by
  refine submit_of_stopping hlive ?_ task
  rw [run_append] at hlive ⊢
  -- Had the process ended before the stop, it would have ended now.
  have hbefore : ¬ (run WorkerPool.step pool before).terminated = true := by
    intro hterminated
    rw [run_of_terminated hterminated, hterminated] at hlive
    cases hlive
  have hbegin : (run WorkerPool.step pool before).step .beginStop
      = (run WorkerPool.step pool before).beginStop := if_neg hbefore
  have hflag : ((run WorkerPool.step pool before).step .beginStop).2.stopping = true := by
    rw [hbegin]
    rfl
  show (run WorkerPool.step ((run WorkerPool.step pool before).step .beginStop).2
    between).stopping = true
  exact stopping_run hflag hstart

/-! ### Progress -/

/-- How much a worker or a queued task still has to go through. -/
def workLeft (pool : WorkerPool τ) : Nat :=
  2 * pool.tasks.length + (pool.threads.map fun
    | .waiting => 1
    | .running _ => 2
    | _ => 0).sum

/-- A step of a worker. -/
def IsWorkerStep : PoolStep τ → Prop
  | .take _ | .finish _ | .leave _ => True
  | _ => False

/-- Nothing is left to do for the workers: each of their steps is blocked. -/
def WorkersBlocked (pool : WorkerPool τ) : Prop :=
  ∀ event, IsWorkerStep event → (pool.step event).1 = .blocked

/-- From here only workers move, and each step is one that they can make. -/
def WorkersMove (pool : WorkerPool τ) (events : List (PoolStep τ)) : Prop :=
  ∀ entry ∈ trace WorkerPool.step pool events, IsWorkerStep entry.1 ∧ entry.2 ≠ .blocked

/-- What a step of a worker leaves as it is. -/
structure SameStops (pool pool' : WorkerPool τ) : Prop where
  stopping : pool'.stopping = pool.stopping
  joining : pool'.joining = pool.joining
  terminated : pool'.terminated = pool.terminated

/-- A worker that moves moves forward: there is less left to do. -/
theorem workLeft_step {event : PoolStep τ} (hworker : IsWorkerStep event)
    (hmoves : (pool.step event).1 ≠ .blocked) :
    (pool.step event).2.workLeft < pool.workLeft ∧ SameStops pool (pool.step event).2 := by
  unfold WorkerPool.step at hmoves ⊢
  split at hmoves
  · exact absurd rfl hmoves
  rename_i hlive
  rw [if_neg hlive]
  cases event with
  | take worker =>
      dsimp only at hmoves ⊢
      unfold WorkerPool.take at hmoves ⊢
      split at hmoves
      · rename_i task rest hthread htasks
        obtain ⟨before, after, hthreads, hset⟩ := exists_split_of_getElem? hthread
        rw [hset]
        refine ⟨?_, rfl, rfl, rfl⟩
        simp [workLeft, hthreads, htasks]
        omega
      · exact absurd rfl hmoves
  | finish worker =>
      dsimp only at hmoves ⊢
      unfold WorkerPool.finish at hmoves ⊢
      split at hmoves
      · rename_i task hthread
        obtain ⟨before, after, hthreads, hset⟩ := exists_split_of_getElem? hthread
        rw [hset]
        refine ⟨?_, rfl, rfl, rfl⟩
        simp [workLeft, hthreads]
      · exact absurd rfl hmoves
  | leave worker =>
      dsimp only at hmoves ⊢
      unfold WorkerPool.leave at hmoves ⊢
      split at hmoves
      · rename_i hthread htasks
        split at hmoves
        · rename_i hstopping
          obtain ⟨before, after, hthreads, hset⟩ := exists_split_of_getElem? hthread
          rw [if_pos hstopping, hset]
          refine ⟨?_, rfl, rfl, rfl⟩
          simp [workLeft, hthreads, htasks]
        · exact absurd rfl hmoves
      · exact absurd rfl hmoves
  | start count pendingBound => exact hworker.elim
  | submit task => exact hworker.elim
  | beginStop => exact hworker.elim
  | join => exact hworker.elim
  | endStop => exact hworker.elim

/-- Workers left to themselves make at most `workLeft` steps. -/
theorem workLeft_run {events : List (PoolStep τ)} (hmoves : WorkersMove pool events) :
    (run WorkerPool.step pool events).workLeft + events.length ≤ pool.workLeft ∧
      SameStops pool (run WorkerPool.step pool events) := by
  induction events generalizing pool with
  | nil => exact ⟨Nat.le_refl _, rfl, rfl, rfl⟩
  | cons event rest ih =>
      obtain ⟨hworker, hmoved⟩ := hmoves (event, (pool.step event).1) List.mem_cons_self
      obtain ⟨hless, hsame⟩ : (pool.step event).2.workLeft < pool.workLeft ∧
          SameStops pool (pool.step event).2 := workLeft_step hworker hmoved
      obtain ⟨hle, hsame'⟩ := ih fun entry hentry => hmoves entry (List.mem_cons_of_mem _ hentry)
      refine ⟨?_, hsame'.stopping.trans hsame.stopping, hsame'.joining.trans hsame.joining,
        hsame'.terminated.trans hsame.terminated⟩
      rw [List.length_cons, run]
      omega

/-- Workers accept nothing. -/
theorem acceptedTasks_of_move (events : List (PoolStep τ)) {more : List (PoolStep τ)}
    (hmoves : WorkersMove (run WorkerPool.step {} events) more) :
    (trace WorkerPool.step {} (events ++ more)).filterMap acceptedTask?
      = (trace WorkerPool.step {} events).filterMap acceptedTask? := by
  have hnone : (trace WorkerPool.step (run WorkerPool.step {} events) more).filterMap acceptedTask?
      = [] := by
    refine List.filterMap_eq_nil_iff.mpr fun entry hentry => ?_
    obtain ⟨hworker, -⟩ := hmoves entry hentry
    obtain ⟨event, reply⟩ := entry
    cases event <;> first | rfl | exact hworker.elim
  rw [trace_append, List.filterMap_append, hnone, List.append_nil]

/-- Where the workers are blocked, none of them runs a task. -/
theorem WorkersBlocked.running_eq_nil (hblocked : WorkersBlocked pool)
    (hlive : pool.terminated = false) : pool.running = [] := by
  refine List.filterMap_eq_nil_iff.mpr fun w hw => ?_
  obtain ⟨worker, hthread⟩ := List.getElem?_of_mem hw
  cases w with
  | running task =>
      -- It could finish.
      have hfinish := hblocked (.finish worker) trivial
      simp [WorkerPool.step, WorkerPool.finish, hlive, hthread] at hfinish
  | waiting => rfl
  | exited => rfl
  | joined => rfl

/-- Where the workers are blocked, the queue is empty: while there is a task no thread has ended,
and one that waits could take it. -/
theorem WorkersBlocked.tasks_eq_nil (hblocked : WorkersBlocked pool)
    (hlive : pool.terminated = false) (h : Sound history pool) : pool.tasks = [] := by
  by_contra htasks
  obtain ⟨task, rest, hqueue⟩ := List.exists_cons_of_ne_nil htasks
  obtain ⟨w, others, hthreads⟩ := List.exists_cons_of_ne_nil fun hnil => htasks (h.idle hnil)
  have hended : ¬ w.ended = true := fun hended =>
    htasks (h.drained ⟨w, hthreads ▸ List.mem_cons_self, hended⟩).2
  have hrunning := hblocked.running_eq_nil hlive
  cases w with
  | waiting =>
      have htake := hblocked (.take 0) trivial
      simp [WorkerPool.step, WorkerPool.take, hlive, hthreads, hqueue] at htake
  | running task => simp [running, hthreads, Worker.task?] at hrunning
  | exited => exact hended rfl
  | joined => exact hended rfl

/-- Where the workers are blocked although the flag is set, all have ended. -/
theorem WorkersBlocked.ended (hblocked : WorkersBlocked pool) (hlive : pool.terminated = false)
    (hstopping : pool.stopping = true) (h : Sound history pool) :
    ∀ w ∈ pool.threads, w.ended = true := by
  intro w hw
  obtain ⟨worker, hthread⟩ := List.getElem?_of_mem hw
  have htasks := hblocked.tasks_eq_nil hlive h
  cases w with
  | waiting =>
      have hleave := hblocked (.leave worker) trivial
      simp [WorkerPool.step, WorkerPool.leave, hlive, hthread, htasks, hstopping] at hleave
  | running task =>
      have hfinish := hblocked (.finish worker) trivial
      simp [WorkerPool.step, WorkerPool.finish, hlive, hthread] at hfinish
  | exited => rfl
  | joined => rfl

/-- Where the workers are blocked, the completed tasks are the accepted ones. -/
theorem WorkersBlocked.completed (hblocked : WorkersBlocked pool)
    (hlive : pool.terminated = false) (h : Sound history pool) :
    (history.filterMap completedTask?).Perm (history.filterMap acceptedTask?) := by
  have htaken := h.taken
  rw [hblocked.running_eq_nil hlive, List.append_nil] at htaken
  rw [h.accepted, hblocked.tasks_eq_nil hlive h, List.append_nil]
  exact htaken.symm

/-- Where the workers are blocked, a stop that waits for them can join them. -/
theorem WorkersBlocked.join (hblocked : WorkersBlocked pool) (hlive : pool.terminated = false)
    (hstopping : pool.stopping = true) (hjoining : 0 < pool.joining) (h : Sound history pool) :
    (pool.step .join).1 = .done := by
  have hended : pool.threads.all Worker.ended = true :=
    List.all_eq_true.mpr (hblocked.ended hlive hstopping h)
  simp [WorkerPool.step, WorkerPool.join, hlive, hended, hjoining]

/-- In every state a run of a new pool reaches: the tasks submitted are those completed, queued
and running; the queue is within its bound; the accepted tasks are those taken, in order, and the
queue, and the taken ones are those completed and running, each as often as it was accepted; a
stop that returns leaves no task queued or running and every submitted task completed; and a
submission after a stop has begun and before the next start is refused.

The accepted tasks do run: from there the workers can make only so many steps on their own, and
where they can make no more each accepted task was completed, once. A stop that waits for them can
then join them. -/
theorem accepted_work_runs_once (events : List (PoolStep τ)) :
    let pool := run WorkerPool.step {} events
    let history := trace WorkerPool.step {} events
    pool.submitted = pool.completed + pool.tasks.length + pool.running.length ∧
    pool.tasks.length ≤ pool.maxPending ∧
    history.filterMap acceptedTask? = history.filterMap takenTask? ++ pool.tasks ∧
    (history.filterMap takenTask?).Perm (history.filterMap completedTask? ++ pool.running) ∧
    ((pool.step .endStop).1 = .stopReturned →
      (pool.step .endStop).2.tasks = [] ∧ (pool.step .endStop).2.running = [] ∧
        (pool.step .endStop).2.completed = (pool.step .endStop).2.submitted) ∧
    (∀ before between, events = before ++ .beginStop :: between →
      (∀ count pendingBound, PoolStep.start count pendingBound ∉ between) →
      pool.terminated = false →
      ∀ task, ∃ error, (pool.step (.submit task)).1 = .refused error) ∧
    ∀ more, pool.terminated = false → WorkersMove pool more →
      more.length ≤ pool.workLeft ∧
      (WorkersBlocked (run WorkerPool.step pool more) →
        ((trace WorkerPool.step {} (events ++ more)).filterMap completedTask?).Perm
          (history.filterMap acceptedTask?) ∧
        (pool.stopping = true → 0 < pool.joining →
          ((run WorkerPool.step pool more).step .join).1 = .done)) := by
  have hsound := sound_run events
  refine ⟨hsound.submitted_eq, hsound.bounded, hsound.accepted, hsound.taken, hsound.stopReturned,
    ?_, fun more hlive hmoves => ?_⟩
  · rintro before between rfl hstart hlive task
    exact submit_refused hstart hlive task
  · obtain ⟨hle, hsame⟩ := workLeft_run hmoves
    have hmore := sound_run (events ++ more)
    rw [run_append] at hmore
    have hlive' := hsame.terminated.trans hlive
    refine ⟨by omega, fun hblocked => ⟨?_, fun hstopping hjoining => ?_⟩⟩
    · rw [← acceptedTasks_of_move events hmoves]
      exact hblocked.completed hlive' hmore
    · exact hblocked.join hlive' (hsame.stopping.trans hstopping) (by rw [hsame.joining]; exact hjoining)
        hmore

/-- A stop that begins while a task is queued. -/
def stopWithWork : List (PoolStep Nat) := [.start 1 4, .submit (some 7), .beginStop]

/-- The steps of the worker that are left: it runs the task and leaves. -/
def runTheTask : List (PoolStep Nat) := [.take 0, .finish 0, .leave 0]

theorem workersBlocked_stopWithWork :
    WorkersBlocked (run WorkerPool.step (run WorkerPool.step {} stopWithWork) runTheTask) := by
  have hthreads : run WorkerPool.step (run WorkerPool.step {} stopWithWork) runTheTask
      = { threads := [.exited], stopping := true, maxPending := 4, completed := 1, submitted := 1,
          joining := 1 } := by decide
  rw [hthreads]
  -- The only thread is number 0, and it has left its loop.
  intro event hworker
  cases event with
  | take worker => cases worker <;> rfl
  | finish worker => cases worker <;> rfl
  | leave worker => cases worker <;> rfl
  | start count pendingBound => exact hworker.elim
  | submit task => exact hworker.elim
  | beginStop => exact hworker.elim
  | join => exact hworker.elim
  | endStop => exact hworker.elim

/-- The task that was queued when the stop began runs once, the threads can be joined, and another
task is refused. -/
theorem accepted_work_runs_once_stop :
    ((trace WorkerPool.step {} (stopWithWork ++ runTheTask)).filterMap completedTask?).Perm [7] ∧
      ((run WorkerPool.step (run WorkerPool.step {} stopWithWork) runTheTask).step .join).1
        = .done ∧
      ∃ error, ((run WorkerPool.step {} stopWithWork).step (.submit (some 8))).1
        = .refused error := by
  have hmove : WorkersMove (run WorkerPool.step {} stopWithWork) runTheTask := by
    intro entry hentry
    have hall : trace WorkerPool.step (run WorkerPool.step {} stopWithWork) runTheTask
        = [(.take 0, .took 7), (.finish 0, .finished 7), (.leave 0, .done)] := by decide
    rw [hall, List.mem_cons, List.mem_cons, List.mem_singleton] at hentry
    rcases hentry with rfl | rfl | rfl <;> exact ⟨trivial, by decide⟩
  obtain ⟨-, -, -, -, -, hrefused, hprogress⟩ := accepted_work_runs_once stopWithWork
  obtain ⟨-, hdrained⟩ := hprogress runTheTask (by decide) hmove
  obtain ⟨hcompleted, hjoin⟩ := hdrained workersBlocked_stopWithWork
  exact ⟨hcompleted, hjoin (by decide) (by decide),
    hrefused [.start 1 4, .submit (some 7)] [] rfl (by simp) (by decide) (some 8)⟩

end WorkerPool

end CongestionObservatory
