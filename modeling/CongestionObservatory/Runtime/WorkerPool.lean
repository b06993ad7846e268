import CongestionObservatory.Core.Basic

/-!
# `CongestionObservatory.Runtime.WorkerPool`: the bounded worker pool

`Runtime::WorkerPool` (`runtime/runtime.cpp`) runs tasks on a fixed number of threads. The
threads share the pool under one mutex, so a run is an interleaving of critical sections and
each of them is one step here: a submission, a worker that takes a task, a worker that leaves
its loop, the two ends of a stop, a start. A worker that counts its task as completed is a step
of its own, since the mutex is not held then.

A step that a thread cannot make in a state is `blocked`: the thread waits. A worker waits on
the condition variable while there is neither a task nor the stop flag, and a stop waits in its
joins. The joins read `threads` without the mutex and are one step of the stop. Several stops
and starts may overlap. A stop that finds threads it has not joined when it clears the vector
destroys a joinable thread, which ends the process: the pool is `terminated` and nothing moves
any more. Tasks that throw and threads that cannot be created are not part of the model.
-/

set_option autoImplicit false

namespace CongestionObservatory

/-- Where a worker thread is. -/
inductive Worker (τ : Type) where
  /-- In `worker_loop`, before or at the wait. -/
  | waiting
  /-- Outside the lock, with the task it took. -/
  | running (task : τ)
  /-- `worker_loop` has returned. -/
  | exited
  /-- A stop has joined the thread. -/
  | joined
  deriving DecidableEq, Repr

namespace Worker

variable {τ : Type}

/-- The task a worker runs. -/
def task? : Worker τ → Option τ
  | running task => some task
  | _ => none

/-- The thread function has returned. -/
def ended : Worker τ → Bool
  | exited | joined => true
  | _ => false

/-- The thread has been joined, so that it can be destroyed. -/
def isJoined : Worker τ → Bool
  | joined => true
  | _ => false

end Worker

/-- `Runtime::WorkerPool`. `joining` counts the calls of `stop` that have set the flag and not
yet joined the threads, `clearing` those that have joined them and not yet returned. -/
structure WorkerPool (τ : Type) where
  tasks : List τ := []
  threads : List (Worker τ) := []
  stopping : Bool := false
  maxPending : Nat := 0
  completed : Nat := 0
  rejected : Nat := 0
  submitted : Nat := 0
  joining : Nat := 0
  clearing : Nat := 0
  terminated : Bool := false
  deriving DecidableEq, Repr

/-- A step of a thread that uses the pool. An empty `std::function` is no task. -/
inductive PoolStep (τ : Type) where
  | start (count pendingBound : Nat)
  | submit (task : Option τ)
  | take (worker : Nat)
  | finish (worker : Nat)
  | leave (worker : Nat)
  | beginStop
  | join
  | endStop
  deriving DecidableEq, Repr

/-- What a step answers. -/
inductive PoolReply (τ : Type) where
  | done
  | accepted
  | refused (error : Error)
  | took (task : τ)
  | finished (task : τ)
  | stopReturned
  | terminated
  | blocked
  deriving DecidableEq, Repr

namespace WorkerPool

variable {τ : Type} (pool : WorkerPool τ)

/-- The tasks that were taken and are not counted as completed. -/
def running : List τ := pool.threads.filterMap Worker.task?

/-- `start`. -/
def start (count pendingBound : Nat) : PoolReply τ × WorkerPool τ :=
  if pool.threads.isEmpty then
    (.done,
      { pool with
        stopping := false
        maxPending := pendingBound
        threads := List.replicate count .waiting })
  else (.done, pool)

/-- The refusal of a task that is counted. -/
def reject (error : Error) : PoolReply τ × WorkerPool τ :=
  (.refused error, { pool with rejected := pool.rejected + 1 })

/-- `submit`. -/
def submit : Option τ → PoolReply τ × WorkerPool τ
  | none => (.refused (makeError .invalidArgument "empty task submitted"), pool)
  | some task =>
    if pool.stopping then
      pool.reject (makeError .shuttingDown "worker pool is shutting down")
    else if pool.threads.isEmpty then
      pool.reject (makeError .unsupported "worker pool is not running")
    else if pool.tasks.length ≥ pool.maxPending then
      pool.reject (makeError .queueFull "worker queue is full" (decimal pool.tasks.length))
    else
      (.accepted, { pool with tasks := pool.tasks ++ [task], submitted := pool.submitted + 1 })

/-- The critical section of `worker_loop` when there is a task. -/
def take (worker : Nat) : PoolReply τ × WorkerPool τ :=
  match pool.threads[worker]?, pool.tasks with
  | some .waiting, task :: rest =>
    (.took task, { pool with threads := pool.threads.set worker (.running task), tasks := rest })
  | _, _ => (.blocked, pool)

/-- The end of a task: it is counted, and the worker goes back to its loop. -/
def finish (worker : Nat) : PoolReply τ × WorkerPool τ :=
  match pool.threads[worker]? with
  | some (.running task) =>
    (.finished task,
      { pool with
        threads := pool.threads.set worker .waiting
        completed := pool.completed + 1 })
  | _ => (.blocked, pool)

/-- The critical section of `worker_loop` when there is no task: with the stop flag the worker
returns, without it the wait goes on. -/
def leave (worker : Nat) : PoolReply τ × WorkerPool τ :=
  match pool.threads[worker]?, pool.tasks with
  | some .waiting, [] =>
    if pool.stopping then (.done, { pool with threads := pool.threads.set worker .exited })
    else (.blocked, pool)
  | _, _ => (.blocked, pool)

/-- The first critical section of `stop`. -/
def beginStop : PoolReply τ × WorkerPool τ :=
  (.done, { pool with stopping := true, joining := pool.joining + 1 })

/-- The joins of `stop`. -/
def join : PoolReply τ × WorkerPool τ :=
  if pool.joining > 0 ∧ pool.threads.all Worker.ended then
    (.done,
      { pool with
        threads := pool.threads.map fun _ => .joined
        joining := pool.joining - 1
        clearing := pool.clearing + 1 })
  else (.blocked, pool)

/-- The last critical section of `stop`. -/
def endStop : PoolReply τ × WorkerPool τ :=
  if pool.clearing = 0 then (.blocked, pool)
  else if pool.threads.all Worker.isJoined then
    (.stopReturned, { pool with threads := [], clearing := pool.clearing - 1 })
  else (.terminated, { pool with terminated := true })

/-- One step of one thread. -/
def step (event : PoolStep τ) : PoolReply τ × WorkerPool τ :=
  if pool.terminated then (.blocked, pool)
  else match event with
  | .start count pendingBound => pool.start count pendingBound
  | .submit task => pool.submit task
  | .take worker => pool.take worker
  | .finish worker => pool.finish worker
  | .leave worker => pool.leave worker
  | .beginStop => pool.beginStop
  | .join => pool.join
  | .endStop => pool.endStop

end WorkerPool

end CongestionObservatory
