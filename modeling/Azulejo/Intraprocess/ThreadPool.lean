import Azulejo.Basic
import Azulejo.Lib.Transitions

/-!
# The thread pool

The workers of a `ThreadPool`, the thread that controls it, and the threads that post tasks to it,
as one transition system. What a thread does while it holds `lock_` is one step, since nothing in
it blocks, and so is each of its reads and writes of the atomics outside of the lock. Two reads
of `Post`, of `keepRunning_` and of `die_`, are one step too: the first can only turn to false
and the second only to true, so whatever `Post` decides it could have decided in one moment.
-/

namespace Azulejo

/-- What a task does until it returns: it posts other tasks, and goes on in one way when `Post`
returns and in another when it throws. -/
inductive PoolTask where
  | done
  | post (task accepted refused : PoolTask)
  deriving DecidableEq

/-- A task on the queue. `number` is its place in the order in which tasks were pushed; the code
does not keep it. -/
structure QueuedTask where
  number : Nat
  task : PoolTask
  deriving DecidableEq

/-- Where a worker is in `RunTask`. -/
inductive WorkerPc where
  /-- In front of `AddToThreadCounter(1)`. -/
  | starting
  /-- In front of the call of `Die` in the condition of the loop. -/
  | checkDie
  /-- In front of the call of `KeepRunning` there. -/
  | checkKeepRunning
  /-- In front of the call of `HasWorkThreadSafe` there. -/
  | checkHasWork
  /-- In front of the lock and the test of `ThreadsShouldProceed` under it. -/
  | acquire
  /-- Waiting on `threadNotifier_`. -/
  | waiting
  /-- In a task, with the rest of it to do. -/
  | running (number : Nat) (rest : PoolTask)
  /-- In a task that calls `Post`, behind the test of the flags. -/
  | posting (number : Nat) (task accepted : PoolTask)
  /-- In front of `AddToThreadCounter(-1)`. -/
  | exiting
  | exited
  deriving DecidableEq

/-- Where the controlling thread is. -/
inductive Controller where
  /-- In the constructor, which waits for the workers to be counted. -/
  | constructing
  /-- Behind the constructor. -/
  | ready
  /-- In `Join`, which waits for the counter to be zero. -/
  | spinning
  /-- In `Join`, which joins the workers. -/
  | joining
  /-- Behind a call of `Join`. -/
  | joined
  /-- In `Stop`, which joins the workers. -/
  | stopping
  /-- Behind a call of `Stop`. -/
  | stopped
  deriving DecidableEq

/-- A pool with its threads. -/
structure ThreadPool where
  numThreads : UInt64
  keepRunning : Bool
  die : Bool
  workQueue : List QueuedTask
  workers : List WorkerPc
  controller : Controller
  /-- The tasks of the threads outside that are in `Post`, behind the test of the flags. -/
  posters : List PoolTask
  /-- The number of tasks that were pushed. -/
  accepted : Nat
  /-- The tasks that were popped, in that order. -/
  started : List Nat
  /-- The tasks that have returned. -/
  executed : List Nat

/-- What happens next. -/
inductive PoolEvent where
  /-- A worker goes on. When it pushes a task, `notified` is the worker that is woken. -/
  | worker (i notified : Nat)
  /-- A worker that waits wakes up although nothing was pushed: for no reason, or because
  `GetTaskCount` notifies it. -/
  | wake (i : Nat)
  /-- A thread outside calls `Post` and tests the flags. -/
  | post (task : PoolTask)
  /-- A thread outside that is in `Post` pushes its task. -/
  | push (j notified : Nat)
  /-- The constructor finds all workers counted. -/
  | constructed
  /-- The controlling thread calls `Join`, which clears the flag and notifies all. -/
  | join
  /-- `Join` finds the counter at zero. -/
  | spin
  | joinReturns
  /-- The controlling thread calls `Stop`, which sets its flag. -/
  | stop
  | stopReturns
  deriving DecidableEq

namespace ThreadPool

/-- The constructor up to the loop that waits: the workers are started. -/
def construct (numThreads : UInt64) : Except Exception ThreadPool :=
  if numThreads = 0 then
    throw (.runtimeError "Cannot construct ThreadPool with 0 threads".toList)
  else
    pure {
      numThreads := 0
      keepRunning := true
      die := false
      workQueue := []
      workers := List.replicate numThreads.toNat .starting
      controller := .constructing
      posters := []
      accepted := 0
      started := []
      executed := [] }

/-- `HasWorkThreadUnsafe`. -/
def hasWorkThreadUnsafe (pool : ThreadPool) : Bool := !pool.workQueue.isEmpty

/-- `ThreadsShouldProceed`. -/
def threadsShouldProceed (pool : ThreadPool) : Bool :=
  !pool.keepRunning || pool.hasWorkThreadUnsafe

/-- `AddToThreadCounter`. -/
def addToThreadCounter (pool : ThreadPool) (val : UInt64) : ThreadPool :=
  { pool with numThreads := pool.numThreads + val }

def setWorker (pool : ThreadPool) (i : Nat) (pc : WorkerPc) : ThreadPool :=
  { pool with workers := pool.workers.set i pc }

/-! ## Notifying -/

/-- A worker that was notified takes the lock again. -/
def wakeUp : WorkerPc → WorkerPc
  | .waiting => .acquire
  | pc => pc

/-- `notify_one`: a worker that waits, if there is one, wakes up. -/
def notifyOne (pool : ThreadPool) (notified : Nat) : Option ThreadPool :=
  if .waiting ∈ pool.workers then
    if pool.workers[notified]? = some .waiting then some (pool.setWorker notified .acquire)
    else none
  else some pool

/-- `notify_all`. -/
def notifyAll (pool : ThreadPool) : ThreadPool :=
  { pool with workers := pool.workers.map wakeUp }

/-! ## Posting -/

/-- The test of the flags in `Post`. -/
def checkPost (pool : ThreadPool) : Except Exception Unit :=
  if !pool.keepRunning || pool.die then
    throw (.runtimeError "Cannot post tasks on ThreadPool because it has been stopped".toList)
  else pure ()

/-- The part of `Post` under the lock. -/
def push (pool : ThreadPool) (task : PoolTask) (notified : Nat) : Option ThreadPool :=
  notifyOne
    { pool with
      workQueue := pool.workQueue ++ [⟨pool.accepted, task⟩]
      accepted := pool.accepted + 1 } notified

/-! ## Workers -/

/-- The part of the loop of `RunTask` under the lock, of a worker that has got the lock: it waits,
or it takes the task at the front of the queue if there is one. -/
def takeTask (pool : ThreadPool) (i : Nat) : ThreadPool :=
  if pool.threadsShouldProceed then
    match pool.workQueue with
    | [] => pool.setWorker i .checkDie
    | task :: rest =>
      { pool with
        workQueue := rest
        started := pool.started ++ [task.number] }.setWorker i (.running task.number task.task)
  else pool.setWorker i .waiting

/-- What worker `i` does next. -/
def workerStep (pool : ThreadPool) (i notified : Nat) : Option ThreadPool :=
  match pool.workers[i]? with
  | none => none
  | some .starting => some ((pool.addToThreadCounter 1).setWorker i .checkDie)
  | some .checkDie => some (pool.setWorker i (if pool.die then .exiting else .checkKeepRunning))
  | some .checkKeepRunning =>
    some (pool.setWorker i (if pool.keepRunning then .acquire else .checkHasWork))
  | some .checkHasWork =>
    some (pool.setWorker i (if pool.hasWorkThreadUnsafe then .acquire else .exiting))
  | some .acquire => some (pool.takeTask i)
  | some .waiting => none
  | some (.running number .done) =>
    some ({ pool with executed := pool.executed ++ [number] }.setWorker i .checkDie)
  | some (.running number (.post task accepted refused)) =>
    match pool.checkPost with
    | .ok () => some (pool.setWorker i (.posting number task accepted))
    | .error _ => some (pool.setWorker i (.running number refused))
  | some (.posting number task accepted) =>
    (pool.push task notified).map fun pool => pool.setWorker i (.running number accepted)
  | some .exiting => some ((pool.addToThreadCounter (0 - 1)).setWorker i .exited)
  | some .exited => none

/-! ## Steps -/

/-- The controlling thread is in no call. -/
def idle (pool : ThreadPool) : Bool :=
  pool.controller = .ready ∨ pool.controller = .joined ∨ pool.controller = .stopped

/-- All threads of the pool have ended. -/
def allExited (pool : ThreadPool) : Bool := pool.workers.all fun pc => pc = .exited

def step (pool : ThreadPool) : PoolEvent → Option ThreadPool
  | .worker i notified => pool.workerStep i notified
  | .wake i =>
    if pool.workers[i]? = some .waiting then some (pool.setWorker i .acquire) else none
  | .post task =>
    if pool.controller = .constructing then none
    else match pool.checkPost with
      | .ok () => some { pool with posters := pool.posters ++ [task] }
      | .error _ => some pool
  | .push j notified =>
    match pool.posters[j]? with
    | none => none
    | some task => { pool with posters := pool.posters.eraseIdx j }.push task notified
  | .constructed =>
    if pool.controller = .constructing ∧ pool.numThreads.toNat = pool.workers.length then
      some { pool with controller := .ready }
    else none
  | .join =>
    if pool.idle then
      some { pool.notifyAll with keepRunning := false, controller := .spinning }
    else none
  | .spin =>
    if pool.controller = .spinning ∧ ¬ pool.numThreads > 0 then
      some { pool with controller := .joining }
    else none
  | .joinReturns =>
    if pool.controller = .joining ∧ pool.allExited then some { pool with controller := .joined }
    else none
  | .stop => if pool.idle then some { pool with die := true, controller := .stopping } else none
  | .stopReturns =>
    if pool.controller = .stopping ∧ pool.allExited then some { pool with controller := .stopped }
    else none

end ThreadPool

end Azulejo
