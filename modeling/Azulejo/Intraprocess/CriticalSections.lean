import Azulejo.Intraprocess.ThreadPool

/-!
# The lock of the thread pool

In `ThreadPool` what a thread does while it holds `lock_` is one step. Here it is a step to take
the lock, one for each access to what the lock guards or notification, and one to release it; the
other threads go on in between as far as they do not need the lock. At most one thread holds the
lock, so it is enough to say of that thread where it is. The worker it may be still has the place in
front of the lock, or already the one behind it.
-/

namespace Azulejo

/-- Where a worker is that holds `lock_`. -/
inductive WorkerSection where
  /-- In `AddToThreadCounter`, in front of `load`; behind the call the worker is at `next`. -/
  | load (val : UInt64) (next : WorkerPc)
  /-- In `AddToThreadCounter`, in front of `store`. -/
  | store (val loaded : UInt64) (next : WorkerPc)
  /-- In `HasWorkThreadSafe`. -/
  | hasWork
  /-- In `ThreadsShouldProceed`, in front of `KeepRunning`. -/
  | keepRunning
  /-- In `ThreadsShouldProceed`, in front of `HasWorkThreadUnsafe`. -/
  | shouldProceed
  /-- Behind the wait, in front of `HasWorkThreadUnsafe`. -/
  | proceeded
  | popWorkQueue
  /-- In `Post`, in front of the push. -/
  | push (number : Nat) (task accepted : PoolTask)
  /-- In `Post`, behind the push and in front of `notify_one`. -/
  | notifyOne (number : Nat) (accepted : PoolTask)
  /-- In front of the end of the block with the lock. -/
  | release
  deriving DecidableEq

/-- The thread that holds `lock_`. -/
inductive Holder where
  | worker (i : Nat) (place : WorkerSection)
  /-- A thread outside in `Post`: the one with this place in `posters`. -/
  | poster (j : Nat)
  /-- That thread behind its push, in front of `notify_one`. -/
  | pushed (j : Nat)
  /-- A thread outside in `Post`, behind `notify_one`. -/
  | posted
  /-- The controlling thread in `Join`, in front of the store. -/
  | join
  /-- The controlling thread in `Join`, behind the store and in front of `notify_all`. -/
  | stored
  /-- The controlling thread in `Join`, behind `notify_all`. -/
  | notified
  deriving DecidableEq

/-- A pool and the holder of its lock. -/
structure LockedPool where
  pool : ThreadPool
  holder : Option Holder

/-- What happens next. -/
inductive LockEvent where
  /-- A worker goes on. -/
  | worker (i notified : Nat)
  | wake (i : Nat)
  | post (task : PoolTask)
  /-- A thread outside that is in `Post` takes the lock. -/
  | lockPost (j : Nat)
  /-- It pushes its task. -/
  | push
  /-- It calls `notify_one`. -/
  | notifyOne (notified : Nat)
  | unlockPost
  | constructed
  /-- The controlling thread calls `Join` and takes the lock. -/
  | lockJoin
  /-- It clears the flag. -/
  | join
  /-- It calls `notify_all`. -/
  | notifyAll
  | unlockJoin
  | spin
  | joinReturns
  | stop
  | stopReturns
  deriving DecidableEq

/-- `push` of the queue alone. -/
def ThreadPool.enqueue (pool : ThreadPool) (task : PoolTask) : ThreadPool :=
  { pool with
    workQueue := pool.workQueue ++ [⟨pool.accepted, task⟩]
    accepted := pool.accepted + 1 }

namespace LockedPool

/-- The constructor up to the loop that waits. -/
def construct (numThreads : UInt64) : Except Exception LockedPool := do
  let pool ← ThreadPool.construct numThreads
  return ⟨pool, none⟩

/-- A thread takes the lock, when nobody holds it. -/
def enter (s : LockedPool) (holder : Holder) : Option LockedPool :=
  if s.holder = none then some { s with holder := some holder } else none

/-- Something happens to the pool that needs no lock. -/
def unguarded (s : LockedPool) (event : PoolEvent) : Option LockedPool :=
  (s.pool.step event).map fun pool => { s with pool := pool }

/-! ## Workers -/

/-- What worker `i` does next while it holds the lock. -/
def sectionStep (pool : ThreadPool) (i notified : Nat) : WorkerSection → Option LockedPool
  | .load val next => some ⟨pool, some (.worker i (.store val pool.numThreads next))⟩
  | .store val loaded next =>
    some ⟨{ pool with numThreads := loaded + val }.setWorker i next, some (.worker i .release)⟩
  | .hasWork =>
    some ⟨pool.setWorker i (if pool.hasWorkThreadUnsafe then .acquire else .exiting),
      some (.worker i .release)⟩
  | .keepRunning =>
    some ⟨pool, some (.worker i (if !pool.keepRunning then .proceeded else .shouldProceed))⟩
  | .shouldProceed =>
    if pool.hasWorkThreadUnsafe then some ⟨pool, some (.worker i .proceeded)⟩
    -- the wait gives the lock back
    else some ⟨pool.setWorker i .waiting, none⟩
  | .proceeded =>
    if pool.hasWorkThreadUnsafe then some ⟨pool, some (.worker i .popWorkQueue)⟩
    else some ⟨pool.setWorker i .checkDie, some (.worker i .release)⟩
  | .popWorkQueue =>
    match pool.workQueue with
    -- `front` of an empty queue is undefined
    | [] => none
    | task :: rest =>
      some ⟨{ pool with
        workQueue := rest
        started := pool.started ++ [task.number] }.setWorker i (.running task.number task.task),
        some (.worker i .release)⟩
  | .push number task accepted =>
    some ⟨pool.enqueue task, some (.worker i (.notifyOne number accepted))⟩
  | .notifyOne number accepted =>
    (pool.notifyOne notified).map fun pool =>
      ⟨pool.setWorker i (.running number accepted), some (.worker i .release)⟩
  | .release => some ⟨pool, none⟩

/-- The block with the lock that a worker is in front of. -/
def entrance : WorkerPc → Option WorkerSection
  | .starting => some (.load 1 .checkDie)
  | .checkHasWork => some .hasWork
  | .acquire => some .keepRunning
  | .posting number task accepted => some (.push number task accepted)
  | .exiting => some (.load (0 - 1) .exited)
  | _ => none

/-- What worker `i` does next while it does not hold the lock. -/
def outsideStep (s : LockedPool) (i : Nat) : Option LockedPool :=
  match s.pool.workers[i]?.bind entrance with
  | some place => s.enter (.worker i place)
  | none => s.unguarded (.worker i 0)

/-- What worker `i` does next. -/
def workerStep (s : LockedPool) (i notified : Nat) : Option LockedPool :=
  match s.holder with
  | some (.worker j place) =>
    if j = i then sectionStep s.pool i notified place else s.outsideStep i
  | _ => s.outsideStep i

/-! ## The controlling thread -/

/-- The controlling thread holds the lock. -/
def joinHolds (s : LockedPool) : Bool :=
  s.holder = some .join ∨ s.holder = some .stored ∨ s.holder = some .notified

/-- A worker holds the lock. -/
def workerHolds (s : LockedPool) : Bool :=
  match s.holder with
  | some (.worker _ _) => true
  | _ => false

/-! ## Steps -/

def step (s : LockedPool) : LockEvent → Option LockedPool
  | .worker i notified => s.workerStep i notified
  | .wake i => s.unguarded (.wake i)
  | .post task => s.unguarded (.post task)
  | .lockPost j => if j < s.pool.posters.length then s.enter (.poster j) else none
  | .push =>
    match s.holder with
    | some (.poster j) =>
      s.pool.posters[j]?.map fun task => ⟨s.pool.enqueue task, some (.pushed j)⟩
    | _ => none
  | .notifyOne notified =>
    match s.holder with
    | some (.pushed j) =>
      ({ s.pool with posters := s.pool.posters.eraseIdx j }.notifyOne notified).map fun pool =>
        ⟨pool, some .posted⟩
    | _ => none
  | .unlockPost => if s.holder = some .posted then some { s with holder := none } else none
  | .constructed => s.unguarded .constructed
  | .lockJoin => if s.pool.idle then s.enter .join else none
  | .join =>
    if s.holder = some .join then
      some ⟨{ s.pool with keepRunning := false, controller := .spinning }, some .stored⟩
    else none
  | .notifyAll =>
    if s.holder = some .stored then some ⟨s.pool.notifyAll, some .notified⟩ else none
  | .unlockJoin => if s.holder = some .notified then some { s with holder := none } else none
  | .spin => if s.joinHolds then none else s.unguarded .spin
  -- a thread that is joined has left its last block
  | .joinReturns => if s.workerHolds then none else s.unguarded .joinReturns
  | .stop => if s.joinHolds then none else s.unguarded .stop
  | .stopReturns => if s.workerHolds then none else s.unguarded .stopReturns

end LockedPool

end Azulejo
