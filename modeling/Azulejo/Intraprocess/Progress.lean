import Azulejo.Intraprocess.Specs
import Azulejo.Lib.Parties
import Mathlib.Data.Prod.Lex
import Mathlib.Order.WellFounded

/-!
# The pool comes to rest

Every step of a thread of the program, other than a worker waking up for no reason, makes a
measure smaller: either there is less left to do of the tasks that were accepted or of a call of
the controlling thread, or a worker comes nearer to the place where it takes a task, waits, or
ends.
-/

namespace Azulejo

open Parties

/-! ## What is left to do -/

/-- The work of a task and of all that it may post. -/
def PoolTask.weight : PoolTask → Nat
  | done => 1
  | post task accepted refused => task.weight + accepted.weight + refused.weight + 2

theorem PoolTask.weight_pos (task : PoolTask) : 0 < task.weight := by
  cases task with
  | done => exact Nat.one_pos
  | post task accepted refused => exact Nat.succ_pos _

def WorkerPc.weight : WorkerPc → Nat
  | running _ rest => rest.weight
  | posting _ task accepted => task.weight + accepted.weight + 2
  | _ => 0

def QueuedTask.weight (queued : QueuedTask) : Nat := queued.task.weight + 1

def Controller.weight : Controller → Nat
  | constructing => 1
  | spinning => 2
  | joining => 1
  | stopping => 1
  | _ => 0

/-- The way of a worker to the place where it takes a task, waits or ends. While the queue is
empty and `keepRunning_` is false, the way from the lock leads once more through the condition of
the loop. -/
def WorkerPc.way (keepRunning empty : Bool) : WorkerPc → Nat
  | starting => 6
  | checkDie => 5
  | checkKeepRunning => 4
  | checkHasWork => 3
  | acquire => if !keepRunning && empty then 6 else 2
  | waiting => 1
  | exiting => 1
  | _ => 0

namespace ThreadPool

/-- What is left to do of tasks and calls. -/
def work (pool : ThreadPool) : Nat :=
  (pool.workQueue.map QueuedTask.weight).sum + (pool.workers.map WorkerPc.weight).sum +
    (pool.posters.map fun task => task.weight + 2).sum + pool.controller.weight

/-- What is left to go of the workers' ways. -/
def ways (pool : ThreadPool) : Nat :=
  (pool.workers.map (WorkerPc.way pool.keepRunning pool.workQueue.isEmpty)).sum

/-- The measure. -/
def measure (pool : ThreadPool) : Nat ×ₗ Nat := toLex (pool.work, pool.ways)

/-- Steps of the threads of the program that are no new call and no waking up for no reason. -/
def IsProgress : PoolEvent → Prop
  | .wake _ => False
  | .post _ => False
  | .join => False
  | .stop => False
  | _ => True

theorem measure_lt_of_work {pool pool' : ThreadPool} (h : pool'.work < pool.work) :
    pool'.measure < pool.measure :=
  Prod.Lex.toLex_lt_toLex.mpr (Or.inl h)

theorem measure_lt_of_ways {pool pool' : ThreadPool} (hwork : pool'.work = pool.work)
    (h : pool'.ways < pool.ways) : pool'.measure < pool.measure :=
  Prod.Lex.toLex_lt_toLex.mpr (Or.inr ⟨hwork, h⟩)

/-- A worker that goes nearer with the same work. -/
theorem measure_set_lt {pool pool' : ThreadPool} {i : Nat} {a b : WorkerPc}
    (ha : pool.workers[i]? = some a) (hworkers : pool'.workers = pool.workers.set i b)
    (hkeep : pool'.keepRunning = pool.keepRunning) (hqueue : pool'.workQueue = pool.workQueue)
    (hposters : pool'.posters = pool.posters) (hcontroller : pool'.controller = pool.controller)
    (hweight : b.weight = a.weight)
    (hway : b.way pool.keepRunning pool.workQueue.isEmpty <
      a.way pool.keepRunning pool.workQueue.isEmpty) : pool'.measure < pool.measure := by
  have hwork := sum_map_set_add ha b WorkerPc.weight
  have hways := sum_map_set_add ha b (WorkerPc.way pool.keepRunning pool.workQueue.isEmpty)
  apply measure_lt_of_ways
  · simp only [work, hworkers, hqueue, hposters, hcontroller]
    omega
  · simp only [ways, hworkers, hkeep, hqueue]
    omega

/-- A worker that has less work left. -/
theorem measure_work_lt {pool pool' : ThreadPool} {i : Nat} {a b : WorkerPc}
    (ha : pool.workers[i]? = some a) (hworkers : pool'.workers = pool.workers.set i b)
    (hqueue : pool'.workQueue = pool.workQueue) (hposters : pool'.posters = pool.posters)
    (hcontroller : pool'.controller = pool.controller) (hweight : b.weight < a.weight) :
    pool'.measure < pool.measure := by
  have hwork := sum_map_set_add ha b WorkerPc.weight
  apply measure_lt_of_work
  simp only [work, hworkers, hqueue, hposters, hcontroller]
  omega

theorem measure_move_lt {pool : ThreadPool} {i : Nat} {a b : WorkerPc}
    (ha : pool.workers[i]? = some a) (hmove : Move pool a b) :
    measure { pool with workers := pool.workers.set i b } < pool.measure := by
  cases hmove with
  | accept h =>
    refine measure_work_lt ha rfl rfl rfl rfl ?_
    rename_i number task accepted refused
    have hpos := refused.weight_pos
    simp only [WorkerPc.weight, PoolTask.weight]
    omega
  | refuse h =>
    refine measure_work_lt ha rfl rfl rfl rfl ?_
    simp only [WorkerPc.weight, PoolTask.weight]
    omega
  | keep h =>
    refine measure_set_lt ha rfl rfl rfl rfl rfl rfl ?_
    simp only [WorkerPc.way, h, Bool.not_true, Bool.false_and, Bool.false_eq_true, if_false]
    omega
  | work h =>
    refine measure_set_lt ha rfl rfl rfl rfl rfl rfl ?_
    simp only [WorkerPc.way, List.isEmpty_eq_false_iff.mpr h, Bool.and_false, Bool.false_eq_true,
      if_false]
    omega
  | wait hkeep hqueue =>
    refine measure_set_lt ha rfl rfl rfl rfl rfl rfl ?_
    simp only [WorkerPc.way, hkeep, Bool.not_true, Bool.false_and, Bool.false_eq_true, if_false]
    omega
  | proceed hkeep hqueue =>
    refine measure_set_lt ha rfl rfl rfl rfl rfl rfl ?_
    simp only [WorkerPc.way, hkeep, hqueue, List.isEmpty_nil, Bool.not_false, Bool.and_self,
      if_true]
    omega
  | die | live | leave | noWork =>
    refine measure_set_lt ha rfl rfl rfl rfl rfl rfl ?_
    simp only [WorkerPc.way]
    omega

/-- A notified worker has no work of its own. -/
theorem Notified.weight_eq {workers workers' : List WorkerPc} {k : Nat}
    (h : Notified workers k workers') :
    (workers'.map WorkerPc.weight).sum = (workers.map WorkerPc.weight).sum := by
  cases h with
  | none hnone => rfl
  | one hk =>
    have hsum := sum_map_set_add hk .acquire WorkerPc.weight
    simp only [WorkerPc.weight] at hsum
    omega

theorem measure_take_lt {pool : ThreadPool} {i : Nat} (ha : pool.workers[i]? = some .acquire)
    {task : QueuedTask} {rest : List QueuedTask} (hqueue : pool.workQueue = task :: rest) :
    measure { pool with
      workQueue := rest
      started := pool.started ++ [task.number]
      workers := pool.workers.set i (.running task.number task.task) } < pool.measure := by
  have hwork := sum_map_set_add ha (.running task.number task.task) WorkerPc.weight
  apply measure_lt_of_work
  simp only [WorkerPc.weight] at hwork
  simp only [work, hqueue, List.map_cons, List.sum_cons, QueuedTask.weight]
  omega

theorem measure_push_lt {pool : ThreadPool} {j k : Nat} {task : PoolTask}
    (hj : pool.posters[j]? = some task) {workers : List WorkerPc}
    (hnotified : Notified pool.workers k workers) :
    measure { pool with
      posters := pool.posters.eraseIdx j
      workQueue := pool.workQueue ++ [⟨pool.accepted, task⟩]
      accepted := pool.accepted + 1
      workers := workers } < pool.measure := by
  have hposters := List.getElem_cons_eraseIdx_perm (List.getElem?_eq_some_iff.mp hj).1
  rw [(List.getElem?_eq_some_iff.mp hj).2] at hposters
  have hsum := (hposters.map fun task : PoolTask => task.weight + 2).sum_nat
  apply measure_lt_of_work
  simp only [List.map_cons, List.sum_cons] at hsum
  simp only [work, hnotified.weight_eq, List.map_append, List.sum_append, List.map_cons,
    List.map_nil, List.sum_cons, List.sum_nil, QueuedTask.weight]
  omega

theorem measure_pushNested_lt {pool : ThreadPool} {i k number : Nat} {task accepted : PoolTask}
    (ha : pool.workers[i]? = some (.posting number task accepted)) {workers : List WorkerPc}
    (hnotified : Notified pool.workers k workers) :
    measure { pool with
      workQueue := pool.workQueue ++ [⟨pool.accepted, task⟩]
      accepted := pool.accepted + 1
      workers := workers.set i (.running number accepted) } < pool.measure := by
  have hwork := sum_map_set_add (hnotified.getElem? ha nofun) (.running number accepted)
    WorkerPc.weight
  have hnotifiedWork := hnotified.weight_eq
  apply measure_lt_of_work
  simp only [WorkerPc.weight] at hwork
  simp only [work, List.map_append, List.sum_append, List.map_cons, List.map_nil, List.sum_cons,
    List.sum_nil, QueuedTask.weight]
  omega

/-- A call of the controlling thread comes nearer to its end. -/
theorem measure_controller_lt {pool : ThreadPool} {controller : Controller}
    (h : controller.weight < pool.controller.weight) :
    measure { pool with controller := controller } < pool.measure := by
  apply measure_lt_of_work
  simp only [work]
  omega

theorem measure_lt {pool pool' : ThreadPool} {event : PoolEvent} (hprogress : IsProgress event)
    (hstep : pool.step event = some pool') : pool'.measure < pool.measure := by
  cases step_cases hstep with
  | start ha => exact measure_set_lt ha rfl rfl rfl rfl rfl rfl (Nat.lt_succ_self 5)
  | exit ha hval => exact measure_set_lt ha rfl rfl rfl rfl rfl rfl Nat.one_pos
  | move ha hmove => exact measure_move_lt ha hmove
  | take ha hqueue => exact measure_take_lt ha hqueue
  | finish ha => exact measure_work_lt ha rfl rfl rfl rfl Nat.one_pos
  | pushNested ha hnotified => exact measure_pushNested_lt ha hnotified
  | push hj hnotified => exact measure_push_lt hj hnotified
  | constructed hcontroller _ | spin hcontroller _ | joinReturns hcontroller _
  | stopReturns hcontroller _ =>
    apply measure_controller_lt
    rw [hcontroller]
    decide
  | wake | post | refuse | join | stop => exact hprogress.elim

/-- From any state the threads of the program come to a state in which none of them can go on but
by a worker waking up for no reason. -/
theorem exists_rest (pool : ThreadPool) :
    ∃ events pool', (∀ event ∈ events, IsProgress event) ∧
      Transitions.after step pool events = some pool' ∧
      ∀ event, IsProgress event → pool'.step event = none :=
  Transitions.exists_quiescent measure IsProgress (fun _ _ _ => measure_lt) pool

end ThreadPool

end Azulejo
