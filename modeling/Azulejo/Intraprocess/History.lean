import Azulejo.Intraprocess.Invariants

/-!
# What becomes of the tasks

Tasks are taken from the queue in the order in which they were pushed, and every task that was
taken is either run by one worker or has returned.
-/

namespace Azulejo

open Parties

/-- The task that a worker runs. -/
def WorkerPc.current : WorkerPc → Option Nat
  | running number _ => some number
  | posting number _ _ => some number
  | _ => none

@[simp] theorem WorkerPc.current_wakeUp (pc : WorkerPc) :
    (ThreadPool.wakeUp pc).current = pc.current := by cases pc <;> rfl

namespace ThreadPool

/-- The tasks that were pushed, by their numbers: first those that were taken, then those on the
queue; and of those that were taken, which ones have returned and which are run. -/
structure History (pool : ThreadPool) : Prop where
  order : pool.started ++ pool.workQueue.map QueuedTask.number = List.range pool.accepted
  taken : (pool.executed ++ pool.workers.filterMap WorkerPc.current).Perm pool.started

theorem filterMap_current_set {workers : List WorkerPc} {i : Nat} {a b : WorkerPc}
    (ha : workers[i]? = some a) (hcurrent : a.current = b.current) :
    ((workers.set i b).filterMap WorkerPc.current).Perm (workers.filterMap WorkerPc.current) := by
  have hperm := filterMap_set_perm ha b WorkerPc.current
  rw [hcurrent] at hperm
  exact (List.perm_append_right_iff _).mp hperm

/-- A worker that goes on with the same task, or without one, changes nothing for the tasks. -/
theorem History.shift {pool : ThreadPool} (h : History pool) {workers : List WorkerPc} {i : Nat}
    {a b : WorkerPc} (ha : workers[i]? = some a) (hcurrent : a.current = b.current)
    (hworkers : (workers.filterMap WorkerPc.current).Perm
      (pool.workers.filterMap WorkerPc.current)) :
    (pool.executed ++ (workers.set i b).filterMap WorkerPc.current).Perm pool.started :=
  (((filterMap_current_set ha hcurrent).trans hworkers).append_left _).trans h.taken

theorem Move.current_eq {pool : ThreadPool} {a b : WorkerPc} (h : Move pool a b) :
    a.current = b.current := by
  cases h <;> rfl

theorem Notified.filterMap_current {workers workers' : List WorkerPc} {k : Nat}
    (h : Notified workers k workers') :
    (workers'.filterMap WorkerPc.current).Perm (workers.filterMap WorkerPc.current) := by
  cases h with
  | none hnone => exact List.Perm.refl _
  | one hk => exact filterMap_current_set hk rfl

theorem History.order_push {pool : ThreadPool} (h : History pool) (task : PoolTask) :
    pool.started ++ (pool.workQueue ++ [QueuedTask.mk pool.accepted task]).map QueuedTask.number =
      List.range (pool.accepted + 1) := by
  rw [List.map_append, ← List.append_assoc, h.order, List.range_succ]
  rfl

theorem history_take {pool : ThreadPool} (h : History pool) {i : Nat}
    (ha : pool.workers[i]? = some .acquire) {task : QueuedTask} {rest : List QueuedTask}
    (hqueue : pool.workQueue = task :: rest) :
    History { pool with
      workQueue := rest
      started := pool.started ++ [task.number]
      workers := pool.workers.set i (.running task.number task.task) } := by
  refine ⟨?_, ?_⟩
  · have horder := h.order
    rw [hqueue, List.map_cons] at horder
    rw [List.append_assoc]
    exact horder
  · have hperm := filterMap_set_perm ha (.running task.number task.task) WorkerPc.current
    have hset := (hperm.symm.trans (List.Perm.of_eq (List.append_nil _))).append_left pool.executed
    refine hset.symm.trans ?_
    rw [← List.append_assoc]
    exact h.taken.append_right _

theorem history_finish {pool : ThreadPool} (h : History pool) {i number : Nat}
    (ha : pool.workers[i]? = some (.running number .done)) :
    History { pool with
      executed := pool.executed ++ [number]
      workers := pool.workers.set i .checkDie } := by
  refine ⟨h.order, ?_⟩
  have hperm := filterMap_set_perm ha .checkDie WorkerPc.current
  have hset := (hperm.trans (List.Perm.of_eq (List.append_nil _))).append_left pool.executed
  refine List.Perm.trans ?_ (hset.trans h.taken)
  rw [List.append_assoc]
  exact List.perm_append_comm.append_left _

theorem history_step {pool pool' : ThreadPool} {event : PoolEvent} (h : History pool)
    (hstep : pool.step event = some pool') : History pool' := by
  cases step_cases hstep with
  | start ha => exact ⟨h.order, h.shift ha rfl (List.Perm.refl _)⟩
  | exit ha hval => exact ⟨h.order, h.shift ha rfl (List.Perm.refl _)⟩
  | move ha hmove => exact ⟨h.order, h.shift ha hmove.current_eq (List.Perm.refl _)⟩
  | take ha hqueue => exact history_take h ha hqueue
  | finish ha => exact history_finish h ha
  | pushNested ha hnotified =>
    exact ⟨h.order_push _, h.shift (hnotified.getElem? ha nofun) rfl hnotified.filterMap_current⟩
  | wake ha => exact ⟨h.order, h.shift ha rfl (List.Perm.refl _)⟩
  | push hj hnotified =>
    exact ⟨h.order_push _, (hnotified.filterMap_current.append_left _).trans h.taken⟩
  | join hidle =>
    refine ⟨h.order, ?_⟩
    have hmap : (pool.workers.map wakeUp).filterMap WorkerPc.current =
        pool.workers.filterMap WorkerPc.current := by
      rw [List.filterMap_map]
      exact List.filterMap_congr fun pc _ => WorkerPc.current_wakeUp pc
    show (pool.executed ++ (pool.workers.map wakeUp).filterMap WorkerPc.current).Perm pool.started
    rw [hmap]
    exact h.taken
  | post | refuse | constructed | spin | joinReturns | stop | stopReturns =>
    exact ⟨h.order, h.taken⟩

theorem history_construct {n : UInt64} {pool : ThreadPool} (h : construct n = .ok pool) :
    History pool := by
  unfold construct at h
  split at h
  · cases h
  · cases h
    refine ⟨rfl, ?_⟩
    have hnone : (List.replicate n.toNat WorkerPc.starting).filterMap WorkerPc.current = [] :=
      List.filterMap_eq_nil_iff.mpr fun pc hpc => by rw [List.eq_of_mem_replicate hpc]; rfl
    rw [hnone]
    exact List.Perm.refl _

/-- When all workers have ended, the tasks that were taken have returned. -/
theorem History.executed_perm {pool : ThreadPool} (h : History pool) (hexited : AllExited pool)
    (hqueue : pool.workQueue = []) : pool.executed.Perm (List.range pool.accepted) := by
  have hnone : pool.workers.filterMap WorkerPc.current = [] :=
    List.filterMap_eq_nil_iff.mpr fun pc hpc => by rw [hexited pc hpc]; rfl
  have htaken := h.taken
  have horder := h.order
  rw [hnone, List.append_nil] at htaken
  rw [hqueue, List.map_nil, List.append_nil] at horder
  rw [← horder]
  exact htaken

end ThreadPool

end Azulejo
