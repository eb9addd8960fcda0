import Azulejo.Intraprocess.Progress
import Azulejo.Properties.PoolJoin

/-!
# Stopping a pool

`Stop` sets `die_` and joins the workers, and neither notifies them nor is `die_` part of the
predicate they wait for. A worker that tested `die_` before goes on to the queue, and comes back to
the test only with a task: once `Stop` has been called, every such worker needs a task of its own.
-/

namespace Azulejo

open Parties Transitions

/-! ## Tasks needed and tasks to come -/

/-- A worker that comes to the next test of `die_` only with a task, while `keepRunning_` is
true. -/
def WorkerPc.needsTask : WorkerPc → Bool
  | checkKeepRunning => true
  | checkHasWork => true
  | acquire => true
  | waiting => true
  | _ => false

/-- A worker in `Post`, behind the test of the flags. -/
def WorkerPc.isPosting : WorkerPc → Bool
  | posting _ _ _ => true
  | _ => false

namespace ThreadPool

/-- The number of workers that need a task. -/
def needy (pool : ThreadPool) : Nat := pool.workers.countP WorkerPc.needsTask

/-- The number of tasks on the queue and of those that are about to be pushed. -/
def available (pool : ThreadPool) : Nat :=
  pool.workQueue.length + pool.posters.length + pool.workers.countP WorkerPc.isPosting

/-- A move of a worker after `Stop` was called changes neither number. -/
theorem Move.balanced {pool : ThreadPool} {a b : WorkerPc} (h : Move pool a b)
    (hdie : pool.die = true) (hkeep : pool.keepRunning = true) (ha : a ≠ .checkHasWork) :
    a.needsTask = b.needsTask ∧ a.isPosting = b.isPosting := by
  cases h with
  | live hoff =>
    rw [hdie] at hoff
    cases hoff
  | leave hoff | proceed hoff =>
    rw [hkeep] at hoff
    cases hoff
  | accept haccepts => exact absurd haccepts (not_accepts_of_die hdie)
  | work | noWork => exact absurd rfl ha
  | die | keep | wait | refuse => exact ⟨rfl, rfl⟩

/-- A worker goes on, and neither number changes. -/
theorem balance_set {workers : List WorkerPc} {i : Nat} {a b : WorkerPc}
    (ha : workers[i]? = some a) (hneeds : a.needsTask = b.needsTask)
    (hposting : a.isPosting = b.isPosting) :
    (workers.set i b).countP WorkerPc.needsTask = workers.countP WorkerPc.needsTask ∧
      (workers.set i b).countP WorkerPc.isPosting = workers.countP WorkerPc.isPosting :=
  ⟨countP_set_eq ha hneeds, countP_set_eq ha hposting⟩

theorem Notified.balanced {workers workers' : List WorkerPc} {k : Nat}
    (h : Notified workers k workers') :
    workers'.countP WorkerPc.needsTask = workers.countP WorkerPc.needsTask ∧
      workers'.countP WorkerPc.isPosting = workers.countP WorkerPc.isPosting := by
  cases h with
  | none hnone => exact ⟨rfl, rfl⟩
  | one hk => exact balance_set hk rfl rfl

/-- A worker goes on without touching the queue. -/
theorem balance_moved {pool pool' : ThreadPool} {i : Nat} {a b : WorkerPc}
    (ha : pool.workers[i]? = some a) (hworkers : pool'.workers = pool.workers.set i b)
    (hqueue : pool'.workQueue = pool.workQueue) (hposters : pool'.posters = pool.posters)
    (hneeds : a.needsTask = b.needsTask) (hposting : a.isPosting = b.isPosting) :
    pool'.needy + pool.available = pool.needy + pool'.available := by
  obtain ⟨hneedsCount, hpostingCount⟩ := balance_set ha hneeds hposting
  simp only [needy, available, hworkers, hqueue, hposters, hneedsCount, hpostingCount]

/-- A worker that takes a task needs none any more, and one that pushes a task leaves it on the
queue: after a call of `Stop` the numbers change together. -/
theorem balance_step {pool pool' : ThreadPool} {event : PoolEvent} (h : Inv pool)
    (hdie : pool.die = true) (hkeep : pool.keepRunning = true)
    (hstep : pool.step event = some pool') :
    pool'.needy + pool.available = pool.needy + pool'.available := by
  cases step_cases hstep with
  | start ha => exact balance_moved ha rfl rfl rfl rfl rfl
  | exit ha hval => exact balance_moved ha rfl rfl rfl rfl rfl
  | move ha hmove =>
    have hchecked : ∀ a ∈ pool.workers, a ≠ .checkHasWork := by
      rintro _ hmem rfl
      exact h.checked hkeep hmem
    obtain ⟨hneeds, hposting⟩ := hmove.balanced hdie hkeep
      (hchecked _ (List.mem_of_getElem? ha))
    exact balance_moved ha rfl rfl rfl hneeds hposting
  | take ha hqueue =>
    rename_i i k task rest
    have hneeds := countP_set_add ha (.running task.number task.task) WorkerPc.needsTask
    have hposting := countP_set_add ha (.running task.number task.task) WorkerPc.isPosting
    simp only [WorkerPc.needsTask, WorkerPc.isPosting, Bool.toNat_true, Bool.toNat_false]
      at hneeds hposting
    simp only [needy, available, hqueue, List.length_cons]
    omega
  | finish ha => exact balance_moved ha rfl rfl rfl rfl rfl
  | pushNested ha hnotified =>
    rename_i i k number task accepted workers
    have ha' := hnotified.getElem? ha nofun
    have hneeds := countP_set_add ha' (.running number accepted) WorkerPc.needsTask
    have hposting := countP_set_add ha' (.running number accepted) WorkerPc.isPosting
    obtain ⟨hneedsEq, hpostingEq⟩ := hnotified.balanced
    simp only [WorkerPc.needsTask, WorkerPc.isPosting, Bool.toNat_true, Bool.toNat_false]
      at hneeds hposting
    simp only [needy, available, List.length_append, List.length_singleton]
    omega
  | wake ha => exact balance_moved ha rfl rfl rfl rfl rfl
  | post hcontroller haccepts => exact absurd haccepts (not_accepts_of_die hdie)
  | push hj hnotified =>
    rename_i j k task workers
    obtain ⟨hneeds, hposting⟩ := hnotified.balanced
    obtain ⟨hlt, -⟩ := List.getElem?_eq_some_iff.mp hj
    simp only [needy, available, hneeds, hposting, List.length_append, List.length_singleton,
      List.length_eraseIdx_of_lt hlt]
    omega
  | join hidle =>
    have hneeds : WorkerPc.needsTask ∘ wakeUp = WorkerPc.needsTask := by
      funext pc
      cases pc <;> rfl
    have hposting : WorkerPc.isPosting ∘ wakeUp = WorkerPc.isPosting := by
      funext pc
      cases pc <;> rfl
    simp only [needy, available, List.countP_map, hneeds, hposting]
  | refuse | constructed | spin | joinReturns | stop | stopReturns => rfl

theorem needy_eq_zero_of_allExited {pool : ThreadPool} (h : AllExited pool) : pool.needy = 0 := by
  rw [needy, List.countP_eq_zero]
  intro pc hpc
  rw [h pc hpc]
  exact Bool.false_ne_true

/-! ## Behind a call of `Stop` -/

theorem die_step {pool pool' : ThreadPool} {event : PoolEvent} (h : pool.die = true)
    (hstep : pool.step event = some pool') : pool'.die = true := by
  cases step_cases hstep with
  | stop hidle => rfl
  | _ => exact h

/-- `Stop` returns only when all workers have ended. -/
theorem stopping_step {pool pool' : ThreadPool} {event : PoolEvent}
    (h : pool.controller = .stopping) (hstep : pool.step event = some pool') :
    AllExited pool' ∨
      (pool'.controller = .stopping ∧ pool'.keepRunning = pool.keepRunning) := by
  have hbusy := not_idle_of_stopping h
  cases step_cases hstep with
  | constructed hcontroller _ | spin hcontroller _ | joinReturns hcontroller _ =>
    rw [h] at hcontroller
    cases hcontroller
  | join hidle => exact absurd hidle hbusy
  | stop hidle => exact absurd hidle hbusy
  | stopReturns hcontroller hexited => exact Or.inl (allExited_iff.mp hexited)
  | start | exit | move | take | finish | pushNested | wake | post | refuse | push =>
    exact Or.inr ⟨h, rfl⟩

/-- What holds behind a call of `Stop` when there were tasks for all workers that needed one. -/
structure Provided (pool : ThreadPool) : Prop where
  inv : Inv pool
  die : pool.die = true
  enough : AllExited pool ∨
    (pool.controller = .stopping ∧ pool.keepRunning = true ∧ pool.needy ≤ pool.available)

theorem provided_step {pool pool' : ThreadPool} {event : PoolEvent} (h : Provided pool)
    (hstep : pool.step event = some pool') : Provided pool' := by
  refine ⟨inv_step h.inv hstep, die_step h.die hstep, ?_⟩
  rcases h.enough with hexited | ⟨hstopping, hkeep, henough⟩
  · exact Or.inl (allExited_step hexited hstep)
  · rcases stopping_step hstopping hstep with hexited | ⟨hstopping', hkeep'⟩
    · exact Or.inl hexited
    · have hbalance := balance_step h.inv h.die hkeep hstep
      exact Or.inr ⟨hstopping', hkeep'.trans hkeep, by omega⟩

/-- What holds behind a call of `Stop` when there were not. -/
structure Starved (pool : ThreadPool) : Prop where
  inv : Inv pool
  die : pool.die = true
  stopping : pool.controller = .stopping
  keepRunning : pool.keepRunning = true
  short : pool.available < pool.needy

theorem starved_step {pool pool' : ThreadPool} {event : PoolEvent} (h : Starved pool)
    (hstep : pool.step event = some pool') : Starved pool' := by
  have hbalance := balance_step h.inv h.die h.keepRunning hstep
  have hshort := h.short
  have hshort' : pool'.available < pool'.needy := by omega
  rcases stopping_step h.stopping hstep with hexited | ⟨hstopping, hkeep⟩
  · rw [needy_eq_zero_of_allExited hexited] at hshort'
    exact absurd hshort' (Nat.not_lt_zero _)
  · exact ⟨inv_step h.inv hstep, die_step h.die hstep, hstopping, hkeep.trans h.keepRunning,
      hshort'⟩

/-! ## At rest -/

/-- No thread of the program can go on, but that a worker may wake up. -/
structure Resting (pool : ThreadPool) : Prop where
  workers : ∀ pc ∈ pool.workers, pc = .waiting ∨ pc = .exited
  posters : pool.posters = []

theorem resting_of_quiet {pool : ThreadPool}
    (h : ∀ event, IsProgress event → pool.step event = none) : Resting pool := by
  constructor
  · intro pc hpc
    by_contra hne
    rw [not_or] at hne
    obtain ⟨i, hi⟩ := List.getElem?_of_mem hpc
    obtain ⟨k, pool', hstep⟩ := worker_enabled hi hne.1 hne.2
    rw [h (.worker i k) trivial] at hstep
    cases hstep
  · cases hposters : pool.posters with
    | nil => rfl
    | cons task rest =>
      obtain ⟨k, pool', hpush⟩ := push_enabled { pool with posters := rest } task
      have hstep : pool.step (.push 0 k) = some pool' := by
        simp only [step, hposters, List.getElem?_cons_zero, List.eraseIdx_cons_zero]
        exact hpush
      rw [h (.push 0 k) trivial] at hstep
      cases hstep

/-- At rest a worker waits only for lack of tasks. -/
theorem Resting.workQueue {pool : ThreadPool} (h : Resting pool) (hinv : Inv pool)
    (hwaiting : .waiting ∈ pool.workers) : pool.workQueue = [] := by
  have hacquire : pool.workers.count .acquire = 0 := by
    rw [List.count_eq_zero]
    intro hmem
    rcases h.workers _ hmem with hpc | hpc <;> cases hpc
  have hlength := hinv.notified hwaiting
  rw [hacquire] at hlength
  exact List.eq_nil_of_length_eq_zero (Nat.le_zero.mp hlength)

theorem Resting.available_eq {pool : ThreadPool} (h : Resting pool) :
    pool.available = pool.workQueue.length := by
  have hposting : pool.workers.countP WorkerPc.isPosting = 0 := by
    rw [List.countP_eq_zero]
    intro pc hpc
    rcases h.workers pc hpc with rfl | rfl <;> exact Bool.false_ne_true
  simp only [available, h.posters, hposting, List.length_nil, Nat.add_zero]

/-- At rest it is the waiting workers that need tasks. -/
theorem Resting.needy_pos_iff {pool : ThreadPool} (h : Resting pool) :
    0 < pool.needy ↔ .waiting ∈ pool.workers := by
  rw [needy, List.countP_pos_iff]
  constructor
  · rintro ⟨pc, hpc, hneeds⟩
    rcases h.workers pc hpc with rfl | rfl
    · exact hpc
    · cases hneeds
  · exact fun hwaiting => ⟨_, hwaiting, rfl⟩

/-! ## `Stop` blocked -/

/-- `Stop` waits for a worker to end, and nothing can happen but that a worker wakes up to wait
again, or that a thread outside calls `Post`, which throws. -/
structure Blocked (pool : ThreadPool) : Prop where
  stopping : pool.controller = .stopping
  left : ¬ AllExited pool
  stuck : ∀ event pool', pool.step event = some pool' →
    (∃ i, event = .wake i ∧ pool'.threadsShouldProceed = false) ∨
      ∃ task, event = .post task ∧ pool' = pool

theorem Blocked.resting {pool : ThreadPool} (h : Blocked pool) : Resting pool := by
  apply resting_of_quiet
  intro event hprogress
  cases hstep : pool.step event with
  | none => rfl
  | some pool' =>
    rcases h.stuck event pool' hstep with ⟨i, rfl, -⟩ | ⟨task, rfl, -⟩ <;> exact hprogress.elim

theorem Provided.not_blocked {pool : ThreadPool} (h : Provided pool) : ¬ Blocked pool := by
  intro hblocked
  have hresting := hblocked.resting
  obtain ⟨-, -, henough⟩ := h.enough.resolve_left hblocked.left
  have hwaiting : .waiting ∈ pool.workers := by
    by_contra hnone
    apply hblocked.left
    intro pc hpc
    refine (hresting.workers pc hpc).resolve_left ?_
    rintro rfl
    exact hnone hpc
  have hpos := hresting.needy_pos_iff.mpr hwaiting
  rw [hresting.available_eq, hresting.workQueue h.inv hwaiting, List.length_nil] at henough
  omega

theorem Starved.blocked {pool : ThreadPool} (h : Starved pool)
    (hquiet : ∀ event, IsProgress event → pool.step event = none) : Blocked pool := by
  have hresting := resting_of_quiet hquiet
  have hwaiting := hresting.needy_pos_iff.mp ((Nat.zero_le _).trans_lt h.short)
  have hqueue := hresting.workQueue h.inv hwaiting
  have hbusy := not_idle_of_stopping h.stopping
  refine ⟨h.stopping, ?_, ?_⟩
  · intro hexited
    cases hexited _ hwaiting
  · intro event pool' hstep
    have hidling : ¬ IsProgress event := by
      intro hprogress
      rw [hquiet event hprogress] at hstep
      cases hstep
    cases step_cases hstep with
    | wake ha =>
      refine Or.inl ⟨_, rfl, ?_⟩
      simp only [threadsShouldProceed, hasWorkThreadUnsafe, h.keepRunning, hqueue]
      rfl
    | post hcontroller haccepts => exact absurd haccepts (not_accepts_of_die h.die)
    | refuse hrefused => exact Or.inr ⟨_, rfl, rfl⟩
    | join hidle => exact absurd hidle hbusy
    | stop hidle => exact absurd hidle hbusy
    | start | exit | move | take | finish | pushNested | push | constructed | spin | joinReturns
    | stopReturns => exact (hidling trivial).elim

/-! ## When `Stop` is called -/

/-- The pool in which `Stop` joins the workers. -/
theorem stop_enabled {pool : ThreadPool} (hidle : pool.idle = true) :
    pool.step .stop = some { pool with die := true, controller := .stopping } := by
  simp only [step, hidle, if_true]

theorem provided_stop {pool : ThreadPool} (h : Inv pool) (hidle : pool.idle = true)
    (henough : pool.needy ≤ pool.available) :
    Provided { pool with die := true, controller := .stopping } := by
  refine ⟨inv_stop h hidle, rfl, ?_⟩
  rcases h.controlled.idle_cases hidle with haccepts | hexited
  · exact Or.inr ⟨rfl, haccepts.1, henough⟩
  · exact Or.inl hexited

theorem starved_stop {pool : ThreadPool} (h : Inv pool) (hidle : pool.idle = true)
    (hshort : pool.available < pool.needy) :
    Starved { pool with die := true, controller := .stopping } := by
  refine ⟨inv_stop h hidle, rfl, rfl, ?_, hshort⟩
  rcases h.controlled.idle_cases hidle with haccepts | hexited
  · exact haccepts.1
  · rw [needy_eq_zero_of_allExited hexited] at hshort
    exact absurd hshort (Nat.not_lt_zero _)

end ThreadPool

open ThreadPool

/-- `Stop` is never blocked exactly when, at the moment of the call, there are as many tasks on the
queue or about to be pushed as there are workers that tested `die_` and have no task yet. -/
theorem stop_not_blocked_iff {n : UInt64} {pool : ThreadPool} (hpool : construct n = .ok pool)
    {events : List PoolEvent} {pool' : ThreadPool} (hrun : after step pool events = some pool')
    (hidle : pool'.idle = true) :
    (∀ later pool'', after step pool' (.stop :: later) = some pool'' → ¬ Blocked pool'') ↔
      pool'.needy ≤ pool'.available := by
  have hinv := inv_reaches hpool ⟨events, hrun⟩
  constructor
  · intro hnever
    by_contra hshort
    rw [Nat.not_le] at hshort
    obtain ⟨later, pool'', -, hlater, hquiet⟩ :=
      exists_rest { pool' with die := true, controller := .stopping }
    have hstarved : Starved pool'' :=
      Reaches.invariant Starved (fun _ _ _ => starved_step) (starved_stop hinv hidle hshort)
        ⟨later, hlater⟩
    refine hnever later pool'' ?_ (hstarved.blocked hquiet)
    rw [after_cons (stop_enabled hidle), hlater]
  · intro henough later pool'' hlater
    rw [after_cons (stop_enabled hidle)] at hlater
    have hprovided : Provided pool'' :=
      Reaches.invariant Provided (fun _ _ _ => provided_step) (provided_stop hinv hidle henough)
        ⟨later, hlater⟩
    exact hprovided.not_blocked

/-- A pool that is stopped while its worker is about to test `die_`. -/
theorem stop_not_blocked_iff_oneWorker :
    ∃ pool', after step oneWorker [.worker 0 0, .constructed] = some pool' ∧
      ((∀ later pool'', after step pool' (.stop :: later) = some pool'' → ¬ Blocked pool'') ↔
        pool'.needy ≤ pool'.available) := by
  have hrun : (after step oneWorker [.worker 0 0, .constructed]).map ThreadPool.idle =
      some true := by
    decide +kernel
  obtain ⟨pool', hpool', hidle⟩ := Option.map_eq_some_iff.mp hrun
  exact ⟨pool', hpool', stop_not_blocked_iff construct_one hpool' hidle⟩

/-- The worker of a pool without tasks comes to wait, and then `Stop` is called. -/
def waitingWorker : List PoolEvent :=
  [.worker 0 0, .constructed, .worker 0 0, .worker 0 0, .worker 0 0, .stop]

/-- `Stop` waits for a worker that nothing wakes but to wait again. -/
theorem waitingWorker_blocked :
    ∃ pool', after step oneWorker waitingWorker = some pool' ∧ Blocked pool' := by
  have hrun : (after step oneWorker waitingWorker).map (fun pool =>
      (pool.die, pool.keepRunning, pool.workQueue, pool.workers, pool.controller, pool.posters)) =
        some (true, true, [], [.waiting], .stopping, []) := rfl
  obtain ⟨pool', hpool', heq⟩ := Option.map_eq_some_iff.mp hrun
  simp only [Prod.mk.injEq] at heq
  obtain ⟨hdie, hkeep, hqueue, hworkers, hcontroller, hposters⟩ := heq
  have hstarved : Starved pool' := by
    refine ⟨inv_reaches construct_one ⟨_, hpool'⟩, hdie, hcontroller, hkeep, ?_⟩
    rw [available, needy, hqueue, hworkers, hposters]
    decide
  refine ⟨pool', hpool', hstarved.blocked ?_⟩
  intro event hprogress
  cases event with
  | worker i k => rcases i with _ | i <;> simp [step, workerStep, hworkers]
  | push j k => simp [step, hposters]
  | constructed | spin | joinReturns => simp [step, hcontroller]
  | stopReturns => simp [step, hcontroller, allExited, hworkers]
  | wake | post | join | stop => exact hprogress.elim

end Azulejo
