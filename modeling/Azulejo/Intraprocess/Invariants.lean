import Azulejo.Intraprocess.Specs
import Azulejo.Lib.Parties

/-!
# What holds of a pool at any time

The counter is the number of workers between their two calls of `AddToThreadCounter`. No worker
leaves before one of the flags says so, no worker waits once `Join` has cleared `keepRunning_`,
and as long as one waits there are enough workers on their way to the queue for all the tasks on
it.
-/

namespace Azulejo

open Parties

/-! ## Kinds of places -/

namespace WorkerPc

/-- Between the two calls of `AddToThreadCounter`. -/
def isCounted : WorkerPc → Bool
  | starting => false
  | exited => false
  | _ => true

/-- Not behind the loop. -/
def inLoop : WorkerPc → Bool
  | exiting => false
  | exited => false
  | _ => true

@[simp] theorem isCounted_wakeUp (pc : WorkerPc) :
    (ThreadPool.wakeUp pc).isCounted = pc.isCounted := by cases pc <;> rfl

@[simp] theorem wakeUp_ne_waiting (pc : WorkerPc) : ThreadPool.wakeUp pc ≠ waiting := by
  cases pc <;> exact WorkerPc.noConfusion

end WorkerPc

namespace ThreadPool

def AllExited (pool : ThreadPool) : Prop := ∀ pc ∈ pool.workers, pc = .exited

theorem allExited_iff {pool : ThreadPool} : pool.allExited = true ↔ AllExited pool := by
  simp only [allExited, AllExited, List.all_eq_true, decide_eq_true_eq]

/-- What the place of the controlling thread says about the flags and the workers. -/
def Controlled (pool : ThreadPool) : Prop :=
  match pool.controller with
  | .constructing => Accepts pool
  | .ready => Accepts pool
  | .spinning => pool.keepRunning = false
  | .joining => AllExited pool
  | .joined => AllExited pool
  | .stopping => pool.die = true ∧ (pool.keepRunning = true ∨ AllExited pool)
  | .stopped => AllExited pool

/-- What is said at the place where the controlling thread is. -/
theorem Controlled.at_place {pool : ThreadPool} (h : Controlled pool) {controller : Controller}
    (hcontroller : pool.controller = controller) :
    Controlled { pool with controller := controller } := by
  subst hcontroller
  exact h

/-- The controlling thread is in no call: either the pool accepts tasks, or its workers have
ended. -/
theorem Controlled.idle_cases {pool : ThreadPool} (h : Controlled pool)
    (hidle : pool.idle = true) : Accepts pool ∨ AllExited pool := by
  rcases (of_decide_eq_true hidle : _ ∨ _ ∨ _) with hi | hi | hi
  · exact Or.inl (h.at_place hi)
  · exact Or.inr (h.at_place hi)
  · exact Or.inr (h.at_place hi)

theorem not_idle_of_stopping {pool : ThreadPool} (h : pool.controller = .stopping) :
    pool.idle ≠ true := by
  simp only [idle, h]
  decide

theorem constructed_of_idle {pool : ThreadPool} (h : pool.idle = true) :
    pool.controller ≠ .constructing := by
  intro hc
  simp only [idle, hc] at h
  exact absurd h (by decide)

/-- The invariant of a pool. -/
structure Inv (pool : ThreadPool) : Prop where
  small : pool.workers.length < 2 ^ 64
  counter : pool.numThreads.toNat = pool.workers.countP WorkerPc.isCounted
  begun : pool.controller ≠ .constructing → .starting ∉ pool.workers
  staying : Accepts pool → ∀ pc ∈ pool.workers, pc.inLoop = true
  awake : pool.keepRunning = false → .waiting ∉ pool.workers
  checked : pool.keepRunning = true → .checkHasWork ∉ pool.workers
  notified : .waiting ∈ pool.workers → pool.workQueue.length ≤ pool.workers.count .acquire
  controlled : Controlled pool

/-! ## One worker -/

/-- What is true of each change of place of a worker that does not take a task. -/
structure Shift (pool : ThreadPool) (a b : WorkerPc) : Prop where
  starting : b ≠ .starting
  exited : a ≠ .exited
  waiting : b = .waiting → pool.keepRunning = true ∧ pool.workQueue = []
  checkHasWork : b = .checkHasWork → pool.keepRunning = false
  leaves : b.inLoop = false → Accepts pool → a.inLoop = false ∨ a = .checkHasWork
  acquire : a = .acquire → pool.workQueue = []

theorem Move.shift {pool : ThreadPool} {a b : WorkerPc} (h : Move pool a b) : Shift pool a b := by
  cases h with
  | die h =>
    refine ⟨nofun, nofun, nofun, nofun, fun _ haccepts => ?_, nofun⟩
    rw [haccepts.2] at h
    cases h
  | live h => exact ⟨nofun, nofun, nofun, nofun, nofun, nofun⟩
  | keep h => exact ⟨nofun, nofun, nofun, nofun, nofun, nofun⟩
  | leave h => exact ⟨nofun, nofun, nofun, fun _ => h, nofun, nofun⟩
  | work h => exact ⟨nofun, nofun, nofun, nofun, nofun, nofun⟩
  | noWork h => exact ⟨nofun, nofun, nofun, nofun, fun _ _ => Or.inr rfl, nofun⟩
  | wait hkeep hqueue =>
    exact ⟨nofun, nofun, fun _ => ⟨hkeep, hqueue⟩, nofun, nofun, fun _ => hqueue⟩
  | proceed hkeep hqueue => exact ⟨nofun, nofun, nofun, nofun, nofun, fun _ => hqueue⟩
  | accept h => exact ⟨nofun, nofun, nofun, nofun, nofun, nofun⟩
  | refuse h => exact ⟨nofun, nofun, nofun, nofun, nofun, nofun⟩

theorem shift_finished (pool : ThreadPool) (number : Nat) :
    Shift pool (.running number .done) .checkDie :=
  ⟨nofun, nofun, nofun, nofun, nofun, nofun⟩

theorem shift_woken (pool : ThreadPool) : Shift pool .waiting .acquire :=
  ⟨nofun, nofun, nofun, nofun, nofun, nofun⟩

theorem shift_posted (pool : ThreadPool) (number : Nat) (task accepted : PoolTask) :
    Shift pool (.posting number task accepted) (.running number accepted) :=
  ⟨nofun, nofun, nofun, nofun, nofun, nofun⟩

/-- The controlling thread sees no change of place before all workers have ended. -/
theorem Controlled.moved {pool pool' : ThreadPool} (h : Controlled pool) {i : Nat}
    {a : WorkerPc} (ha : pool.workers[i]? = some a) (hexited : a ≠ .exited)
    (hkeep : pool'.keepRunning = pool.keepRunning) (hdie : pool'.die = pool.die)
    (hcontroller : pool'.controller = pool.controller) : Controlled pool' := by
  have hnot : ¬ AllExited pool := fun hall => hexited (hall a (List.mem_of_getElem? ha))
  unfold Controlled at h ⊢
  unfold Accepts at h ⊢
  rw [hkeep, hdie, hcontroller]
  cases hc : pool.controller with
  | constructing | ready | spinning => simpa only [hc] using h
  | joining | joined | stopped => exact absurd (by simpa only [hc] using h) hnot
  | stopping =>
    simp only [hc] at h ⊢
    exact ⟨h.1, Or.inl (h.2.resolve_right hnot)⟩

/-- A worker changes its place, and enough of those that wait for the queue are left. -/
theorem Inv.changed {pool pool' : ThreadPool} (h : Inv pool) {i : Nat} {a b : WorkerPc}
    (ha : pool.workers[i]? = some a) (hstarting : b ≠ .starting) (hexited : a ≠ .exited)
    (hwaiting : b = .waiting → pool.keepRunning = true)
    (hcheckHasWork : b = .checkHasWork → pool.keepRunning = false)
    (hleaves : b.inLoop = false → Accepts pool → a.inLoop = false ∨ a = .checkHasWork)
    (hworkers : pool'.workers = pool.workers.set i b)
    (hcounter : pool'.numThreads.toNat = pool'.workers.countP WorkerPc.isCounted)
    (hkeep : pool'.keepRunning = pool.keepRunning) (hdie : pool'.die = pool.die)
    (hcontroller : pool'.controller = pool.controller)
    (hnotified : .waiting ∈ pool'.workers →
      pool'.workQueue.length ≤ pool'.workers.count .acquire) : Inv pool' := by
  have hmem := List.mem_of_getElem? ha
  refine ⟨?_, hcounter, ?_, ?_, ?_, ?_, hnotified, ?_⟩
  · rw [hworkers, List.length_set]
    exact h.small
  · rw [hcontroller, hworkers]
    intro hc hin
    exact h.begun hc (mem_of_mem_set hin hstarting.symm)
  · unfold Accepts
    rw [hkeep, hdie, hworkers]
    intro haccepts
    apply forall_set (h.staying haccepts)
    by_contra hleft
    rw [Bool.not_eq_true] at hleft
    rcases hleaves hleft haccepts with hout | rfl
    · rw [h.staying haccepts a hmem] at hout
      cases hout
    · exact h.checked haccepts.1 hmem
  · rw [hkeep, hworkers]
    intro hoff hin
    refine h.awake hoff (mem_of_mem_set hin ?_)
    rintro rfl
    rw [hwaiting rfl] at hoff
    cases hoff
  · rw [hkeep, hworkers]
    intro hon hin
    refine h.checked hon (mem_of_mem_set hin ?_)
    rintro rfl
    rw [hcheckHasWork rfl] at hon
    cases hon
  · exact h.controlled.moved ha hexited hkeep hdie hcontroller

theorem Inv.shift {pool pool' : ThreadPool} (h : Inv pool) {i : Nat} {a b : WorkerPc}
    (ha : pool.workers[i]? = some a) (hshift : Shift pool a b)
    (hworkers : pool'.workers = pool.workers.set i b)
    (hcounter : pool'.numThreads.toNat = pool'.workers.countP WorkerPc.isCounted)
    (hkeep : pool'.keepRunning = pool.keepRunning) (hdie : pool'.die = pool.die)
    (hqueue : pool'.workQueue = pool.workQueue)
    (hcontroller : pool'.controller = pool.controller) : Inv pool' := by
  refine h.changed ha hshift.starting hshift.exited (fun hb => (hshift.waiting hb).1)
    hshift.checkHasWork hshift.leaves hworkers hcounter hkeep hdie hcontroller ?_
  rw [hqueue, hworkers]
  intro hwaiting
  by_cases hempty : pool.workQueue = []
  · rw [hempty]
    exact Nat.zero_le _
  · have hb : WorkerPc.waiting ≠ b := fun hb => hempty (hshift.waiting hb.symm).2
    have hacquire : a ≠ .acquire := fun ha => hempty (hshift.acquire ha)
    have hcount := countP_set_add ha b (· == .acquire)
    have hbefore := h.notified (mem_of_mem_set hwaiting hb)
    rw [beq_false_of_ne hacquire, Bool.toNat_false] at hcount
    unfold List.count at hbefore ⊢
    omega

/-- A step of a worker that is counted before and after it leaves the counter right. -/
theorem Inv.counter_set {pool : ThreadPool} (h : Inv pool) {i : Nat} {a : WorkerPc}
    (ha : pool.workers[i]? = some a) {b : WorkerPc} (hcounted : a.isCounted = b.isCounted) :
    pool.numThreads.toNat = (pool.workers.set i b).countP WorkerPc.isCounted :=
  h.counter.trans (countP_set_eq ha hcounted).symm

theorem inv_start {pool : ThreadPool} (h : Inv pool) {i : Nat}
    (ha : pool.workers[i]? = some .starting) :
    Inv ((pool.addToThreadCounter 1).setWorker i .checkDie) := by
  have hcount := countP_set_add ha .checkDie WorkerPc.isCounted
  have hlength : (pool.workers.set i .checkDie).countP WorkerPc.isCounted ≤ _ :=
    List.countP_le_length
  have hsmall := h.small
  have hcounter := h.counter
  simp only [WorkerPc.isCounted, Bool.toNat_false, Bool.toNat_true, List.length_set] at hcount hlength
  have hshift : Shift pool .starting .checkDie := ⟨nofun, nofun, nofun, nofun, nofun, nofun⟩
  refine h.shift ha hshift rfl ?_ rfl rfl rfl rfl
  show (pool.numThreads + 1).toNat = (pool.workers.set i .checkDie).countP WorkerPc.isCounted
  rw [UInt64.toNat_add, UInt64.toNat_one]
  omega

/-- Adding -1 modulo `2 ^ 64` takes one off a counter that is not zero. -/
theorem toNat_add_neg_one {n val : UInt64} (hval : val.toNat = 2 ^ 64 - 1) (h : 0 < n.toNat) :
    (n + val).toNat + 1 = n.toNat := by
  have hlt := n.toNat_lt
  rw [UInt64.toNat_add, hval]
  omega

/-- While a worker is counted, the counter is not zero. -/
theorem Inv.counter_pos {pool : ThreadPool} (h : Inv pool) {i : Nat} {a : WorkerPc}
    (ha : pool.workers[i]? = some a) (hcounted : a.isCounted = true) :
    0 < pool.numThreads.toNat := by
  rw [h.counter, List.countP_pos_iff]
  exact ⟨a, List.mem_of_getElem? ha, hcounted⟩

theorem inv_exit {pool : ThreadPool} (h : Inv pool) {i : Nat}
    (ha : pool.workers[i]? = some .exiting) {val : UInt64} (hval : val.toNat = 2 ^ 64 - 1) :
    Inv ((pool.addToThreadCounter val).setWorker i .exited) := by
  have hcount := countP_set_add ha .exited WorkerPc.isCounted
  have hcounter := h.counter
  have hcounterExit := toNat_add_neg_one hval (h.counter_pos ha rfl)
  simp only [WorkerPc.isCounted, Bool.toNat_false, Bool.toNat_true] at hcount
  have hshift : Shift pool .exiting .exited :=
    ⟨nofun, nofun, nofun, nofun, fun _ _ => Or.inl rfl, nofun⟩
  refine h.shift ha hshift rfl ?_ rfl rfl rfl rfl
  show (pool.numThreads + val).toNat = (pool.workers.set i .exited).countP WorkerPc.isCounted
  omega

theorem Move.isCounted_eq {pool : ThreadPool} {a b : WorkerPc} (h : Move pool a b) :
    a.isCounted = b.isCounted := by
  cases h <;> rfl

theorem inv_move {pool : ThreadPool} (h : Inv pool) {i : Nat} {a b : WorkerPc}
    (ha : pool.workers[i]? = some a) (hmove : Move pool a b) :
    Inv { pool with workers := pool.workers.set i b } :=
  h.shift ha hmove.shift rfl (h.counter_set ha hmove.isCounted_eq) rfl rfl rfl rfl

/-! ## The queue -/

/-- A worker that takes a task leaves one task and one worker in front of the queue less. -/
theorem inv_take {pool : ThreadPool} (h : Inv pool) {i : Nat}
    (ha : pool.workers[i]? = some .acquire) {task : QueuedTask} {rest : List QueuedTask}
    (hqueue : pool.workQueue = task :: rest) :
    Inv { pool with
      workQueue := rest
      started := pool.started ++ [task.number]
      workers := pool.workers.set i (.running task.number task.task) } := by
  have hcount := countP_set_add ha (.running task.number task.task) (· == .acquire)
  refine h.changed (b := .running task.number task.task) ha nofun nofun nofun nofun nofun rfl
    (h.counter_set ha rfl) rfl rfl rfl ?_
  intro hwaiting
  have hbefore := h.notified (mem_of_mem_set hwaiting nofun)
  rw [hqueue, List.length_cons] at hbefore
  show rest.length ≤ (pool.workers.set i _).count .acquire
  have hacquire : (WorkerPc.acquire == .acquire) = true := rfl
  have hrunning : (WorkerPc.running task.number task.task == .acquire) = false := rfl
  rw [hacquire, hrunning, Bool.toNat_true, Bool.toNat_false] at hcount
  unfold List.count at hbefore ⊢
  omega

/-- The waiting worker that is notified comes for the task that was pushed. -/
theorem inv_push {pool : ThreadPool} (h : Inv pool) {k : Nat} {workers : List WorkerPc}
    (hnotified : Notified pool.workers k workers) (task : PoolTask) (posters : List PoolTask) :
    Inv { pool with
      posters := posters
      workQueue := pool.workQueue ++ [⟨pool.accepted, task⟩]
      accepted := pool.accepted + 1
      workers := workers } := by
  cases hnotified with
  | none hnone =>
    refine ⟨h.small, h.counter, h.begun, h.staying, h.awake, h.checked, ?_, h.controlled⟩
    exact fun hwaiting => absurd hwaiting hnone
  | one ha =>
    have hcount := countP_set_add ha .acquire (· == .acquire)
    refine h.changed (b := .acquire) ha nofun nofun nofun nofun nofun rfl
      (h.counter_set ha rfl) rfl rfl rfl ?_
    intro _
    have hbefore := h.notified (List.mem_of_getElem? ha)
    show (pool.workQueue ++ [_]).length ≤ (pool.workers.set k .acquire).count .acquire
    have hacquire : (WorkerPc.acquire == .acquire) = true := rfl
    have hwaiting : (WorkerPc.waiting == .acquire) = false := rfl
    rw [hacquire, hwaiting, Bool.toNat_true, Bool.toNat_false] at hcount
    rw [List.length_append, List.length_singleton]
    unfold List.count at hbefore ⊢
    omega

theorem inv_pushNested {pool : ThreadPool} (h : Inv pool) {i k number : Nat}
    {task accepted : PoolTask} {workers : List WorkerPc}
    (ha : pool.workers[i]? = some (.posting number task accepted))
    (hnotified : Notified pool.workers k workers) :
    Inv { pool with
      workQueue := pool.workQueue ++ [⟨pool.accepted, task⟩]
      accepted := pool.accepted + 1
      workers := workers.set i (.running number accepted) } := by
  have hpushed := inv_push h hnotified task pool.posters
  have ha' := hnotified.getElem? ha nofun
  exact hpushed.shift ha' (shift_posted _ number task accepted) rfl (hpushed.counter_set ha' rfl)
    rfl rfl rfl rfl

/-! ## The controlling thread -/

theorem inv_constructed {pool : ThreadPool} (h : Inv pool)
    (hcontroller : pool.controller = .constructing)
    (hcount : pool.numThreads.toNat = pool.workers.length) :
    Inv { pool with controller := .ready } := by
  have haccepts : Accepts pool := h.controlled.at_place hcontroller
  refine ⟨h.small, h.counter, ?_, h.staying, h.awake, h.checked, h.notified, haccepts⟩
  intro _ hstarting
  -- all workers are counted, so none is in front of its first call
  rw [h.counter, List.countP_eq_length] at hcount
  exact absurd (hcount _ hstarting) Bool.false_ne_true

/-- `Join` wakes every worker that waits, and no worker waits any more. -/
theorem inv_join {pool : ThreadPool} (h : Inv pool) (hidle : pool.idle = true) :
    Inv { pool with
      keepRunning := false
      workers := pool.workers.map wakeUp
      controller := .spinning } := by
  refine ⟨?_, ?_, ?_, nofun, ?_, nofun, ?_, rfl⟩
  · exact (List.length_map ..).trans_lt h.small
  · show pool.numThreads.toNat = (pool.workers.map wakeUp).countP WorkerPc.isCounted
    rw [List.countP_map, h.counter]
    exact List.countP_congr fun pc _ => by simp only [Function.comp, WorkerPc.isCounted_wakeUp]
  · intro _ hstarting
    obtain ⟨pc, hpc, hwake⟩ := List.mem_map.mp hstarting
    cases pc <;> cases hwake
    exact h.begun (constructed_of_idle hidle) hpc
  · intro _ hwaiting
    obtain ⟨pc, -, hwake⟩ := List.mem_map.mp hwaiting
    exact WorkerPc.wakeUp_ne_waiting pc hwake
  · intro hwaiting
    obtain ⟨pc, -, hwake⟩ := List.mem_map.mp hwaiting
    exact absurd hwake (WorkerPc.wakeUp_ne_waiting pc)

/-- With the counter at zero, all workers have ended. -/
theorem inv_spin {pool : ThreadPool} (h : Inv pool) (hcontroller : pool.controller = .spinning)
    (hcount : pool.numThreads.toNat = 0) : Inv { pool with controller := .joining } := by
  have hbegun : .starting ∉ pool.workers := h.begun (by rw [hcontroller]; nofun)
  refine ⟨h.small, h.counter, fun _ => hbegun, h.staying, h.awake, h.checked, h.notified, ?_⟩
  intro pc hpc
  have hzero : pool.workers.countP WorkerPc.isCounted = 0 := by rw [← h.counter, hcount]
  rw [List.countP_eq_zero] at hzero
  have hpcount := hzero pc hpc
  cases pc with
  | exited => rfl
  | starting => exact absurd hpc hbegun
  | _ => exact absurd rfl hpcount

theorem inv_stop {pool : ThreadPool} (h : Inv pool) (hidle : pool.idle = true) :
    Inv { pool with die := true, controller := .stopping } := by
  refine ⟨h.small, h.counter, fun _ => h.begun (constructed_of_idle hidle), ?_, h.awake, h.checked,
    h.notified, rfl, ?_⟩
  · exact fun haccepts => absurd haccepts (not_accepts_of_die rfl)
  · rcases h.controlled.idle_cases hidle with haccepts | hexited
    · exact Or.inl haccepts.1
    · exact Or.inr hexited

theorem inv_returned {pool : ThreadPool} (h : Inv pool) {controller : Controller}
    (hbefore : pool.controller ≠ .constructing)
    (hafter : Controlled { pool with controller := controller }) :
    Inv { pool with controller := controller } :=
  ⟨h.small, h.counter, fun _ => h.begun hbefore, h.staying, h.awake, h.checked, h.notified, hafter⟩

/-! ## Every step -/

theorem inv_step {pool pool' : ThreadPool} {event : PoolEvent} (h : Inv pool)
    (hstep : pool.step event = some pool') : Inv pool' := by
  cases step_cases hstep with
  | start ha => exact inv_start h ha
  | exit ha hval => exact inv_exit h ha hval
  | move ha hmove => exact inv_move h ha hmove
  | take ha hqueue => exact inv_take h ha hqueue
  | finish ha => exact h.shift ha (shift_finished _ _) rfl (h.counter_set ha rfl) rfl rfl rfl rfl
  | pushNested ha hnotified => exact inv_pushNested h ha hnotified
  | wake ha => exact h.shift ha (shift_woken _) rfl (h.counter_set ha rfl) rfl rfl rfl rfl
  | post hcontroller haccepts =>
    exact ⟨h.small, h.counter, h.begun, h.staying, h.awake, h.checked, h.notified, h.controlled⟩
  | refuse haccepts => exact h
  | push hj hnotified => exact inv_push h hnotified _ _
  | constructed hcontroller hcount => exact inv_constructed h hcontroller hcount
  | join hidle => exact inv_join h hidle
  | spin hcontroller hcount => exact inv_spin h hcontroller hcount
  | joinReturns hcontroller hexited =>
    exact inv_returned h (by rw [hcontroller]; nofun) (allExited_iff.mp hexited)
  | stop hidle => exact inv_stop h hidle
  | stopReturns hcontroller hexited =>
    exact inv_returned h (by rw [hcontroller]; nofun) (allExited_iff.mp hexited)

theorem inv_construct {n : UInt64} {pool : ThreadPool} (h : construct n = .ok pool) :
    Inv pool := by
  unfold construct at h
  split at h
  · cases h
  · cases h
    have hstarting : ∀ pc ∈ List.replicate n.toNat WorkerPc.starting, pc = .starting :=
      fun pc hpc => List.eq_of_mem_replicate hpc
    refine ⟨?_, ?_, fun hc => absurd rfl hc, ?_, nofun, ?_, ?_, rfl, rfl⟩
    · rw [List.length_replicate]
      exact n.toNat_lt
    · rw [UInt64.toNat_zero, eq_comm, List.countP_eq_zero]
      intro pc hpc
      rw [hstarting pc hpc]
      exact Bool.false_ne_true
    · intro _ pc hpc
      rw [hstarting pc hpc]
      rfl
    · intro _ hcheck
      cases hstarting _ hcheck
    · intro hwaiting
      cases hstarting _ hwaiting

theorem workers_ne_nil_of_construct {n : UInt64} {pool : ThreadPool}
    (h : construct n = .ok pool) : pool.workers ≠ [] := by
  unfold construct at h
  split at h
  · cases h
  · rename_i hn
    cases h
    rw [ne_eq, List.replicate_eq_nil_iff]
    exact fun hzero => hn (UInt64.toNat_inj.mp (hzero.trans UInt64.toNat_zero.symm))

theorem Notified.length_eq {workers workers' : List WorkerPc} {k : Nat}
    (h : Notified workers k workers') : workers'.length = workers.length := by
  cases h with
  | none hnone => rfl
  | one hk => exact List.length_set ..

/-- A pool keeps its workers. -/
theorem length_workers_step {pool pool' : ThreadPool} {event : PoolEvent}
    (hstep : pool.step event = some pool') : pool'.workers.length = pool.workers.length := by
  cases step_cases hstep with
  | start ha => exact List.length_set ..
  | exit ha hval => exact List.length_set ..
  | move ha hmove => exact List.length_set ..
  | take ha hqueue => exact List.length_set ..
  | finish ha => exact List.length_set ..
  | pushNested ha hnotified => exact (List.length_set ..).trans hnotified.length_eq
  | wake ha => exact List.length_set ..
  | push hj hnotified => exact hnotified.length_eq
  | join hidle => exact List.length_map ..
  | post | refuse | constructed | spin | joinReturns | stop | stopReturns => rfl

/-- Workers that have ended do nothing any more. -/
theorem allExited_step {pool pool' : ThreadPool} {event : PoolEvent} (h : AllExited pool)
    (hstep : pool.step event = some pool') : AllExited pool' := by
  have hgone : ∀ {i : Nat} {a : WorkerPc}, pool.workers[i]? = some a → a = .exited :=
    fun ha => h _ (List.mem_of_getElem? ha)
  cases step_cases hstep with
  | start ha | exit ha hval | take ha hqueue | finish ha | pushNested ha hnotified | wake ha =>
    cases hgone ha
  | move ha hmove =>
    cases hgone ha
    cases hmove
  | push hj hnotified =>
    cases hnotified with
    | none hnone => exact h
    | one hk => cases hgone hk
  | join hidle =>
    intro pc hpc
    obtain ⟨pc', hpc', rfl⟩ := List.mem_map.mp hpc
    rw [h pc' hpc']
    rfl
  | post | refuse | constructed | spin | joinReturns | stop | stopReturns => exact h

/-- When they have ended, no task is taken any more. -/
theorem started_step {pool pool' : ThreadPool} {event : PoolEvent} (h : AllExited pool)
    (hstep : pool.step event = some pool') : pool'.started = pool.started := by
  cases step_cases hstep with
  | take ha hqueue => cases h _ (List.mem_of_getElem? ha)
  | start | exit | move | finish | pushNested | wake | post | refuse | push | constructed | join
  | spin | joinReturns | stop | stopReturns => rfl

/-- The invariant holds of a pool at any time. -/
theorem inv_reaches {n : UInt64} {pool pool' : ThreadPool} (h : construct n = .ok pool)
    (hreaches : Transitions.Reaches step pool pool') : Inv pool' :=
  hreaches.invariant Inv (fun _ _ _ => inv_step) (inv_construct h)

end ThreadPool

end Azulejo
