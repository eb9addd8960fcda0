import Azulejo.Intraprocess.ThreadPool
import Mathlib.Algebra.Order.Ring.Nat

/-!
# What a step of the pool does

`step` taken apart: each event that happens does one of the things listed in `Step`, and a worker
that goes on without touching the queue makes one of the moves listed in `Move`.
-/

namespace Azulejo

namespace ThreadPool

/-- `Post` accepts tasks. -/
def Accepts (pool : ThreadPool) : Prop := pool.keepRunning = true ∧ pool.die = false

theorem not_accepts_of_die {pool : ThreadPool} (h : pool.die = true) : ¬ Accepts pool := by
  intro haccepts
  have hoff := haccepts.2
  rw [h] at hoff
  cases hoff

/-- The moves of a worker that leave the queue and the counter alone. -/
inductive Move (pool : ThreadPool) : WorkerPc → WorkerPc → Prop
  | die (h : pool.die = true) : Move pool .checkDie .exiting
  | live (h : pool.die = false) : Move pool .checkDie .checkKeepRunning
  | keep (h : pool.keepRunning = true) : Move pool .checkKeepRunning .acquire
  | leave (h : pool.keepRunning = false) : Move pool .checkKeepRunning .checkHasWork
  | work (h : pool.workQueue ≠ []) : Move pool .checkHasWork .acquire
  | noWork (h : pool.workQueue = []) : Move pool .checkHasWork .exiting
  | wait (hkeep : pool.keepRunning = true) (hqueue : pool.workQueue = []) :
      Move pool .acquire .waiting
  | proceed (hkeep : pool.keepRunning = false) (hqueue : pool.workQueue = []) :
      Move pool .acquire .checkDie
  | accept {number : Nat} {task accepted refused : PoolTask} (h : Accepts pool) :
      Move pool (.running number (.post task accepted refused)) (.posting number task accepted)
  | refuse {number : Nat} {task accepted refused : PoolTask} (h : ¬ Accepts pool) :
      Move pool (.running number (.post task accepted refused)) (.running number refused)

/-- What `push` makes of the workers: one that waits is woken, if there is one. -/
inductive Notified (workers : List WorkerPc) (notified : Nat) : List WorkerPc → Prop
  | none (h : .waiting ∉ workers) : Notified workers notified workers
  | one (h : workers[notified]? = some .waiting) :
      Notified workers notified (workers.set notified .acquire)

/-- A worker that does not wait is not notified. -/
theorem Notified.getElem? {workers workers' : List WorkerPc} {k : Nat}
    (h : Notified workers k workers') {i : Nat} {a : WorkerPc} (ha : workers[i]? = some a)
    (hne : a ≠ .waiting) : workers'[i]? = some a := by
  cases h with
  | none hnone => exact ha
  | one hk =>
    have hik : k ≠ i := by
      rintro rfl
      rw [hk] at ha
      exact hne (Option.some.inj ha).symm
    rw [List.getElem?_set_ne hik, ha]

/-- What the events do. -/
inductive Step (pool : ThreadPool) : PoolEvent → ThreadPool → Prop
  | start {i k : Nat} (h : pool.workers[i]? = some .starting) :
      Step pool (.worker i k) ((pool.addToThreadCounter 1).setWorker i .checkDie)
  | exit {i k : Nat} (h : pool.workers[i]? = some .exiting) {val : UInt64}
      (hval : val.toNat = 2 ^ 64 - 1) :
      Step pool (.worker i k) ((pool.addToThreadCounter val).setWorker i .exited)
  | move {i k : Nat} {a b : WorkerPc} (h : pool.workers[i]? = some a) (hmove : Move pool a b) :
      Step pool (.worker i k) { pool with workers := pool.workers.set i b }
  | take {i k : Nat} {task : QueuedTask} {rest : List QueuedTask}
      (h : pool.workers[i]? = some .acquire) (hqueue : pool.workQueue = task :: rest) :
      Step pool (.worker i k)
        { pool with
          workQueue := rest
          started := pool.started ++ [task.number]
          workers := pool.workers.set i (.running task.number task.task) }
  | finish {i k number : Nat} (h : pool.workers[i]? = some (.running number .done)) :
      Step pool (.worker i k)
        { pool with
          executed := pool.executed ++ [number]
          workers := pool.workers.set i .checkDie }
  | pushNested {i k number : Nat} {task accepted : PoolTask} {workers : List WorkerPc}
      (h : pool.workers[i]? = some (.posting number task accepted))
      (hnotified : Notified pool.workers k workers) :
      Step pool (.worker i k)
        { pool with
          workQueue := pool.workQueue ++ [⟨pool.accepted, task⟩]
          accepted := pool.accepted + 1
          workers := workers.set i (.running number accepted) }
  | wake {i : Nat} (h : pool.workers[i]? = some .waiting) :
      Step pool (.wake i) { pool with workers := pool.workers.set i .acquire }
  | post {task : PoolTask} (hcontroller : pool.controller ≠ .constructing) (h : Accepts pool) :
      Step pool (.post task) { pool with posters := pool.posters ++ [task] }
  | refuse {task : PoolTask} (h : ¬ Accepts pool) : Step pool (.post task) pool
  | push {j k : Nat} {task : PoolTask} {workers : List WorkerPc}
      (hj : pool.posters[j]? = some task) (hnotified : Notified pool.workers k workers) :
      Step pool (.push j k)
        { pool with
          posters := pool.posters.eraseIdx j
          workQueue := pool.workQueue ++ [⟨pool.accepted, task⟩]
          accepted := pool.accepted + 1
          workers := workers }
  | constructed (hcontroller : pool.controller = .constructing)
      (hcount : pool.numThreads.toNat = pool.workers.length) :
      Step pool .constructed { pool with controller := .ready }
  | join (hidle : pool.idle = true) :
      Step pool .join
        { pool with
          keepRunning := false
          workers := pool.workers.map wakeUp
          controller := .spinning }
  | spin (hcontroller : pool.controller = .spinning) (hcount : pool.numThreads.toNat = 0) :
      Step pool .spin { pool with controller := .joining }
  | joinReturns (hcontroller : pool.controller = .joining) (hexited : pool.allExited = true) :
      Step pool .joinReturns { pool with controller := .joined }
  | stop (hidle : pool.idle = true) :
      Step pool .stop { pool with die := true, controller := .stopping }
  | stopReturns (hcontroller : pool.controller = .stopping) (hexited : pool.allExited = true) :
      Step pool .stopReturns { pool with controller := .stopped }

/-! ## Taking a step apart -/

theorem checkPost_cases (pool : ThreadPool) :
    (Accepts pool ∧ pool.checkPost = .ok ()) ∨ (¬ Accepts pool ∧ ∃ e, pool.checkPost = .error e) := by
  unfold checkPost Accepts
  cases pool.keepRunning <;> cases pool.die
  · exact Or.inr ⟨fun h => absurd h.1 Bool.false_ne_true, _, rfl⟩
  · exact Or.inr ⟨fun h => absurd h.1 Bool.false_ne_true, _, rfl⟩
  · exact Or.inl ⟨⟨rfl, rfl⟩, rfl⟩
  · exact Or.inr ⟨fun h => absurd h.2.symm Bool.false_ne_true, _, rfl⟩

theorem notifyOne_eq_some {pool pool' : ThreadPool} {notified : Nat}
    (h : pool.notifyOne notified = some pool') :
    ∃ workers, Notified pool.workers notified workers ∧ pool' = { pool with workers := workers } := by
  unfold notifyOne at h
  split at h
  · split at h
    · cases h
      exact ⟨_, .one ‹_›, rfl⟩
    · cases h
  · cases h
    exact ⟨_, .none ‹_›, rfl⟩

theorem push_eq_some {pool pool' : ThreadPool} {task : PoolTask} {notified : Nat}
    (h : pool.push task notified = some pool') :
    ∃ workers, Notified pool.workers notified workers ∧
      pool' = { pool with
        workQueue := pool.workQueue ++ [⟨pool.accepted, task⟩]
        accepted := pool.accepted + 1
        workers := workers } := by
  obtain ⟨workers, hnotified, rfl⟩ := notifyOne_eq_some h
  exact ⟨workers, hnotified, rfl⟩

theorem hasWorkThreadUnsafe_iff {pool : ThreadPool} :
    pool.hasWorkThreadUnsafe = true ↔ pool.workQueue ≠ [] := by
  unfold hasWorkThreadUnsafe
  rw [Bool.not_eq_true', List.isEmpty_eq_false_iff]

theorem not_hasWorkThreadUnsafe_iff {pool : ThreadPool} :
    ¬ pool.hasWorkThreadUnsafe = true ↔ pool.workQueue = [] := by
  rw [hasWorkThreadUnsafe_iff, not_not]

theorem threadsShouldProceed_iff {pool : ThreadPool} :
    pool.threadsShouldProceed = true ↔ pool.keepRunning = false ∨ pool.workQueue ≠ [] := by
  unfold threadsShouldProceed
  rw [Bool.or_eq_true, Bool.not_eq_true', hasWorkThreadUnsafe_iff]

theorem takeTask_waits {pool : ThreadPool} (i : Nat) (hkeep : pool.keepRunning = true)
    (hqueue : pool.workQueue = []) : pool.takeTask i = pool.setWorker i .waiting := by
  have hwait : ¬ pool.threadsShouldProceed = true := by
    rw [threadsShouldProceed_iff, hkeep, hqueue]
    simp
  unfold takeTask
  rw [if_neg hwait]

theorem takeTask_proceeds {pool : ThreadPool} (i : Nat) (hkeep : pool.keepRunning = false)
    (hqueue : pool.workQueue = []) : pool.takeTask i = pool.setWorker i .checkDie := by
  unfold takeTask
  rw [if_pos (threadsShouldProceed_iff.mpr (Or.inl hkeep)), hqueue]

theorem takeTask_takes {pool : ThreadPool} (i : Nat) {task : QueuedTask} {rest : List QueuedTask}
    (hqueue : pool.workQueue = task :: rest) :
    pool.takeTask i = { pool with
      workQueue := rest
      started := pool.started ++ [task.number] }.setWorker i (.running task.number task.task) := by
  have hwork : pool.workQueue ≠ [] := by
    rw [hqueue]
    exact List.cons_ne_nil _ _
  unfold takeTask
  rw [if_pos (threadsShouldProceed_iff.mpr (Or.inr hwork)), hqueue]

theorem step_takeTask {pool : ThreadPool} {i : Nat} (h : pool.workers[i]? = some .acquire)
    (k : Nat) : Step pool (.worker i k) (pool.takeTask i) := by
  cases hqueue : pool.workQueue with
  | nil =>
    cases hkeep : pool.keepRunning with
    | true =>
      rw [takeTask_waits i hkeep hqueue]
      exact .move h (.wait hkeep hqueue)
    | false =>
      rw [takeTask_proceeds i hkeep hqueue]
      exact .move h (.proceed hkeep hqueue)
  | cons task rest =>
    rw [takeTask_takes i hqueue]
    exact .take h hqueue

theorem step_workerStep {pool pool' : ThreadPool} {i k : Nat}
    (h : pool.workerStep i k = some pool') : Step pool (.worker i k) pool' := by
  unfold workerStep at h
  split at h
  · cases h
  · rename_i hpc
    cases h
    exact .start hpc
  · rename_i hpc
    cases h
    cases hdie : pool.die with
    | true => exact .move hpc (.die hdie)
    | false => exact .move hpc (.live hdie)
  · rename_i hpc
    cases h
    cases hkeep : pool.keepRunning with
    | true => exact .move hpc (.keep hkeep)
    | false => exact .move hpc (.leave hkeep)
  · rename_i hpc
    cases h
    by_cases hwork : pool.hasWorkThreadUnsafe = true
    · rw [if_pos hwork]
      exact .move hpc (.work (hasWorkThreadUnsafe_iff.mp hwork))
    · rw [if_neg hwork]
      exact .move hpc (.noWork (not_hasWorkThreadUnsafe_iff.mp hwork))
  · rename_i hpc
    cases h
    exact step_takeTask hpc k
  · cases h
  · rename_i hpc
    cases h
    exact .finish hpc
  · rename_i hpc
    rcases checkPost_cases pool with ⟨haccepts, hcheck⟩ | ⟨haccepts, e, hcheck⟩
    · rw [hcheck] at h
      cases h
      exact .move hpc (.accept haccepts)
    · rw [hcheck] at h
      cases h
      exact .move hpc (.refuse haccepts)
  · rename_i hpc
    obtain ⟨pushed, hpush, rfl⟩ := Option.map_eq_some_iff.mp h
    obtain ⟨workers, hnotified, rfl⟩ := push_eq_some hpush
    exact .pushNested hpc hnotified
  · rename_i hpc
    rw [← Option.some.inj h]
    exact .exit hpc (by decide)
  · cases h

/-- Each event that happens does what `Step` lists for it. -/
theorem step_cases {pool pool' : ThreadPool} {event : PoolEvent}
    (h : pool.step event = some pool') : Step pool event pool' := by
  cases event with
  | worker i notified => exact step_workerStep h
  | wake i =>
    simp only [step, Option.ite_none_right_eq_some, Option.some.injEq] at h
    obtain ⟨hpc, rfl⟩ := h
    exact .wake hpc
  | post task =>
    simp only [step, Option.ite_none_left_eq_some] at h
    obtain ⟨hcontroller, h⟩ := h
    rcases checkPost_cases pool with ⟨haccepts, hcheck⟩ | ⟨haccepts, e, hcheck⟩
    · rw [hcheck] at h
      cases h
      exact .post hcontroller haccepts
    · rw [hcheck] at h
      cases h
      exact .refuse haccepts
  | push j notified =>
    simp only [step] at h
    split at h
    · cases h
    · obtain ⟨workers, hnotified, rfl⟩ := push_eq_some h
      exact .push ‹_› hnotified
  | constructed =>
    simp only [step, Option.ite_none_right_eq_some, Option.some.injEq] at h
    obtain ⟨⟨hcontroller, hcount⟩, rfl⟩ := h
    exact .constructed hcontroller hcount
  | join =>
    simp only [step, Option.ite_none_right_eq_some, Option.some.injEq] at h
    obtain ⟨hidle, rfl⟩ := h
    exact .join hidle
  | spin =>
    simp only [step, Option.ite_none_right_eq_some, Option.some.injEq] at h
    obtain ⟨⟨hcontroller, hcount⟩, rfl⟩ := h
    rw [gt_iff_lt, UInt64.lt_iff_toNat_lt, UInt64.toNat_zero] at hcount
    exact .spin hcontroller (by omega)
  | joinReturns =>
    simp only [step, Option.ite_none_right_eq_some, Option.some.injEq] at h
    obtain ⟨⟨hcontroller, hexited⟩, rfl⟩ := h
    exact .joinReturns hcontroller hexited
  | stop =>
    simp only [step, Option.ite_none_right_eq_some, Option.some.injEq] at h
    obtain ⟨hidle, rfl⟩ := h
    exact .stop hidle
  | stopReturns =>
    simp only [step, Option.ite_none_right_eq_some, Option.some.injEq] at h
    obtain ⟨⟨hcontroller, hexited⟩, rfl⟩ := h
    exact .stopReturns hcontroller hexited

/-! ## What can happen -/

/-- A thread that is about to push a task can do so. -/
theorem push_enabled (pool : ThreadPool) (task : PoolTask) :
    ∃ k pool', pool.push task k = some pool' := by
  by_cases hwaiting : .waiting ∈ pool.workers
  · obtain ⟨k, hk⟩ := List.getElem?_of_mem hwaiting
    exact ⟨k, _, by rw [push, notifyOne, if_pos hwaiting, if_pos hk]⟩
  · exact ⟨0, _, by rw [push, notifyOne, if_neg hwaiting]⟩

/-- A worker that neither waits nor has ended can go on. -/
theorem worker_enabled {pool : ThreadPool} {i : Nat} {a : WorkerPc}
    (ha : pool.workers[i]? = some a) (hwaiting : a ≠ .waiting) (hexited : a ≠ .exited) :
    ∃ k pool', pool.step (.worker i k) = some pool' := by
  simp only [step, workerStep, ha]
  cases a with
  | waiting => exact absurd rfl hwaiting
  | exited => exact absurd rfl hexited
  | posting number task accepted =>
    obtain ⟨k, pool', hpush⟩ := push_enabled pool task
    exact ⟨k, pool'.setWorker i (.running number accepted), by simp only [hpush, Option.map_some]⟩
  | running number rest =>
    cases rest with
    | done => exact ⟨0, _, rfl⟩
    | post task accepted refused => cases hcheck : pool.checkPost <;> exact ⟨0, _, rfl⟩
  | starting | checkDie | checkKeepRunning | checkHasWork | acquire | exiting => exact ⟨0, _, rfl⟩

end ThreadPool

end Azulejo
