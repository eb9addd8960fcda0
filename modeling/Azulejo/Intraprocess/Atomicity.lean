import Azulejo.Intraprocess.CriticalSections
import Azulejo.Intraprocess.Specs

/-!
# Blocks with the lock as single steps

What a thread has seen under the lock stays true until it releases it: nobody else changes the
counter, the queue or `keepRunning_`. So each step of the pool with its lock is a step of
`ThreadPool`, or changes nothing there, and in the other direction each step of `ThreadPool` can
be done as a block. Two blocks change the pool twice. A push shows only when its `notify_one` is
done, since nobody looks at the queue before, and behind the store of `Join` all workers count as
notified, since none can go on before `notify_all` is done as well.
-/

namespace Azulejo

open Transitions ThreadPool

namespace ThreadPool

/-- The pool without the task that was pushed last. -/
def withoutLast (pool : ThreadPool) : ThreadPool :=
  { pool with
    workQueue := pool.workQueue.dropLast
    accepted := pool.accepted - 1 }

@[simp] theorem withoutLast_enqueue (pool : ThreadPool) (task : PoolTask) :
    (pool.enqueue task).withoutLast = pool := by
  simp only [withoutLast, enqueue, List.dropLast_concat, Nat.add_sub_cancel]

theorem enqueue_withoutLast {pool before : ThreadPool} {task : PoolTask}
    (hqueue : pool.workQueue = (before.enqueue task).workQueue)
    (haccepted : pool.accepted = (before.enqueue task).accepted) :
    pool.withoutLast.enqueue task = pool := by
  obtain ⟨numThreads, keepRunning, die, workQueue, workers, controller, posters, accepted, started,
    executed⟩ := pool
  obtain rfl : workQueue = before.workQueue ++ [⟨before.accepted, task⟩] := hqueue
  obtain rfl : accepted = before.accepted + 1 := haccepted
  simp only [withoutLast, enqueue, List.dropLast_concat, Nat.add_sub_cancel]

theorem wakeUp_eq_exited {pc : WorkerPc} : wakeUp pc = .exited ↔ pc = .exited := by
  cases pc <;> simp [wakeUp]

theorem allExited_notifyAll (pool : ThreadPool) : pool.notifyAll.allExited = pool.allExited := by
  unfold allExited notifyAll
  rw [List.all_map]
  congr 1
  funext pc
  exact decide_eq_decide.mpr wakeUp_eq_exited

theorem notifyAll_setWorker (pool : ThreadPool) (i : Nat) (pc : WorkerPc) (h : wakeUp pc = pc) :
    (pool.setWorker i pc).notifyAll = pool.notifyAll.setWorker i pc := by
  unfold notifyAll setWorker
  rw [List.map_set, h]

/-- A worker that has woken up is notified all the same. -/
theorem notifyAll_wake {pool : ThreadPool} {i : Nat} (h : pool.workers[i]? = some .waiting) :
    (pool.setWorker i .acquire).notifyAll = pool.notifyAll := by
  rw [notifyAll_setWorker pool i .acquire rfl]
  have hwoken : (pool.workers.map wakeUp)[i]? = some .acquire := by
    rw [List.getElem?_map, h]
    rfl
  unfold notifyAll setWorker
  congr 1
  apply List.ext_getElem?
  intro j
  rw [List.getElem?_set]
  split
  · subst_vars
    split
    · exact hwoken.symm
    · rename_i hlength
      rw [List.getElem?_eq_none (Nat.le_of_not_lt hlength)]
  · rfl

end ThreadPool

namespace LockedPool

/-! ## What the holder knows -/

/-- A worker in front of a call of `AddToThreadCounter`. -/
inductive CounterCall (pool : ThreadPool) (i : Nat) : UInt64 → WorkerPc → Prop
  | start (h : pool.workers[i]? = some .starting) : CounterCall pool i 1 .checkDie
  | exit (h : pool.workers[i]? = some .exiting) : CounterCall pool i (0 - 1) .exited

/-- What is true at the place of worker `i` under the lock. -/
def Known (pool : ThreadPool) (i : Nat) : WorkerSection → Prop
  | .load val next => CounterCall pool i val next
  | .store val loaded next => CounterCall pool i val next ∧ loaded = pool.numThreads
  | .hasWork => pool.workers[i]? = some .checkHasWork
  | .keepRunning => pool.workers[i]? = some .acquire
  | .shouldProceed => pool.workers[i]? = some .acquire ∧ pool.keepRunning = true
  | .proceeded =>
    pool.workers[i]? = some .acquire ∧ (pool.keepRunning = false ∨ pool.workQueue ≠ [])
  | .popWorkQueue => pool.workers[i]? = some .acquire ∧ pool.workQueue ≠ []
  | .push number task accepted => pool.workers[i]? = some (.posting number task accepted)
  | .notifyOne number accepted => ∃ before task, pool = enqueue before task ∧
    before.workers[i]? = some (.posting number task accepted)
  | .release => True

/-- What is true at the place of the holder. -/
def Holds (pool : ThreadPool) : Holder → Prop
  | .worker i place => Known pool i place
  | .pushed j => ∃ before task, pool = enqueue before task ∧ before.posters[j]? = some task
  | .join => pool.idle = true
  | .poster _ | .posted | .stored | .notified => True

/-- The invariant of the lock. -/
def LockInv (s : LockedPool) : Prop := ∀ holder, s.holder = some holder → Holds s.pool holder

theorem lockInv_of_holds {pool : ThreadPool} {holder : Holder} (h : Holds pool holder) :
    LockInv ⟨pool, some holder⟩ := by
  intro holder' hholder
  cases hholder
  exact h

theorem lockInv_unlocked (pool : ThreadPool) : LockInv ⟨pool, none⟩ := by
  intro holder hholder
  cases hholder

/-- What the others do to a pool while a thread holds the lock. -/
structure Leaves (pool pool' : ThreadPool) (holder : Holder) : Prop where
  numThreads : pool'.numThreads = pool.numThreads
  keepRunning : pool'.keepRunning = pool.keepRunning
  workQueue : pool'.workQueue = pool.workQueue
  accepted : pool'.accepted = pool.accepted
  posters : ∀ (j : Nat) (task : PoolTask), pool.posters[j]? = some task →
    pool'.posters[j]? = some task
  worker : ∀ (i : Nat) (place : WorkerSection) (a : WorkerPc), holder = .worker i place →
    pool.workers[i]? = some a → a ≠ .waiting → pool'.workers[i]? = some a
  idle : holder = .join → pool.idle = true → pool'.idle = true

theorem CounterCall.of_leaves {pool pool' : ThreadPool} {i : Nat} {place : WorkerSection}
    {val : UInt64} {next : WorkerPc} (h : CounterCall pool i val next)
    (hleaves : Leaves pool pool' (.worker i place)) : CounterCall pool' i val next := by
  cases h with
  | start h => exact .start (hleaves.worker i place _ rfl h nofun)
  | exit h => exact .exit (hleaves.worker i place _ rfl h nofun)

/-- A task that was pushed stays the last one. -/
theorem Leaves.enqueue {pool' before : ThreadPool} {task : PoolTask} {holder : Holder}
    (h : Leaves (enqueue before task) pool' holder) : pool' = pool'.withoutLast.enqueue task :=
  (enqueue_withoutLast h.workQueue h.accepted).symm

theorem Known.of_leaves {pool pool' : ThreadPool} {i : Nat} {place : WorkerSection}
    (h : Known pool i place) (hleaves : Leaves pool pool' (.worker i place)) :
    Known pool' i place := by
  have hworker := fun a => hleaves.worker i place a rfl
  cases place with
  | load val next => exact CounterCall.of_leaves h hleaves
  | store val loaded next => exact ⟨h.1.of_leaves hleaves, h.2.trans hleaves.numThreads.symm⟩
  | hasWork => exact hworker _ h nofun
  | keepRunning => exact hworker _ h nofun
  | shouldProceed => exact ⟨hworker _ h.1 nofun, hleaves.keepRunning.trans h.2⟩
  | proceeded =>
    refine ⟨hworker _ h.1 nofun, ?_⟩
    rw [hleaves.keepRunning, hleaves.workQueue]
    exact h.2
  | popWorkQueue =>
    refine ⟨hworker _ h.1 nofun, ?_⟩
    rw [hleaves.workQueue]
    exact h.2
  | push number task accepted => exact hworker _ h nofun
  | notifyOne number accepted =>
    obtain ⟨before, task, rfl, ha⟩ := h
    exact ⟨_, task, hleaves.enqueue, hworker _ ha nofun⟩
  | release => trivial

theorem Holds.of_leaves {pool pool' : ThreadPool} {holder : Holder} (h : Holds pool holder)
    (hleaves : Leaves pool pool' holder) : Holds pool' holder := by
  cases holder with
  | worker i place => exact Known.of_leaves h hleaves
  | pushed j =>
    obtain ⟨before, task, rfl, hj⟩ := h
    exact ⟨_, task, hleaves.enqueue, hleaves.posters j task hj⟩
  | join => exact hleaves.idle rfl h
  | poster j | posted | stored | notified => trivial

/-! ## Steps without the lock -/

/-- What happens to a pool without its lock. -/
def Unguarded (pool : ThreadPool) : PoolEvent → Prop
  | .worker i _ => ∀ a, pool.workers[i]? = some a → entrance a = none
  | .push _ _ => False
  | .join => False
  | _ => True

theorem leaves_set {pool : ThreadPool} {i : Nat} {holder : Holder}
    (hi : ∀ place, holder ≠ .worker i place) (b : WorkerPc)
    {pool' : ThreadPool} (hnumThreads : pool'.numThreads = pool.numThreads)
    (hkeep : pool'.keepRunning = pool.keepRunning) (hqueue : pool'.workQueue = pool.workQueue)
    (haccepted : pool'.accepted = pool.accepted) (hposters : pool'.posters = pool.posters)
    (hidle : pool'.idle = pool.idle) (hworkers : pool'.workers = pool.workers.set i b) :
    Leaves pool pool' holder := by
  refine ⟨hnumThreads, hkeep, hqueue, haccepted, fun j task hj => ?_, fun j place a hj ha _ => ?_,
    fun _ h => hidle.trans h⟩
  · rwa [hposters]
  · have hij : i ≠ j := by
      rintro rfl
      exact hi place hj
    rw [hworkers, List.getElem?_set_ne hij, ha]

/-- The controlling thread is in a call that it has not left. -/
theorem leaves_of_not_idle {pool pool' : ThreadPool} {holder : Holder}
    (hnot : holder = .join → pool.idle = false) (hnumThreads : pool'.numThreads = pool.numThreads)
    (hkeep : pool'.keepRunning = pool.keepRunning) (hqueue : pool'.workQueue = pool.workQueue)
    (haccepted : pool'.accepted = pool.accepted) (hposters : pool'.posters = pool.posters)
    (hworkers : pool'.workers = pool.workers) : Leaves pool pool' holder := by
  refine ⟨hnumThreads, hkeep, hqueue, haccepted, fun j task hj => ?_, fun j place a _ ha _ => ?_,
    fun hjoin h => ?_⟩
  · rwa [hposters]
  · rwa [hworkers]
  · rw [hnot hjoin] at h
    cases h

/-- Without the lock no thread touches what the holder has seen. -/
theorem leaves_of_unguarded {pool pool' : ThreadPool} {event : PoolEvent} {holder : Holder}
    (h : Unguarded pool event) (hstep : pool.step event = some pool')
    (hworker : ∀ i k place, event = .worker i k → holder ≠ .worker i place)
    (hstop : holder = .join → event ≠ .stop) : Leaves pool pool' holder := by
  cases ThreadPool.step_cases hstep with
  | start ha => cases h _ ha
  | exit ha hval => cases h _ ha
  | move ha hmove =>
    exact leaves_set (fun place => hworker _ _ place rfl) _ rfl rfl rfl rfl rfl rfl rfl
  | take ha hqueue => cases h _ ha
  | finish ha =>
    exact leaves_set (fun place => hworker _ _ place rfl) _ rfl rfl rfl rfl rfl rfl rfl
  | pushNested ha hnotified => cases h _ ha
  | wake ha =>
    rename_i i
    refine ⟨rfl, rfl, rfl, rfl, fun j task hj => hj, fun j place a _ ha' hne => ?_, fun _ h => h⟩
    have hij : i ≠ j := by
      rintro rfl
      rw [ha] at ha'
      exact hne (Option.some.inj ha').symm
    rw [List.getElem?_set_ne hij, ha']
  | push hj hnotified => exact h.elim
  | join hidle => exact h.elim
  | post hcontroller haccepts =>
    refine ⟨rfl, rfl, rfl, rfl, fun j task hj => ?_, fun _ _ _ _ ha _ => ha, fun _ h => h⟩
    exact List.getElem?_append_left (List.getElem?_eq_some_iff.mp hj).1 ▸ hj
  | refuse => exact ⟨rfl, rfl, rfl, rfl, fun _ _ hj => hj, fun _ _ _ _ ha _ => ha, fun _ h => h⟩
  | constructed hcontroller | spin hcontroller | joinReturns hcontroller
    | stopReturns hcontroller =>
    refine leaves_of_not_idle (fun _ => ?_) rfl rfl rfl rfl rfl rfl
    simp [ThreadPool.idle, hcontroller]
  | stop hidle =>
    exact leaves_of_not_idle (fun hjoin => absurd rfl (hstop hjoin)) rfl rfl rfl rfl rfl rfl

/-! ## The pool that shows -/

/-- The pool as `ThreadPool` has it at the place of the holder. -/
def viewAt (pool : ThreadPool) : Option Holder → ThreadPool
  | some (.worker _ (.notifyOne _ _)) | some (.pushed _) => pool.withoutLast
  | some .stored => pool.notifyAll
  | _ => pool

def view (s : LockedPool) : ThreadPool := viewAt s.pool s.holder

/-- Without the lock nobody sees the task that was pushed last. -/
theorem step_enqueue {before : ThreadPool} {event : PoolEvent} (h : Unguarded before event)
    (task : PoolTask) :
    (before.enqueue task).step event = (before.step event).map fun pool => pool.enqueue task := by
  cases event with
  | worker i k =>
    simp only [ThreadPool.step, ThreadPool.workerStep]
    rw [show (before.enqueue task).workers = before.workers from rfl]
    cases ha : before.workers[i]? with
    | none => rfl
    | some a =>
      have hentrance := h a ha
      cases a with
      | checkDie | checkKeepRunning | waiting | exited => rfl
      | running number rest =>
        cases rest with
        | done => rfl
        | post posted accepted refused =>
          simp only [show (before.enqueue task).checkPost = before.checkPost from rfl]
          cases before.checkPost <;> rfl
      | starting | checkHasWork | acquire | posting | exiting => cases hentrance
  | post posted =>
    simp only [ThreadPool.step]
    rw [show (before.enqueue task).checkPost = before.checkPost from rfl,
      show (before.enqueue task).controller = before.controller from rfl, apply_ite (Option.map _)]
    cases before.checkPost <;> rfl
  | wake i | constructed | spin | joinReturns | stop | stopReturns =>
    simp only [ThreadPool.step]
    rw [apply_ite (Option.map _)]
    rfl
  | push j k => exact h.elim
  | join => exact h.elim

/-- A worker that was notified is where it was, if it did not wait. -/
theorem step_notifyAll {pool pool' : ThreadPool} {event : PoolEvent} (h : Unguarded pool event)
    (hstep : pool.step event = some pool') :
    pool'.notifyAll = pool.notifyAll ∨ pool.notifyAll.step event = some pool'.notifyAll := by
  have hnotified : ∀ (i : Nat) (a : WorkerPc), pool.workers[i]? = some a → wakeUp a = a →
      pool.notifyAll.workers[i]? = some a := by
    intro i a ha hsame
    show (pool.workers.map wakeUp)[i]? = some a
    rw [List.getElem?_map, ha, Option.map_some, hsame]
  cases event with
  | worker i k =>
    refine Or.inr ?_
    cases ha : pool.workers[i]? with
    | none =>
      simp only [ThreadPool.step, ThreadPool.workerStep, ha] at hstep
      cases hstep
    | some a =>
      have hentrance := h a ha
      simp only [ThreadPool.step, ThreadPool.workerStep, ha] at hstep
      cases a with
      | checkDie | checkKeepRunning =>
        cases hstep
        simp only [ThreadPool.step, ThreadPool.workerStep, hnotified i _ ha rfl]
        rw [notifyAll_setWorker _ _ _ (by split <;> rfl)]
        rfl
      | waiting | exited => cases hstep
      | running number rest =>
        cases rest with
        | done =>
          cases hstep
          simp only [ThreadPool.step, ThreadPool.workerStep, hnotified i _ ha rfl]
          exact congrArg some (notifyAll_setWorker
            { pool with executed := pool.executed ++ [number] } i .checkDie rfl).symm
        | post task accepted refused =>
          simp only [ThreadPool.step, ThreadPool.workerStep, hnotified i _ ha rfl]
          rw [show pool.notifyAll.checkPost = pool.checkPost from rfl]
          cases hcheck : pool.checkPost with
          | ok u =>
            simp only [hcheck] at hstep
            cases hstep
            exact congrArg some (notifyAll_setWorker pool i (.posting _ _ _) rfl).symm
          | error e =>
            simp only [hcheck] at hstep
            cases hstep
            exact congrArg some (notifyAll_setWorker pool i (.running _ _) rfl).symm
      | starting | checkHasWork | acquire | posting | exiting => cases hentrance
  | wake i =>
    simp only [ThreadPool.step, Option.ite_none_right_eq_some, Option.some.injEq] at hstep
    obtain ⟨hpc, rfl⟩ := hstep
    exact Or.inl (notifyAll_wake hpc)
  | post task =>
    refine Or.inr ?_
    simp only [ThreadPool.step, Option.ite_none_left_eq_some] at hstep
    obtain ⟨hcontroller, hstep⟩ := hstep
    simp only [ThreadPool.step]
    rw [show pool.notifyAll.checkPost = pool.checkPost from rfl,
      show pool.notifyAll.controller = pool.controller from rfl, if_neg hcontroller]
    cases hcheck : pool.checkPost <;> rw [hcheck] at hstep <;> cases hstep <;> rfl
  | constructed =>
    simp only [ThreadPool.step, Option.ite_none_right_eq_some, Option.some.injEq] at hstep
    obtain ⟨⟨hcontroller, hcount⟩, rfl⟩ := hstep
    exact Or.inr (if_pos ⟨hcontroller, hcount.trans (List.length_map _).symm⟩)
  | spin | stop =>
    simp only [ThreadPool.step, Option.ite_none_right_eq_some, Option.some.injEq] at hstep
    obtain ⟨hcan, rfl⟩ := hstep
    exact Or.inr (if_pos hcan)
  | joinReturns | stopReturns =>
    simp only [ThreadPool.step, Option.ite_none_right_eq_some, Option.some.injEq] at hstep
    obtain ⟨hcan, rfl⟩ := hstep
    refine Or.inr (if_pos ?_)
    rw [allExited_notifyAll]
    exact hcan
  | push j k => exact h.elim
  | join => exact h.elim

/-- What a step of the pool with its lock is for the pool. -/
def Matches (pool pool' : ThreadPool) : Prop :=
  pool' = pool ∨ ∃ event, pool.step event = some pool'

theorem matches_unguarded {pool pool' : ThreadPool} {holder : Option Holder} {event : PoolEvent}
    (h : LockInv ⟨pool, holder⟩) (hevent : Unguarded pool event)
    (hstep : pool.step event = some pool') :
    Matches (viewAt pool holder) (viewAt pool' holder) := by
  have henqueued : ∀ before task, pool = enqueue before task →
      Matches pool.withoutLast pool'.withoutLast := by
    rintro before task rfl
    have hbefore : Unguarded before event := hevent
    rw [step_enqueue hbefore] at hstep
    obtain ⟨before', hstep', rfl⟩ := Option.map_eq_some_iff.mp hstep
    rw [withoutLast_enqueue, withoutLast_enqueue]
    exact Or.inr ⟨event, hstep'⟩
  match holder with
  | none => exact Or.inr ⟨event, hstep⟩
  | some (.worker i place) =>
    cases place with
    | notifyOne number accepted =>
      obtain ⟨before, task, hpool, -⟩ := h _ rfl
      exact henqueued before task hpool
    | _ => exact Or.inr ⟨event, hstep⟩
  | some (.pushed j) =>
    obtain ⟨before, task, hpool, -⟩ := h _ rfl
    exact henqueued before task hpool
  | some .stored => exact (step_notifyAll hevent hstep).imp id fun hview => ⟨event, hview⟩
  | some (.poster j) | some .posted | some .join | some .notified => exact Or.inr ⟨event, hstep⟩

theorem unguarded_step {s s' : LockedPool} {event : PoolEvent} (h : LockInv s)
    (hevent : Unguarded s.pool event)
    (hworker : ∀ i k place, event = .worker i k → s.holder ≠ some (.worker i place))
    (hstop : s.holder = some .join → event ≠ .stop)
    (hstep : s.unguarded event = some s') : LockInv s' ∧ Matches s.view s'.view := by
  obtain ⟨pool', hpool, rfl⟩ := Option.map_eq_some_iff.mp hstep
  refine ⟨fun holder hholder => ?_, matches_unguarded h hevent hpool⟩
  apply (h holder hholder).of_leaves
  apply leaves_of_unguarded hevent hpool
  · rintro i k place rfl rfl
    exact hworker i k place rfl hholder
  · rintro rfl
    exact hstop hholder

theorem enter_eq_some {s s' : LockedPool} {holder : Holder} (h : s.enter holder = some s') :
    s.holder = none ∧ s' = ⟨s.pool, some holder⟩ := by
  unfold enter at h
  split at h
  · cases h
    exact ⟨‹_›, rfl⟩
  · cases h

theorem known_of_entrance {pool : ThreadPool} {i : Nat} {a : WorkerPc} {place : WorkerSection}
    (ha : pool.workers[i]? = some a) (hplace : entrance a = some place) : Known pool i place := by
  cases a with
  | starting =>
    cases hplace
    exact .start ha
  | exiting =>
    rw [← Option.some.inj hplace]
    exact .exit ha
  | checkHasWork | acquire | posting =>
    cases hplace
    exact ha
  | checkDie | checkKeepRunning | waiting | running | exited => cases hplace

/-- A worker without the lock takes it, knowing where it is, or does something that needs no
lock. -/
theorem outsideStep_cases {s s' : LockedPool} {i : Nat} (h : s.outsideStep i = some s') :
    (∃ a place, s.holder = none ∧ Known s.pool i place ∧ entrance a = some place ∧
        s' = ⟨s.pool, some (.worker i place)⟩) ∨
      (Unguarded s.pool (.worker i 0) ∧ s.unguarded (.worker i 0) = some s') := by
  unfold outsideStep at h
  split at h
  · rename_i place hplace
    obtain ⟨a, ha, hentrance⟩ := Option.bind_eq_some_iff.mp hplace
    obtain ⟨hfree, hs'⟩ := enter_eq_some h
    exact Or.inl ⟨a, place, hfree, known_of_entrance ha hentrance, hentrance, hs'⟩
  · rename_i hnone
    exact Or.inr ⟨Option.bind_eq_none_iff.mp hnone, h⟩

/-! ## Steps with the lock -/

/-- `AddToThreadCounter` has loaded the counter and stores the sum. -/
theorem matches_store {pool : ThreadPool} {i : Nat} {val : UInt64} {next : WorkerPc}
    (h : CounterCall pool i val next) :
    pool.step (.worker i 0) = some ((pool.addToThreadCounter val).setWorker i next) := by
  cases h with
  | start h => simp only [ThreadPool.step, ThreadPool.workerStep, h]
  | exit h => simp only [ThreadPool.step, ThreadPool.workerStep, h]

theorem matches_hasWork {pool : ThreadPool} {i : Nat}
    (h : pool.workers[i]? = some .checkHasWork) :
    pool.step (.worker i 0) =
      some (pool.setWorker i (if pool.hasWorkThreadUnsafe then .acquire else .exiting)) := by
  simp only [ThreadPool.step, ThreadPool.workerStep, h]

theorem matches_takeTask {pool : ThreadPool} {i : Nat} (h : pool.workers[i]? = some .acquire) :
    pool.step (.worker i 0) = some (pool.takeTask i) := by
  simp only [ThreadPool.step, ThreadPool.workerStep, h]

theorem matches_push {pool : ThreadPool} {i number : Nat} {task accepted : PoolTask}
    (h : pool.workers[i]? = some (.posting number task accepted)) (k : Nat) :
    pool.step (.worker i k) =
      (pool.push task k).map fun pool => pool.setWorker i (.running number accepted) := by
  simp only [ThreadPool.step, ThreadPool.workerStep, h]

theorem view_of_unlocked {s : LockedPool} (h : s.holder = none) : s.view = s.pool := by
  rw [view, h]
  rfl

/-- A worker that has just taken the lock has pushed nothing. -/
theorem viewAt_entrance (pool : ThreadPool) (i : Nat) {a : WorkerPc} {place : WorkerSection}
    (h : entrance a = some place) : viewAt pool (some (.worker i place)) = pool := by
  cases place with
  | notifyOne number accepted => cases a <;> cases h
  | _ => rfl

/-- The part of `Post` under the lock is the push and then `notify_one`. -/
theorem push_eq_enqueue (pool : ThreadPool) (task : PoolTask) (k : Nat) :
    pool.push task k = (pool.enqueue task).notifyOne k := rfl

theorem sectionStep_matches {pool : ThreadPool} {i k : Nat} {place : WorkerSection}
    {s' : LockedPool} (h : Known pool i place) (hstep : sectionStep pool i k place = some s') :
    LockInv s' ∧ Matches (viewAt pool (some (.worker i place))) s'.view := by
  cases place with
  | load val next =>
    cases hstep
    exact ⟨lockInv_of_holds ⟨h, rfl⟩, Or.inl rfl⟩
  | store val loaded next =>
    obtain ⟨hcall, rfl⟩ := h
    cases hstep
    exact ⟨lockInv_of_holds trivial, Or.inr ⟨_, matches_store hcall⟩⟩
  | hasWork =>
    cases hstep
    exact ⟨lockInv_of_holds trivial, Or.inr ⟨_, matches_hasWork h⟩⟩
  | keepRunning =>
    cases hstep
    cases hkeep : pool.keepRunning with
    | true => exact ⟨lockInv_of_holds ⟨h, hkeep⟩, Or.inl rfl⟩
    | false => exact ⟨lockInv_of_holds ⟨h, Or.inl hkeep⟩, Or.inl rfl⟩
  | shouldProceed =>
    obtain ⟨ha, hkeep⟩ := h
    by_cases hwork : pool.hasWorkThreadUnsafe = true
    · simp only [sectionStep, if_pos hwork] at hstep
      cases hstep
      exact ⟨lockInv_of_holds ⟨ha, Or.inr (hasWorkThreadUnsafe_iff.mp hwork)⟩, Or.inl rfl⟩
    · simp only [sectionStep, if_neg hwork] at hstep
      cases hstep
      refine ⟨lockInv_unlocked _, Or.inr ⟨.worker i 0, ?_⟩⟩
      exact (matches_takeTask ha).trans
        (congrArg some (takeTask_waits i hkeep (not_hasWorkThreadUnsafe_iff.mp hwork)))
  | proceeded =>
    obtain ⟨ha, hproceed⟩ := h
    by_cases hwork : pool.hasWorkThreadUnsafe = true
    · simp only [sectionStep, if_pos hwork] at hstep
      cases hstep
      exact ⟨lockInv_of_holds ⟨ha, hasWorkThreadUnsafe_iff.mp hwork⟩, Or.inl rfl⟩
    · simp only [sectionStep, if_neg hwork] at hstep
      cases hstep
      have hqueue := not_hasWorkThreadUnsafe_iff.mp hwork
      have hkeep := hproceed.resolve_right (not_not.mpr hqueue)
      refine ⟨lockInv_of_holds trivial, Or.inr ⟨.worker i 0, ?_⟩⟩
      exact (matches_takeTask ha).trans (congrArg some (takeTask_proceeds i hkeep hqueue))
  | popWorkQueue =>
    obtain ⟨ha, hne⟩ := h
    obtain ⟨task, rest, hqueue⟩ := List.exists_cons_of_ne_nil hne
    simp only [sectionStep, hqueue] at hstep
    cases hstep
    refine ⟨lockInv_of_holds trivial, Or.inr ⟨.worker i 0, ?_⟩⟩
    exact (matches_takeTask ha).trans (congrArg some (takeTask_takes i hqueue))
  | push number task accepted =>
    cases hstep
    exact ⟨lockInv_of_holds ⟨pool, task, rfl, h⟩, Or.inl (withoutLast_enqueue pool task)⟩
  | notifyOne number accepted =>
    obtain ⟨before, task, rfl, ha⟩ := h
    obtain ⟨pool', hnotify, rfl⟩ := Option.map_eq_some_iff.mp hstep
    refine ⟨lockInv_of_holds trivial, Or.inr ⟨.worker i k, ?_⟩⟩
    rw [show viewAt _ (some (.worker i (.notifyOne number accepted))) = before from
      withoutLast_enqueue before task, matches_push ha, push_eq_enqueue, hnotify]
    rfl
  | release =>
    cases hstep
    exact ⟨lockInv_unlocked _, Or.inl rfl⟩

theorem outsideStep_matches {s s' : LockedPool} {i : Nat} (h : LockInv s)
    (hholder : ∀ place, s.holder ≠ some (.worker i place)) (hstep : s.outsideStep i = some s') :
    LockInv s' ∧ Matches s.view s'.view := by
  rcases outsideStep_cases hstep with ⟨a, place, hfree, hknown, hplace, rfl⟩ | ⟨hfree, hunguarded⟩
  · refine ⟨lockInv_of_holds hknown, Or.inl ?_⟩
    rw [view_of_unlocked hfree]
    exact viewAt_entrance s.pool i hplace
  · refine unguarded_step h hfree ?_ (fun _ => nofun) hunguarded
    rintro _ _ place ⟨⟩
    exact hholder place

theorem workerStep_matches {s s' : LockedPool} {i k : Nat} (h : LockInv s)
    (hstep : s.workerStep i k = some s') : LockInv s' ∧ Matches s.view s'.view := by
  unfold workerStep at hstep
  split at hstep
  · rename_i j place hholder
    split at hstep
    · subst_vars
      rw [view, hholder]
      exact sectionStep_matches (h _ hholder) hstep
    · refine outsideStep_matches h ?_ hstep
      intro place' hsame
      rw [hholder] at hsame
      cases hsame
      contradiction
  · rename_i hnot
    exact outsideStep_matches h (fun place => hnot i place) hstep

/-- Each step with the lock is a step of the pool, or none, and keeps the invariant. -/
theorem step_matches {s s' : LockedPool} {event : LockEvent} (h : LockInv s)
    (hstep : s.step event = some s') : LockInv s' ∧ Matches s.view s'.view := by
  have hfree : ∀ event, Unguarded s.pool event → (∀ i k, event ≠ .worker i k) →
      (s.holder = some .join → event ≠ .stop) →
      s.unguarded event = some s' → LockInv s' ∧ Matches s.view s'.view := by
    intro event hevent hworker hstop hunguarded
    exact unguarded_step h hevent (fun i k _ hi => absurd hi (hworker i k)) hstop hunguarded
  cases event with
  | worker i notified => exact workerStep_matches h hstep
  | wake i => exact hfree (.wake i) trivial nofun (fun _ => nofun) hstep
  | post task => exact hfree (.post task) trivial nofun (fun _ => nofun) hstep
  | constructed => exact hfree .constructed trivial nofun (fun _ => nofun) hstep
  | spin =>
    simp only [step, Option.ite_none_left_eq_some] at hstep
    exact hfree .spin trivial nofun (fun _ => nofun) hstep.2
  | joinReturns =>
    simp only [step, Option.ite_none_left_eq_some] at hstep
    exact hfree .joinReturns trivial nofun (fun _ => nofun) hstep.2
  | stop =>
    simp only [step, Option.ite_none_left_eq_some] at hstep
    refine hfree .stop trivial nofun (fun hjoin => absurd ?_ hstep.1) hstep.2
    simp only [joinHolds, hjoin, true_or, decide_true]
  | stopReturns =>
    simp only [step, Option.ite_none_left_eq_some] at hstep
    exact hfree .stopReturns trivial nofun (fun _ => nofun) hstep.2
  | lockPost j =>
    simp only [step, Option.ite_none_right_eq_some] at hstep
    obtain ⟨hnone, rfl⟩ := enter_eq_some hstep.2
    rw [view_of_unlocked hnone]
    exact ⟨lockInv_of_holds trivial, Or.inl rfl⟩
  | push =>
    simp only [step] at hstep
    split at hstep
    · rename_i j hholder
      obtain ⟨task, hj, rfl⟩ := Option.map_eq_some_iff.mp hstep
      rw [view, hholder]
      exact ⟨lockInv_of_holds ⟨s.pool, task, rfl, hj⟩, Or.inl (withoutLast_enqueue s.pool task)⟩
    · cases hstep
  | notifyOne notified =>
    simp only [step] at hstep
    split at hstep
    · rename_i j hholder
      obtain ⟨before, task, hpool, hj⟩ := h _ hholder
      obtain ⟨pool', hnotify, rfl⟩ := Option.map_eq_some_iff.mp hstep
      refine ⟨lockInv_of_holds trivial, Or.inr ⟨.push j notified, ?_⟩⟩
      rw [hpool] at hnotify
      rw [view, hholder, hpool, show viewAt _ (some (.pushed j)) = before from
        withoutLast_enqueue before task]
      simp only [ThreadPool.step, hj]
      exact hnotify
    · cases hstep
  | lockJoin =>
    simp only [step, Option.ite_none_right_eq_some] at hstep
    obtain ⟨hnone, rfl⟩ := enter_eq_some hstep.2
    rw [view_of_unlocked hnone]
    exact ⟨lockInv_of_holds hstep.1, Or.inl rfl⟩
  | join =>
    simp only [step, Option.ite_none_right_eq_some, Option.some.injEq] at hstep
    obtain ⟨hholder, rfl⟩ := hstep
    rw [view, hholder]
    exact ⟨lockInv_of_holds trivial, Or.inr ⟨.join, if_pos (h _ hholder)⟩⟩
  | notifyAll =>
    simp only [step, Option.ite_none_right_eq_some, Option.some.injEq] at hstep
    obtain ⟨hholder, rfl⟩ := hstep
    rw [view, hholder]
    exact ⟨lockInv_of_holds trivial, Or.inl rfl⟩
  | unlockPost | unlockJoin =>
    simp only [step, Option.ite_none_right_eq_some, Option.some.injEq] at hstep
    obtain ⟨hholder, rfl⟩ := hstep
    rw [view, hholder]
    exact ⟨lockInv_unlocked _, Or.inl rfl⟩

/-- What is reached with the lock is reached by the pool. -/
theorem reaches_view {s t : LockedPool} (h : LockInv s) (hreaches : Reaches step s t) :
    LockInv t ∧ Reaches ThreadPool.step s.view t.view :=
  hreaches.simulation LockedPool.view LockInv (fun _ _ _ hs hstep => step_matches hs hstep) h

/-! ## Steps as blocks -/

theorem reaches_outside {pool : ThreadPool} {i : Nat} {s' : LockedPool}
    (h : outsideStep ⟨pool, none⟩ i = some s') : Reaches step ⟨pool, none⟩ s' :=
  Reaches.single (e := .worker i 0) h

theorem reaches_section {pool : ThreadPool} {i : Nat} {place : WorkerSection} {s' : LockedPool}
    (k : Nat) (h : sectionStep pool i k place = some s') :
    Reaches step ⟨pool, some (.worker i place)⟩ s' := by
  apply Reaches.single (e := .worker i k)
  simp only [step, workerStep, if_true]
  exact h

theorem reaches_release (pool : ThreadPool) (i : Nat) :
    Reaches step ⟨pool, some (.worker i .release)⟩ ⟨pool, none⟩ :=
  reaches_section 0 rfl

/-- A worker takes the lock, when nobody holds it. -/
theorem reaches_entrance {pool : ThreadPool} {i : Nat} {a : WorkerPc} {place : WorkerSection}
    (ha : pool.workers[i]? = some a) (hplace : entrance a = some place) :
    Reaches step ⟨pool, none⟩ ⟨pool, some (.worker i place)⟩ := by
  apply reaches_outside (i := i)
  simp only [outsideStep, ha, Option.bind_some, hplace, enter, if_true]

/-- The block of `AddToThreadCounter`. -/
theorem reaches_counter (pool : ThreadPool) (i : Nat) (val : UInt64) (next : WorkerPc) :
    Reaches step ⟨pool, some (.worker i (.load val next))⟩
      ⟨(pool.addToThreadCounter val).setWorker i next, none⟩ :=
  (reaches_section 0 rfl).trans ((reaches_section 0 rfl).trans (reaches_release _ i))

theorem reaches_proceeded (pool : ThreadPool) (i : Nat)
    (hproceed : pool.threadsShouldProceed = true) :
    Reaches step ⟨pool, some (.worker i .proceeded)⟩ ⟨pool.takeTask i, none⟩ := by
  cases hqueue : pool.workQueue with
  | nil =>
    have hkeep := (threadsShouldProceed_iff.mp hproceed).resolve_right (not_not.mpr hqueue)
    have hleave : sectionStep pool i 0 .proceeded =
        some ⟨pool.setWorker i .checkDie, some (.worker i .release)⟩ :=
      if_neg (not_hasWorkThreadUnsafe_iff.mpr hqueue)
    rw [takeTask_proceeds i hkeep hqueue]
    exact (reaches_section 0 hleave).trans (reaches_release _ i)
  | cons task rest =>
    have hwork : pool.hasWorkThreadUnsafe = true := by
      rw [hasWorkThreadUnsafe_iff, hqueue]
      exact List.cons_ne_nil _ _
    have hpop : sectionStep pool i 0 .proceeded =
        some ⟨pool, some (.worker i .popWorkQueue)⟩ := if_pos hwork
    rw [takeTask_takes i hqueue]
    refine (reaches_section 0 hpop).trans (Reaches.trans ?_ (reaches_release _ i))
    apply reaches_section 0
    simp only [sectionStep, hqueue]

/-- The block with the wait. -/
theorem reaches_takeTask (pool : ThreadPool) (i : Nat) :
    Reaches step ⟨pool, some (.worker i .keepRunning)⟩ ⟨pool.takeTask i, none⟩ := by
  cases hkeep : pool.keepRunning with
  | false =>
    have htest : sectionStep pool i 0 .keepRunning =
        some ⟨pool, some (.worker i .proceeded)⟩ := by
      simp only [sectionStep, hkeep, Bool.not_false, if_true]
    have hproceed := threadsShouldProceed_iff.mpr (Or.inl hkeep)
    exact (reaches_section 0 htest).trans (reaches_proceeded pool i hproceed)
  | true =>
    have htest : sectionStep pool i 0 .keepRunning =
        some ⟨pool, some (.worker i .shouldProceed)⟩ := by
      simp only [sectionStep, hkeep, Bool.not_true, Bool.false_eq_true, if_false]
    refine (reaches_section 0 htest).trans ?_
    by_cases hwork : pool.hasWorkThreadUnsafe = true
    · have hgo : sectionStep pool i 0 .shouldProceed =
          some ⟨pool, some (.worker i .proceeded)⟩ := if_pos hwork
      have hproceed := threadsShouldProceed_iff.mpr (Or.inr (hasWorkThreadUnsafe_iff.mp hwork))
      exact (reaches_section 0 hgo).trans (reaches_proceeded pool i hproceed)
    · rw [takeTask_waits i hkeep (not_hasWorkThreadUnsafe_iff.mp hwork)]
      exact reaches_section 0 (if_neg hwork)

theorem reaches_unguarded {pool pool' : ThreadPool} {event : PoolEvent} (e : LockEvent)
    (h : pool.step event = some pool')
    (he : step ⟨pool, none⟩ e = unguarded ⟨pool, none⟩ event) :
    Reaches step ⟨pool, none⟩ ⟨pool', none⟩ := by
  apply Reaches.single (e := e)
  rw [he, unguarded, h]
  rfl

theorem reaches_worker {pool pool' : ThreadPool} {i k : Nat}
    (h : pool.step (.worker i k) = some pool') : Reaches step ⟨pool, none⟩ ⟨pool', none⟩ := by
  cases ha : pool.workers[i]? with
  | none =>
    simp only [ThreadPool.step, ThreadPool.workerStep, ha] at h
    cases h
  | some a =>
    simp only [ThreadPool.step, ThreadPool.workerStep, ha] at h
    cases a with
    | starting =>
      cases h
      exact (reaches_entrance ha rfl).trans (reaches_counter pool i 1 .checkDie)
    | exiting =>
      rw [← Option.some.inj h]
      exact (reaches_entrance ha rfl).trans (reaches_counter pool i (0 - 1) .exited)
    | checkHasWork =>
      cases h
      exact (reaches_entrance ha rfl).trans ((reaches_section 0 rfl).trans (reaches_release _ i))
    | acquire =>
      cases h
      exact (reaches_entrance ha rfl).trans (reaches_takeTask pool i)
    | posting number task accepted =>
      refine (reaches_entrance ha rfl).trans ((reaches_section 0 rfl).trans
        (Reaches.trans ?_ (reaches_release pool' i)))
      apply reaches_section k
      obtain ⟨pushed, hpush, rfl⟩ := Option.map_eq_some_iff.mp h
      rw [push_eq_enqueue] at hpush
      simp only [sectionStep, hpush, Option.map_some]
    | checkDie | checkKeepRunning =>
      have hstep : pool.step (.worker i 0) = some pool' := by
        simp only [ThreadPool.step, ThreadPool.workerStep, ha]
        exact h
      apply reaches_unguarded (.worker i 0) hstep
      simp only [step, workerStep, outsideStep, ha, Option.bind_some, entrance]
    | waiting | exited => cases h
    | running number rest =>
      have hstep : pool.step (.worker i 0) = some pool' := by
        cases rest with
        | done | post =>
          simp only [ThreadPool.step, ThreadPool.workerStep, ha]
          exact h
      apply reaches_unguarded (.worker i 0) hstep
      simp only [step, workerStep, outsideStep, ha, Option.bind_some, entrance]

/-- Each step of the pool can be done with the lock taken and released. -/
theorem reaches_of_step {pool pool' : ThreadPool} {event : PoolEvent}
    (h : pool.step event = some pool') : Reaches step ⟨pool, none⟩ ⟨pool', none⟩ := by
  cases event with
  | worker i k => exact reaches_worker h
  | wake i => exact reaches_unguarded (.wake i) h rfl
  | post task => exact reaches_unguarded (.post task) h rfl
  | constructed => exact reaches_unguarded .constructed h rfl
  | spin => exact reaches_unguarded .spin h rfl
  | joinReturns => exact reaches_unguarded .joinReturns h rfl
  | stop => exact reaches_unguarded .stop h rfl
  | stopReturns => exact reaches_unguarded .stopReturns h rfl
  | push j k =>
    cases hposter : pool.posters[j]? with
    | none =>
      simp only [ThreadPool.step, hposter] at h
      cases h
    | some task =>
      have hj : j < pool.posters.length := (List.getElem?_eq_some_iff.mp hposter).1
      simp only [ThreadPool.step, hposter, push_eq_enqueue] at h
      have hnotify : notifyOne { pool.enqueue task with
          posters := (pool.enqueue task).posters.eraseIdx j } k = some pool' := h
      refine ⟨[.lockPost j, .push, .notifyOne k, .unlockPost], ?_⟩
      simp only [after, step, if_pos hj, enter, if_true, hposter, Option.map_some, hnotify]
  | join =>
    have hidle : pool.idle = true := by
      cases ThreadPool.step_cases h with
      | join hidle => exact hidle
    refine ⟨[.lockJoin, .join, .notifyAll, .unlockJoin], ?_⟩
    simp only [ThreadPool.step, if_pos hidle] at h
    cases h
    simp only [after, step, if_pos hidle, enter, if_true]
    rfl

/-- While nobody holds the lock, the pool with its lock is where the pool can be. -/
theorem reaches_iff {pool pool' : ThreadPool} :
    Reaches step ⟨pool, none⟩ ⟨pool', none⟩ ↔ Reaches ThreadPool.step pool pool' := by
  constructor
  · intro h
    exact (reaches_view (lockInv_unlocked pool) h).2
  · intro h
    exact h.refine (fun pool => LockedPool.mk pool none) fun _ _ _ => reaches_of_step

end LockedPool

end Azulejo
