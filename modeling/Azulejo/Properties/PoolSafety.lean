import Azulejo.Intraprocess.Atomicity
import Azulejo.Intraprocess.History

/-!
# Safety of the worker pool

Whatever the threads do, and wherever one of them is in a block with the lock: tasks are taken in
the order in which they were pushed, each once; the counter counts the workers that are between
their two calls of `AddToThreadCounter`; nothing is popped from an empty queue; and behind a call
of `Stop` or `Join` no task is taken any more.
-/

namespace Azulejo

open Transitions

namespace LockedPool

/-- What is safe at any time. -/
structure Safe (s : LockedPool) : Prop where
  /-- The tasks that were taken, and behind them those on the queue, are in the order of their
  pushes. -/
  order : s.pool.started ++ s.pool.workQueue.map QueuedTask.number = List.range s.pool.accepted
  once : s.pool.started.Nodup
  counter : s.pool.numThreads.toNat = s.pool.workers.countP WorkerPc.isCounted
  /-- A worker that is about to store the counter with -1 added stores one less than it is. -/
  decrement : ∀ i loaded next, s.holder = some (.worker i (.store (0 - 1) loaded next)) →
    (loaded + (0 - 1)).toNat + 1 = s.pool.numThreads.toNat
  pop : ∀ i, s.holder = some (.worker i .popWorkQueue) → s.pool.workQueue ≠ []
  returned : s.pool.controller = .joined ∨ s.pool.controller = .stopped →
    ∀ t, Reaches step s t → t.pool.started = s.pool.started

/-- How the pool goes beyond the one that shows: it has one more task, or workers that still
wait. -/
theorem view_cases {s : LockedPool} (h : LockInv s) :
    s.view = s.pool ∨ (∃ task, s.pool = s.view.enqueue task) ∨ s.view = s.pool.notifyAll := by
  obtain ⟨pool, holder⟩ := s
  have hpushed : ∀ before task, pool = ThreadPool.enqueue before task →
      pool = pool.withoutLast.enqueue task := by
    rintro before task rfl
    rw [ThreadPool.withoutLast_enqueue]
  match holder with
  | none => exact Or.inl rfl
  | some (.worker i place) =>
    cases place with
    | notifyOne number accepted =>
      obtain ⟨before, task, hpool, -⟩ := h _ rfl
      exact Or.inr (Or.inl ⟨task, hpushed before task hpool⟩)
    | _ => exact Or.inl rfl
  | some (.pushed j) =>
    obtain ⟨before, task, hpool, -⟩ := h _ rfl
    exact Or.inr (Or.inl ⟨task, hpushed before task hpool⟩)
  | some .stored => exact Or.inr (Or.inr rfl)
  | some (.poster j) | some .posted | some .join | some .notified => exact Or.inl rfl

/-- What does not depend on the block that is under way. -/
structure SameCounts (pool pool' : ThreadPool) : Prop where
  started : pool'.started = pool.started
  numThreads : pool'.numThreads = pool.numThreads
  counted : pool'.workers.countP WorkerPc.isCounted = pool.workers.countP WorkerPc.isCounted
  controller : pool'.controller = pool.controller

theorem sameCounts_view {s : LockedPool} (h : LockInv s) : SameCounts s.view s.pool := by
  rcases view_cases h with hsame | ⟨task, hpushed⟩ | hnotified
  · rw [hsame]
    exact ⟨rfl, rfl, rfl, rfl⟩
  · rw [hpushed]
    exact ⟨rfl, rfl, rfl, rfl⟩
  · rw [hnotified]
    refine ⟨rfl, rfl, ?_, rfl⟩
    show _ = (s.pool.workers.map ThreadPool.wakeUp).countP WorkerPc.isCounted
    rw [List.countP_map]
    exact List.countP_congr fun pc _ => by simp only [Function.comp, WorkerPc.isCounted_wakeUp]

/-- A task that was pushed and does not show yet is the last one. -/
theorem order_of_view {s : LockedPool} (h : LockInv s) (hhistory : ThreadPool.History s.view) :
    s.pool.started ++ s.pool.workQueue.map QueuedTask.number = List.range s.pool.accepted := by
  have horder := hhistory.order
  rcases view_cases h with hsame | ⟨task, hpushed⟩ | hnotified
  · rwa [hsame] at horder
  · rw [hpushed]
    exact hhistory.order_push task
  · rwa [hnotified] at horder

theorem nodup_started {pool : ThreadPool} (h : ThreadPool.History pool) : pool.started.Nodup := by
  have hall := List.nodup_range (n := pool.accepted)
  rw [← h.order] at hall
  exact (List.nodup_append.mp hall).1

/-- A worker that calls `AddToThreadCounter(-1)` is counted. -/
theorem CounterCall.counted {pool : ThreadPool} (hinv : ThreadPool.Inv pool) {i : Nat}
    {val : UInt64} {next : WorkerPc} (h : CounterCall pool i val next) (hval : val = 0 - 1) :
    0 < pool.numThreads.toNat := by
  cases h with
  | start h => exact absurd hval (by decide)
  | exit h => exact hinv.counter_pos h rfl

theorem allExited_of_returned {pool : ThreadPool} (h : ThreadPool.Inv pool)
    (hreturned : pool.controller = .joined ∨ pool.controller = .stopped) :
    ThreadPool.AllExited pool := by
  rcases hreturned with hjoined | hstopped
  · exact h.controlled.at_place hjoined
  · exact h.controlled.at_place hstopped

/-- Once all workers have ended, no task is taken in any run. -/
theorem started_reaches {pool pool' : ThreadPool} (h : ThreadPool.AllExited pool)
    (hreaches : Reaches ThreadPool.step pool pool') : pool'.started = pool.started := by
  have hend := hreaches.invariant
    (fun p => ThreadPool.AllExited p ∧ p.started = pool.started)
    (fun p _ p' hp hstep => ⟨ThreadPool.allExited_step hp.1 hstep,
      (ThreadPool.started_step hp.1 hstep).trans hp.2⟩)
    ⟨h, rfl⟩
  exact hend.2

/-- **The worker pool is safe**, for any number of workers and in any run of posts, workers,
spurious wake-ups and calls of `Stop` and `Join`. -/
theorem pool_safe {n : UInt64} {s₀ s : LockedPool} (h : construct n = .ok s₀)
    (hreaches : Reaches step s₀ s) : Safe s := by
  obtain ⟨pool, hpool, rfl⟩ : ∃ pool, ThreadPool.construct n = .ok pool ∧ s₀ = ⟨pool, none⟩ := by
    unfold construct at h
    cases hpool : ThreadPool.construct n with
    | error e =>
      rw [hpool] at h
      cases h
    | ok pool =>
      rw [hpool] at h
      exact ⟨pool, rfl, (Except.ok.inj h).symm⟩
  obtain ⟨hlock, hbelow⟩ := reaches_view (lockInv_unlocked pool) hreaches
  have hinv : ThreadPool.Inv s.view := ThreadPool.inv_reaches hpool hbelow
  have hhistory : ThreadPool.History s.view :=
    hbelow.invariant ThreadPool.History (fun _ _ _ => ThreadPool.history_step)
      (ThreadPool.history_construct hpool)
  have hsame := sameCounts_view hlock
  refine ⟨order_of_view hlock hhistory, ?_, ?_, ?_, ?_, ?_⟩
  · rw [hsame.started]
    exact nodup_started hhistory
  · rw [hsame.numThreads, hsame.counted]
    exact hinv.counter
  · intro i loaded next hholder
    obtain ⟨hcall, rfl⟩ := hlock _ hholder
    have hview : s.view = s.pool := by
      rw [view, hholder]
      rfl
    rw [hview] at hinv
    exact ThreadPool.toNat_add_neg_one (by decide) (hcall.counted hinv rfl)
  · intro i hholder
    exact (hlock _ hholder).2
  · intro hreturned t ht
    rw [hsame.controller] at hreturned
    obtain ⟨hlock', hmore⟩ := reaches_view hlock ht
    rw [hsame.started, (sameCounts_view hlock').started]
    exact started_reaches (allExited_of_returned hinv hreturned) hmore

/-- One worker runs a task and then the pool is joined. -/
def joinedRun : List LockEvent :=
  List.replicate 4 (.worker 0 0) ++
    [.constructed, .post .done, .lockPost 0, .push, .notifyOne 0, .unlockPost] ++
    List.replicate 9 (.worker 0 0) ++ [.lockJoin, .join, .notifyAll, .unlockJoin] ++
    List.replicate 9 (.worker 0 0) ++ [.spin, .joinReturns]

theorem construct_one : construct 1 = .ok ⟨⟨0, true, false, [], [.starting], .constructing, [], 0,
    [], []⟩, none⟩ := rfl

theorem pool_safe_joinedRun :
    ∃ s, after step ⟨⟨0, true, false, [], [.starting], .constructing, [], 0, [], []⟩, none⟩
        joinedRun = some s ∧ s.pool.controller = .joined ∧ s.pool.executed = [0] ∧ Safe s :=
  ⟨_, rfl, rfl, rfl, pool_safe construct_one ⟨joinedRun, rfl⟩⟩

end LockedPool

end Azulejo
