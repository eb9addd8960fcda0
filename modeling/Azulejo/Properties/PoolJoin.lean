import Azulejo.Intraprocess.History

/-!
# Joining a pool

A worker leaves its loop only when it finds the queue empty, so whatever is on the queue while a
worker is in its loop is run. `Post` tests the flags before it takes the lock: in between, `Join`
may clear the flag and every worker may leave, and a task that is pushed then stays on the queue.
-/

namespace Azulejo

open Parties Transitions

namespace ThreadPool

/-! ## A worker for every task -/

/-- While there are tasks on the queue, some worker is in its loop. -/
def Attended (pool : ThreadPool) : Prop :=
  pool.workQueue ≠ [] → ∃ pc ∈ pool.workers, pc.inLoop = true

/-- A thread outside that pushes a task does so while some worker is in its loop. -/
def PushesAttended (pool : ThreadPool) : PoolEvent → Prop
  | .push _ _ => ∃ pc ∈ pool.workers, pc.inLoop = true
  | _ => True

/-- Some worker is still in its loop after a step of a worker that does not leave it. -/
theorem inLoop_set {workers : List WorkerPc} {i : Nat} {a b : WorkerPc}
    (ha : workers[i]? = some a) (hstays : a.inLoop = true → b.inLoop = true)
    (h : ∃ pc ∈ workers, pc.inLoop = true) : ∃ pc ∈ workers.set i b, pc.inLoop = true := by
  obtain ⟨pc, hpc, hloop⟩ := h
  by_cases hmoved : pc = a
  · rw [hmoved] at hloop
    exact ⟨b, mem_set_self ha b, hstays hloop⟩
  · exact ⟨pc, mem_set_of_mem ha hpc hmoved b, hloop⟩

theorem Notified.inLoop {workers workers' : List WorkerPc} {k : Nat}
    (h : Notified workers k workers') (hloop : ∃ pc ∈ workers, pc.inLoop = true) :
    ∃ pc ∈ workers', pc.inLoop = true := by
  cases h with
  | none hnone => exact hloop
  | one hk => exact inLoop_set hk (fun _ => rfl) hloop

/-- A worker leaves for `die_`, or because it found the queue empty. -/
theorem Move.stays {pool : ThreadPool} {a b : WorkerPc} (h : Move pool a b)
    (hdie : pool.die = false) (hqueue : pool.workQueue ≠ []) : b.inLoop = true := by
  cases h with
  | die h =>
    rw [hdie] at h
    cases h
  | noWork h => exact absurd h hqueue
  | live | keep | leave | work | wait | proceed | accept | refuse => rfl

theorem attended_step {pool pool' : ThreadPool} {event : PoolEvent} (hdie : pool.die = false)
    (h : Attended pool) (hpush : PushesAttended pool event)
    (hstep : pool.step event = some pool') : Attended pool' := by
  cases step_cases hstep with
  | start ha => exact fun hqueue => inLoop_set ha (fun _ => rfl) (h hqueue)
  | exit ha hval => exact fun hqueue => inLoop_set ha nofun (h hqueue)
  | move ha hmove =>
    exact fun hqueue => inLoop_set ha (fun _ => hmove.stays hdie hqueue) (h hqueue)
  | take ha hqueue => exact fun _ => ⟨_, mem_set_self ha _, rfl⟩
  | finish ha => exact fun hqueue => inLoop_set ha (fun _ => rfl) (h hqueue)
  | pushNested ha hnotified =>
    exact fun _ => ⟨_, mem_set_self (hnotified.getElem? ha nofun) _, rfl⟩
  | wake ha => exact fun hqueue => inLoop_set ha (fun _ => rfl) (h hqueue)
  | push hj hnotified => exact fun _ => hnotified.inLoop hpush
  | join hidle =>
    intro hqueue
    obtain ⟨pc, hpc, hloop⟩ := h hqueue
    refine ⟨wakeUp pc, List.mem_map_of_mem hpc, ?_⟩
    cases pc <;> exact hloop
  | post | refuse | constructed | spin | joinReturns | stop | stopReturns => exact h

/-! ## No worker for a task -/

/-- There are tasks on the queue, and every worker has left its loop. -/
structure Abandoned (pool : ThreadPool) : Prop where
  left : ∀ pc ∈ pool.workers, pc.inLoop = false
  queue : pool.workQueue ≠ []

/-- Workers that have left their loop do not come back. -/
theorem abandoned_step {pool pool' : ThreadPool} {event : PoolEvent} (h : Abandoned pool)
    (hstep : pool.step event = some pool') : Abandoned pool' := by
  have hgone : ∀ {i : Nat} {a : WorkerPc}, pool.workers[i]? = some a → a.inLoop = false :=
    fun ha => h.left _ (List.mem_of_getElem? ha)
  cases step_cases hstep with
  | start ha => cases hgone ha
  | exit ha hval => exact ⟨forall_set h.left rfl, h.queue⟩
  | move ha hmove =>
    have hleft := hgone ha
    cases hmove <;> cases hleft
  | take ha hqueue => cases hgone ha
  | finish ha => cases hgone ha
  | pushNested ha hnotified => cases hgone ha
  | wake ha => cases hgone ha
  | push hj hnotified =>
    cases hnotified with
    | none hnone => exact ⟨h.left, List.append_ne_nil_of_right_ne_nil _ (List.cons_ne_nil _ _)⟩
    | one hk => cases hgone hk
  | join hidle =>
    refine ⟨?_, h.queue⟩
    intro pc hpc
    obtain ⟨pc', hpc', rfl⟩ := List.mem_map.mp hpc
    have hleft := h.left pc' hpc'
    cases pc' <;> exact hleft
  | post | refuse | constructed | spin | joinReturns | stop | stopReturns =>
    exact ⟨h.left, h.queue⟩

/-- A push without a worker in its loop leaves its task behind. -/
theorem abandoned_of_not_pushesAttended {pool pool' : ThreadPool} {event : PoolEvent}
    (h : ¬ PushesAttended pool event) (hstep : pool.step event = some pool') :
    Abandoned pool' := by
  cases event with
  | push j k =>
    have hleft : ∀ pc ∈ pool.workers, pc.inLoop = false := by
      intro pc hpc
      by_contra hloop
      exact h ⟨pc, hpc, Bool.eq_true_of_not_eq_false hloop⟩
    cases step_cases hstep with
    | push hj hnotified =>
      cases hnotified with
      | none hnone => exact ⟨hleft, List.append_ne_nil_of_right_ne_nil _ (List.cons_ne_nil _ _)⟩
      | one hk => cases hleft _ (List.mem_of_getElem? hk)
  | worker | wake | post | constructed | join | spin | joinReturns | stop | stopReturns =>
    exact absurd trivial h

/-! ## Runs without a call of `Stop` -/

/-- `Stop` has not been called. -/
structure Unstopped (pool : ThreadPool) : Prop where
  die : pool.die = false
  stopping : pool.controller ≠ .stopping
  stopped : pool.controller ≠ .stopped

theorem unstopped_step {pool pool' : ThreadPool} {event : PoolEvent} (h : Unstopped pool)
    (hevent : event ≠ .stop) (hstep : pool.step event = some pool') : Unstopped pool' := by
  cases step_cases hstep with
  | constructed | join | spin | joinReturns => exact ⟨h.die, nofun, nofun⟩
  | stop hidle => exact absurd rfl hevent
  | stopReturns hcontroller hexited => exact absurd hcontroller h.stopping
  | start | exit | move | take | finish | pushNested | wake | post | refuse | push =>
    exact ⟨h.die, h.stopping, h.stopped⟩

theorem unstopped_construct {n : UInt64} {pool : ThreadPool} (h : construct n = .ok pool) :
    Unstopped pool ∧ Attended pool := by
  unfold construct at h
  split at h
  · cases h
  · cases h
    exact ⟨⟨rfl, nofun, nofun⟩, fun hqueue => absurd rfl hqueue⟩

/-- What holds in a run in which `Stop` is not called and every push is attended. -/
structure Served (pool : ThreadPool) : Prop where
  inv : Inv pool
  history : History pool
  unstopped : Unstopped pool
  attended : Attended pool

theorem served_construct {n : UInt64} {pool : ThreadPool} (h : construct n = .ok pool) :
    Served pool :=
  ⟨inv_construct h, history_construct h, (unstopped_construct h).1, (unstopped_construct h).2⟩

theorem served_step {pool pool' : ThreadPool} {event : PoolEvent} (h : Served pool)
    (hevent : event ≠ .stop) (hpush : PushesAttended pool event)
    (hstep : pool.step event = some pool') : Served pool' :=
  ⟨inv_step h.inv hstep, history_step h.history hstep, unstopped_step h.unstopped hevent hstep,
    attended_step h.unstopped.die h.attended hpush hstep⟩

/-- What `Join` promises: nothing is on the queue, and all that was accepted was run, once. -/
def Drained (pool : ThreadPool) : Prop :=
  pool.workQueue = [] ∧ pool.executed.Perm (List.range pool.accepted)

theorem Inv.allExited_of_joined {pool : ThreadPool} (h : Inv pool)
    (hjoined : pool.controller = .joined) : AllExited pool :=
  h.controlled.at_place hjoined

theorem Served.drained {pool : ThreadPool} (h : Served pool) (hexited : AllExited pool) :
    Drained pool := by
  have hqueue : pool.workQueue = [] := by
    by_contra hne
    obtain ⟨pc, hpc, hloop⟩ := h.attended hne
    rw [hexited pc hpc] at hloop
    cases hloop
  exact ⟨hqueue, h.history.executed_perm hexited hqueue⟩

/-! ## Posts before `Join` -/

/-- The threads outside post only before `Join` is called, and `Stop` is not called. -/
def PostsBeforeJoin (pool : ThreadPool) : PoolEvent → Prop
  | .post _ => pool.controller = .ready
  | .join => pool.posters = []
  | .stop => False
  | _ => True

instance (pool : ThreadPool) : (event : PoolEvent) → Decidable (PostsBeforeJoin pool event)
  | .post _ => inferInstanceAs (Decidable (pool.controller = .ready))
  | .join => inferInstanceAs (Decidable (pool.posters = []))
  | .stop => .isFalse id
  | .worker _ _ => .isTrue trivial
  | .wake _ => .isTrue trivial
  | .push _ _ => .isTrue trivial
  | .constructed => .isTrue trivial
  | .spin => .isTrue trivial
  | .joinReturns => .isTrue trivial
  | .stopReturns => .isTrue trivial

/-- A thread is in `Post` only before `Join` is called. -/
def PostersBeforeJoin (pool : ThreadPool) : Prop :=
  pool.controller = .ready ∨ pool.posters = []

theorem postersBeforeJoin_step {pool pool' : ThreadPool} {event : PoolEvent}
    (h : PostersBeforeJoin pool) (hevent : PostsBeforeJoin pool event)
    (hstep : pool.step event = some pool') : PostersBeforeJoin pool' := by
  cases step_cases hstep with
  | post hcontroller haccepts => exact Or.inl hevent
  | constructed hcontroller hcount => exact Or.inl rfl
  | push hj hnotified =>
    refine h.imp_right fun hnone => ?_
    rw [hnone] at hj
    cases hj
  | join hidle => exact Or.inr hevent
  | spin hcontroller _ | joinReturns hcontroller _ | stopReturns hcontroller _ =>
    refine Or.inr (h.resolve_left ?_)
    rw [hcontroller]
    nofun
  | stop hidle => exact hevent.elim
  | start | exit | move | take | finish | pushNested | wake | refuse => exact h

/-- Before `Join` is called every worker is in its loop. -/
theorem pushesAttended_of_ready {pool : ThreadPool} (h : Inv pool) (hworkers : pool.workers ≠ [])
    (hposters : PostersBeforeJoin pool) {event : PoolEvent} {pool' : ThreadPool}
    (hstep : pool.step event = some pool') : PushesAttended pool event := by
  cases step_cases hstep with
  | push hj hnotified =>
    have hready : pool.controller = .ready := by
      refine hposters.resolve_right fun hnone => ?_
      rw [hnone] at hj
      cases hj
    have haccepts : Accepts pool := h.controlled.at_place hready
    obtain ⟨pc, hpc⟩ := List.exists_mem_of_ne_nil _ hworkers
    exact ⟨pc, hpc, h.staying haccepts pc hpc⟩
  | _ => trivial

/-- What holds in a run in which all posts come before `Join`. -/
structure Joinable (pool : ThreadPool) : Prop where
  served : Served pool
  workers : pool.workers ≠ []
  posters : PostersBeforeJoin pool

theorem joinable_construct {n : UInt64} {pool : ThreadPool} (h : construct n = .ok pool) :
    Joinable pool := by
  refine ⟨served_construct h, workers_ne_nil_of_construct h, Or.inr ?_⟩
  unfold construct at h
  split at h
  · cases h
  · cases h
    rfl

theorem joinable_step {pool pool' : ThreadPool} {event : PoolEvent} (h : Joinable pool)
    (hevent : PostsBeforeJoin pool event) (hstep : pool.step event = some pool') :
    Joinable pool' := by
  have hstop : event ≠ .stop := by
    rintro rfl
    exact hevent
  refine ⟨served_step h.served hstop (pushesAttended_of_ready h.served.inv h.workers h.posters
    hstep) hstep, ?_, postersBeforeJoin_step h.posters hevent hstep⟩
  rw [← List.length_pos_iff, length_workers_step hstep, List.length_pos_iff]
  exact h.workers

/-! ## No deadlock -/

/-- Nothing can happen but a thread outside coming to post, or a worker that waits waking up. -/
def Deadlocked (pool : ThreadPool) : Prop :=
  ∀ event pool', pool.step event = some pool' → PostsBeforeJoin pool event →
    (∃ i, event = .wake i) ∨ ∃ task, event = .post task

/-- In a deadlock nothing else can happen. -/
theorem Deadlocked.absurd {pool pool' : ThreadPool} {event : PoolEvent} (h : Deadlocked pool)
    (hstep : pool.step event = some pool') (hevent : PostsBeforeJoin pool event)
    (hwake : ∀ i, event ≠ .wake i) (hpost : ∀ task, event ≠ .post task) : False := by
  rcases h _ _ hstep hevent with ⟨i, hi⟩ | ⟨task, htask⟩
  · exact hwake i hi
  · exact hpost task htask

/-- In a deadlock every worker waits or has ended. -/
theorem Deadlocked.workers {pool : ThreadPool} (h : Deadlocked pool) :
    ∀ pc ∈ pool.workers, pc = .waiting ∨ pc = .exited := by
  intro pc hpc
  by_contra hne
  rw [not_or] at hne
  obtain ⟨i, hi⟩ := List.getElem?_of_mem hpc
  obtain ⟨k, pool', hstep⟩ := worker_enabled hi hne.1 hne.2
  exact h.absurd hstep trivial (by simp) (by simp)

/-- The constructor gets to its end. -/
theorem not_deadlocked_of_constructing {pool : ThreadPool} (h : Inv pool)
    (hcontroller : pool.controller = .constructing) : ¬ Deadlocked pool := by
  intro hdead
  have haccepts : Accepts pool := h.controlled.at_place hcontroller
  have hcounted : ∀ pc ∈ pool.workers, pc.isCounted = true := by
    intro pc hpc
    rcases hdead.workers pc hpc with rfl | rfl
    · rfl
    · cases h.staying haccepts _ hpc
  have hstep : pool.step .constructed = some { pool with controller := .ready } := by
    simp only [step, hcontroller, h.counter, List.countP_eq_length.mpr hcounted, and_self, if_true]
  exact hdead.absurd hstep trivial (by simp) (by simp)

/-- Before `Join`, the controlling thread can call it, or a poster can push. -/
theorem not_deadlocked_of_ready {pool : ThreadPool} (hcontroller : pool.controller = .ready) :
    ¬ Deadlocked pool := by
  intro hdead
  cases hposters : pool.posters with
  | nil =>
    have hidle : pool.idle = true := by
      unfold idle
      rw [hcontroller]
      rfl
    have hstep : pool.step .join = some { pool.notifyAll with
        keepRunning := false, controller := .spinning } := by
      simp only [step, hidle, if_true]
    exact hdead.absurd hstep hposters (by simp) (by simp)
  | cons task rest =>
    obtain ⟨k, pool', hpush⟩ := push_enabled { pool with posters := pool.posters.eraseIdx 0 } task
    have hstep : pool.step (.push 0 k) = some pool' := by
      simp only [step, hposters, List.getElem?_cons_zero]
      rw [hposters] at hpush
      exact hpush
    exact hdead.absurd hstep trivial (by simp) (by simp)

/-- The loop of `Join` gets to its end. -/
theorem not_deadlocked_of_spinning {pool : ThreadPool} (h : Inv pool)
    (hcontroller : pool.controller = .spinning) : ¬ Deadlocked pool := by
  intro hdead
  have hcontrolled : pool.keepRunning = false := h.controlled.at_place hcontroller
  have hexited : ∀ pc ∈ pool.workers, ¬ pc.isCounted = true := by
    intro pc hpc
    rcases hdead.workers pc hpc with rfl | rfl
    · exact absurd hpc (h.awake hcontrolled)
    · exact Bool.false_ne_true
  have hzero : pool.numThreads.toNat = 0 := by
    rw [h.counter, List.countP_eq_zero]
    exact hexited
  have hpositive : ¬ pool.numThreads > 0 := by
    rw [gt_iff_lt, UInt64.lt_iff_toNat_lt, UInt64.toNat_zero]
    omega
  have hstep : pool.step .spin = some { pool with controller := .joining } := by
    simp only [step, hcontroller, hpositive, not_false_eq_true, and_self, if_true]
  exact hdead.absurd hstep trivial (by simp) (by simp)

theorem not_deadlocked_of_joining {pool : ThreadPool} (h : Inv pool)
    (hcontroller : pool.controller = .joining) : ¬ Deadlocked pool := by
  intro hdead
  have hcontrolled : AllExited pool := h.controlled.at_place hcontroller
  have hstep : pool.step .joinReturns = some { pool with controller := .joined } := by
    simp only [step, hcontroller, allExited_iff.mpr hcontrolled, and_self, if_true]
  exact hdead.absurd hstep trivial (by simp) (by simp)

theorem Joinable.not_deadlocked {pool : ThreadPool} (h : Joinable pool)
    (hjoined : pool.controller ≠ .joined) : ¬ Deadlocked pool := by
  have hunstopped := h.served.unstopped
  cases hcontroller : pool.controller with
  | constructing => exact not_deadlocked_of_constructing h.served.inv hcontroller
  | ready => exact not_deadlocked_of_ready hcontroller
  | spinning => exact not_deadlocked_of_spinning h.served.inv hcontroller
  | joining => exact not_deadlocked_of_joining h.served.inv hcontroller
  | joined => exact absurd hcontroller hjoined
  | stopping => exact absurd hcontroller hunstopped.stopping
  | stopped => exact absurd hcontroller hunstopped.stopped

end ThreadPool

open ThreadPool

/-- A pool with one worker that has started. -/
def oneWorker : ThreadPool where
  numThreads := 0
  keepRunning := true
  die := false
  workQueue := []
  workers := [.starting]
  controller := .constructing
  posters := []
  accepted := 0
  started := []
  executed := []

theorem construct_one : construct 1 = .ok oneWorker := rfl

/-- A task that posts another one is run, and then the pool is joined. -/
def nestedPosts : List PoolEvent :=
  [.worker 0 0, .constructed, .post (.post .done .done .done), .push 0 0, .worker 0 0,
    .worker 0 0, .worker 0 0, .worker 0 0, .worker 0 0, .worker 0 0, .join, .worker 0 0,
    .worker 0 0, .worker 0 0, .worker 0 0, .worker 0 0, .worker 0 0, .worker 0 0, .worker 0 0,
    .worker 0 0, .spin, .joinReturns]

/-- When all posts from outside come before `Join` and `Stop` is not called, there is no deadlock
before `Join` has returned, and then the queue is empty, all workers have ended, and every task
for which `Post` returned, in a task or before, has been run once. -/
theorem join_drains {n : UInt64} {pool : ThreadPool} (hpool : construct n = .ok pool)
    {events : List PoolEvent} {pool' : ThreadPool} (hrun : after step pool events = some pool')
    (hposts : Along step PostsBeforeJoin pool events) :
    (pool'.controller ≠ .joined → ¬ Deadlocked pool') ∧
      (pool'.controller = .joined → AllExited pool' ∧ Drained pool') := by
  have hjoinable : Joinable pool' := invariant Joinable (fun _ _ _ => joinable_step)
    (joinable_construct hpool) hposts hrun
  refine ⟨hjoinable.not_deadlocked, fun hjoined => ?_⟩
  have hexited := hjoinable.served.inv.allExited_of_joined hjoined
  exact ⟨hexited, hjoinable.served.drained hexited⟩

theorem join_drains_nestedPosts :
    ∃ pool', after step oneWorker nestedPosts = some pool' ∧ pool'.controller = .joined ∧
      (pool'.controller ≠ .joined → ¬ Deadlocked pool') ∧
      (pool'.controller = .joined → AllExited pool' ∧ Drained pool') := by
  have hrun : (after step oneWorker nestedPosts).map ThreadPool.controller = some .joined := by
    decide +kernel
  obtain ⟨pool', hpool', hjoined⟩ := Option.map_eq_some_iff.mp hrun
  have hposts : Along step PostsBeforeJoin oneWorker nestedPosts := by decide +kernel
  exact ⟨pool', hpool', hjoined, join_drains construct_one hpool' hposts⟩

/-- Behind a `Join`, in a run without `Stop`, all tasks for which `Post` returned have been run
exactly when every thread outside that pushed one did so while some worker was in its loop. -/
theorem post_join_iff {n : UInt64} {pool : ThreadPool} (hpool : construct n = .ok pool)
    {events : List PoolEvent} {pool' : ThreadPool} (hrun : after step pool events = some pool')
    (hstop : ∀ event ∈ events, event ≠ .stop) (hjoined : pool'.controller = .joined) :
    Drained pool' ↔ Along step PushesAttended pool events := by
  constructor
  · intro hdrained
    by_contra hnot
    obtain ⟨before, event, rest, s₁, s₂, -, -, -, hevent, hstep, hend⟩ :=
      exists_of_not_along hrun hnot
    have habandoned := abandoned_of_not_pushesAttended hevent hstep
    exact (Reaches.invariant Abandoned (fun _ _ _ => abandoned_step) habandoned ⟨rest, hend⟩).queue
      hdrained.1
  · intro halong
    have hserved : Served pool' := invariant Served
      (fun _ _ _ hs hok hstep => served_step hs hok.1 hok.2 hstep) (served_construct hpool)
      (halong.and_forall hstop) hrun
    exact hserved.drained (hserved.inv.allExited_of_joined hjoined)

/-- A thread that posts a task is overtaken by a `Join` between the test and the lock. -/
def overtakenPost : List PoolEvent :=
  [.worker 0 0, .constructed, .post .done, .join, .worker 0 0, .worker 0 0, .worker 0 0,
    .worker 0 0, .spin, .joinReturns, .push 0 0]

/-- `Post` returns and its task stays on the queue. -/
theorem overtakenPost_not_drained :
    ∃ pool', after step oneWorker overtakenPost = some pool' ∧ pool'.controller = .joined ∧
      AllExited pool' ∧ pool'.workQueue = [⟨0, .done⟩] ∧ ¬ Drained pool' := by
  have hrun : (after step oneWorker overtakenPost).map (fun pool =>
      (pool.controller, pool.allExited, pool.workQueue)) = some (.joined, true, [⟨0, .done⟩]) := by
    decide +kernel
  obtain ⟨pool', hpool', heq⟩ := Option.map_eq_some_iff.mp hrun
  simp only [Prod.mk.injEq] at heq
  refine ⟨pool', hpool', heq.1, allExited_iff.mp heq.2.1, heq.2.2, fun hdrained => ?_⟩
  have hqueue := hdrained.1
  rw [heq.2.2] at hqueue
  cases hqueue

theorem post_join_iff_nestedPosts :
    ∃ pool', after step oneWorker nestedPosts = some pool' ∧ pool'.controller = .joined ∧
      (Drained pool' ↔ Along step PushesAttended oneWorker nestedPosts) := by
  have hrun : (after step oneWorker nestedPosts).map ThreadPool.controller = some .joined := by
    decide +kernel
  obtain ⟨pool', hpool', hjoined⟩ := Option.map_eq_some_iff.mp hrun
  have hstop : ∀ event ∈ nestedPosts, event ≠ .stop := by decide
  exact ⟨pool', hpool', hjoined, post_join_iff construct_one hpool' hstop hjoined⟩

end Azulejo
