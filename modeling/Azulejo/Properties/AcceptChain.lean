import Azulejo.Interprocess.AcceptLoop
import Azulejo.Properties.StartRetry

/-!
# The chain of accepts

A server has one accept at a time: the next one is started by the handling of the one before, and
no second `Start` gets past the open acceptor. An accept that ends with an error is the last one,
and a connection that comes while `StartApplication` runs has to wait for it to return.
-/

namespace Azulejo

open Stateful

namespace TCPServer

/-! ## Places of the chain -/

/-- Where the one accept is. -/
inductive AcceptPhase where
  /-- No start has succeeded. -/
  | idle
  /-- It is outstanding. -/
  | accepting
  /-- It has completed, and no thread has handled it. -/
  | accepted (errorCode : Bool)
  /-- The application of its connection is being started. -/
  | starting
  /-- It ended with an error. -/
  | ended
  deriving DecidableEq

/-- The connection handlers when `n` accepts were handled without an error before the one in
question. -/
def AcceptLoop.at (n : Nat) : AcceptPhase → AcceptLoop
  | .idle => .new
  | .accepting => ⟨n + 1, [n], [], [], List.range n⟩
  | .accepted errorCode => ⟨n + 1, [], [(n, errorCode)], [], List.range n⟩
  | .starting => ⟨n + 1, [], [], [n], List.range (n + 1)⟩
  | .ended => ⟨n + 1, [], [], [], List.range n⟩

variable {A W : Type} (ops : AcceptorOps A W)

/-- The server is at a place of its chain. -/
structure Listening.InChain (numThreads : UInt64) (n : Nat) (phase : AcceptPhase)
    (s : Listening A) : Prop where
  loop : s.loop = .at n phase
  threads : s.server.numThreads = numThreads
  /-- Before a start succeeds there is no thread, and after it the acceptor is open. -/
  started : if phase = .idle then n = 0 ∧ s.server.threadPool = []
    else ops.isOpen s.server.acceptor = true ∧
      s.server.threadPool = List.replicate numThreads.toNat .ioServiceRun

/-- No connection is accepted any more. -/
def Listening.Deaf (s : Listening A) : Prop :=
  s.stopped = true ∨ s.terminated = true ∨
    ops.isOpen s.server.acceptor = true ∧ s.loop.accepting = [] ∧ s.loop.accepted = [] ∧
      s.loop.starting = []

variable {ops} {numThreads : UInt64} {n : Nat} {phase : AcceptPhase} {s : Listening A}

/-! ## Starts -/

/-- A start that succeeds leaves the acceptor open and adds the threads; one that throws changes
nothing but the acceptor. -/
theorem start_ends (laws : ops.Lawful) (hasync : ∀ a, ops.isOpen (ops.asyncAccept a) = ops.isOpen a)
    (me : TCPServer A) (call : StartCall W) :
    (∃ a, (start ops call).run me =
        .ok () ⟨me.numThreads,
          me.threadPool ++ List.replicate me.numThreads.toNat .ioServiceRun, a⟩ ∧
        ops.isOpen a = true) ∨
      ∃ e a, (start ops call).run me = .error e ⟨me.numThreads, me.threadPool, a⟩ := by
  unfold start
  cases hopen : (ops.openAcceptor call.system call.endPoint.protocol me.acceptor).1 with
  | true => exact Or.inr ⟨_, _, bind_error (checked_error hopen _)⟩
  | false =>
    have hopened := laws.opens _ _ _ hopen
    rw [bind_ok (checked_ok hopen _)]
    cases hoption : (ops.setOption call.system
        (ops.openAcceptor call.system call.endPoint.protocol me.acceptor).2).1 with
    | true => exact Or.inr ⟨_, _, bind_error (checked_error hoption _)⟩
    | false =>
      have hset := (laws.isOpen_setOption call.system _).trans hopened
      rw [bind_ok (checked_ok hoption _)]
      cases hbind : (ops.bind call.system call.endPoint (ops.setOption call.system
          (ops.openAcceptor call.system call.endPoint.protocol me.acceptor).2).2).1 with
      | true => exact Or.inr ⟨_, _, bind_error (checked_error hbind _)⟩
      | false =>
        have hbound := (laws.isOpen_bind call.system call.endPoint _).trans hset
        rw [bind_ok (checked_ok hbind _)]
        cases hlisten : (ops.listen call.system (ops.bind call.system call.endPoint
            (ops.setOption call.system (ops.openAcceptor call.system call.endPoint.protocol
              me.acceptor).2).2).2).1 with
        | true => exact Or.inr ⟨_, _, bind_error (checked_error hlisten _)⟩
        | false =>
          have hlistens := (laws.isOpen_listen call.system _).trans hbound
          rw [bind_ok (checked_ok hlisten _), bind_ok (EStateM.run_modify _ _)]
          exact Or.inl ⟨_, rfl, (hasync _).trans hlistens⟩

/-- No start succeeds on an open acceptor, and none changes the server. -/
theorem start_open (laws : ops.Lawful) {me : TCPServer A} (h : ops.isOpen me.acceptor = true)
    (call : StartCall W) : ∃ e, (start ops call).run me = .error e me :=
  ⟨_, start_not_opened laws (laws.open_twice _ _ _ h)⟩

namespace Listening

theorem inChain_new {ops : AcceptorOps A W} {server : TCPServer A}
    (h : construct ops numThreads = .ok server) :
    InChain ops numThreads 0 .idle (new server) := by
  unfold construct at h
  split at h
  · cases h
  · cases h
    exact ⟨rfl, rfl, rfl, rfl⟩

theorem InChain.isOpen (h : s.InChain ops numThreads n phase) (hphase : phase ≠ .idle) :
    ops.isOpen s.server.acceptor = true := by
  have hstarted := h.started
  rw [if_neg hphase] at hstarted
  exact hstarted.1

theorem inChain_start (laws : ops.Lawful)
    (hasync : ∀ a, ops.isOpen (ops.asyncAccept a) = ops.isOpen a)
    (h : s.InChain ops numThreads n phase) (hs : s.terminated = false) (call : StartCall W) :
    ∃ phase', InChain ops numThreads n phase' (s.step ops (.start call)) := by
  unfold step
  rw [if_neg (by rw [hs]; exact Bool.false_ne_true)]
  by_cases hphase : phase = .idle
  · subst hphase
    obtain ⟨rfl, hpool⟩ : n = 0 ∧ s.server.threadPool = [] := h.started
    rcases start_ends laws hasync s.server call with ⟨a, hrun, hopen⟩ | ⟨e, a, hrun⟩
    · simp only [hrun]
      refine ⟨.accepting, ?_, h.threads, hopen, ?_⟩
      · rw [h.loop]
        rfl
      · rw [hpool, h.threads, List.nil_append]
    · simp only [hrun]
      exact ⟨.idle, h.loop, h.threads, rfl, hpool⟩
  · obtain ⟨e, hrun⟩ := start_open laws (h.isOpen hphase) call
    simp only [hrun]
    exact ⟨phase, h⟩

theorem eq_of_getElem?_singleton {α : Type} {a b : α} {i : Nat} (h : [a][i]? = some b) :
    i = 0 ∧ a = b := by
  rw [List.getElem?_singleton, Option.ite_none_right_eq_some] at h
  exact ⟨h.1, Option.some.inj h.2⟩

/-- An accept that completes is the outstanding one. -/
theorem inChain_accept (h : s.InChain ops numThreads n phase) (hs : s.terminated = false)
    (i : Nat) (errorCode : Bool) :
    ∃ phase', InChain ops numThreads n phase' (s.step ops (.accept i errorCode)) := by
  unfold step
  rw [if_neg (by rw [hs]; exact Bool.false_ne_true)]
  cases hi : s.loop.accepting[i]? with
  | none =>
    simp only [hi]
    exact ⟨phase, h⟩
  | some handler =>
    have hloop := h.loop
    cases phase with
    | accepting =>
      obtain ⟨rfl, rfl⟩ := eq_of_getElem?_singleton (by rw [← hi, hloop, AcceptLoop.at])
      simp only [hi]
      refine ⟨.accepted errorCode, ?_, h.threads, h.started⟩
      rw [hloop]
      rfl
    | _ =>
      rw [hloop] at hi
      cases hi

/-- The application of the connection is started, or the chain ends. -/
theorem inChain_handleNewConnection (h : s.InChain ops numThreads n phase)
    (hs : s.terminated = false) (i : Nat) :
    ∃ phase', InChain ops numThreads n phase' (s.step ops (.handleNewConnection i)) := by
  unfold step
  rw [if_neg (by rw [hs]; exact Bool.false_ne_true)]
  cases hstopped : s.stopped with
  | true =>
    simp only [if_true]
    exact ⟨phase, h⟩
  | false =>
    cases hi : s.loop.accepted[i]? with
    | none =>
      simp only [hi, Bool.false_eq_true, if_false]
      exact ⟨phase, h⟩
    | some completion =>
      obtain ⟨handler, errorCode⟩ := completion
      have hloop := h.loop
      cases phase with
      | accepted ec =>
        obtain ⟨rfl, hsame⟩ := eq_of_getElem?_singleton (by rw [← hi, hloop, AcceptLoop.at])
        obtain ⟨rfl, rfl⟩ := Prod.mk.inj hsame
        simp only [hi, Bool.false_eq_true, if_false]
        cases ec with
        | true =>
          refine ⟨.ended, ?_, h.threads, h.started⟩
          rw [hloop]
          rfl
        | false =>
          refine ⟨.starting, ?_, h.threads, h.started⟩
          rw [hloop]
          simp only [AcceptLoop.at, AcceptLoop.handleNewConnection, Bool.false_eq_true, if_false,
            List.eraseIdx_cons_zero, List.nil_append, List.range_succ]
      | _ =>
        rw [hloop] at hi
        cases hi

/-- The next accept is started. -/
theorem inChain_startApplicationReturns
    (hasync : ∀ a, ops.isOpen (ops.asyncAccept a) = ops.isOpen a)
    (h : s.InChain ops numThreads n phase) (hs : s.terminated = false) (i : Nat) :
    ∃ n' phase', InChain ops numThreads n' phase' (s.step ops (.startApplicationReturns i)) := by
  unfold step
  rw [if_neg (by rw [hs]; exact Bool.false_ne_true)]
  cases hi : s.loop.starting[i]? with
  | none =>
    simp only [hi]
    exact ⟨n, phase, h⟩
  | some handler =>
    have hloop := h.loop
    cases phase with
    | starting =>
      obtain ⟨rfl, rfl⟩ := eq_of_getElem?_singleton (by rw [← hi, hloop, AcceptLoop.at])
      obtain ⟨hopen, hpool⟩ := h.started
      simp only [hi]
      refine ⟨n + 1, .accepting, ?_, h.threads, (hasync _).trans hopen, hpool⟩
      rw [hloop]
      rfl
    | _ =>
      rw [hloop] at hi
      cases hi

/-- Every event leaves the server at a place of its chain. -/
theorem inChain_step (laws : ops.Lawful)
    (hasync : ∀ a, ops.isOpen (ops.asyncAccept a) = ops.isOpen a)
    (s : Listening A) (event : ServerEvent W) (h : ∃ n phase, s.InChain ops numThreads n phase) :
    ∃ n phase, (s.step ops event).InChain ops numThreads n phase := by
  obtain ⟨n, phase, h⟩ := h
  cases hs : s.terminated with
  | true =>
    have hsame : s.step ops event = s := by
      unfold step
      rw [if_pos hs]
    rw [hsame]
    exact ⟨n, phase, h⟩
  | false =>
    cases event with
    | start call => exact ⟨n, inChain_start laws hasync h hs call⟩
    | accept i errorCode => exact ⟨n, inChain_accept h hs i errorCode⟩
    | handleNewConnection i => exact ⟨n, inChain_handleNewConnection h hs i⟩
    | startApplicationReturns i => exact inChain_startApplicationReturns hasync h hs i
    | startApplicationThrows i =>
      refine ⟨n, phase, ?_⟩
      unfold step
      rw [if_neg (by rw [hs]; exact Bool.false_ne_true)]
      cases hi : s.loop.starting[i]? with
      | none =>
        simp only [hi]
        exact h
      | some handler =>
        simp only [hi]
        exact ⟨h.loop, h.threads, h.started⟩
    | join =>
      refine ⟨n, phase, ?_⟩
      unfold step
      rw [if_neg (by rw [hs]; exact Bool.false_ne_true)]
      exact ⟨h.loop, h.threads, h.started⟩

/-! ## A deaf server -/

/-- After `Join` no application is started. -/
theorem stopped_step (h : s.stopped = true) (event : ServerEvent W) :
    (s.step ops event).stopped = true ∧ (s.step ops event).loop.started = s.loop.started := by
  unfold step
  split
  · exact ⟨h, rfl⟩
  · cases event with
    | start call =>
      simp only []
      split <;> exact ⟨h, rfl⟩
    | accept i errorCode =>
      simp only []
      split <;> exact ⟨h, rfl⟩
    | handleNewConnection i =>
      exact ⟨h, rfl⟩
    | startApplicationReturns i =>
      simp only []
      split <;> exact ⟨h, rfl⟩
    | startApplicationThrows i =>
      simp only []
      split <;> exact ⟨h, rfl⟩
    | join => exact ⟨rfl, rfl⟩

/-- Without an accept, and with an acceptor that is open already, nothing starts the next one. -/
theorem no_accept_step (laws : ops.Lawful) (hopen : ops.isOpen s.server.acceptor = true)
    (haccepting : s.loop.accepting = []) (haccepted : s.loop.accepted = [])
    (hstarting : s.loop.starting = []) (event : ServerEvent W) :
    (s.step ops event).server = s.server ∧ (s.step ops event).loop = s.loop := by
  unfold step
  split
  · exact ⟨rfl, rfl⟩
  · cases event with
    | start call =>
      obtain ⟨e, hrun⟩ := start_open laws hopen call
      simp only [hrun, and_self]
    | accept i errorCode => simp only [haccepting, List.getElem?_nil, and_self]
    | handleNewConnection i => simp only [haccepted, List.getElem?_nil, ite_self, and_self]
    | startApplicationReturns i => simp only [hstarting, List.getElem?_nil, and_self]
    | startApplicationThrows i => simp only [hstarting, List.getElem?_nil, and_self]
    | join => exact ⟨rfl, rfl⟩

/-- A server that accepts no connection starts no application, and stays so. -/
theorem deaf_step (laws : ops.Lawful) (h : s.Deaf ops) (event : ServerEvent W) :
    (s.step ops event).Deaf ops ∧ (s.step ops event).loop.started = s.loop.started := by
  rcases h with hstopped | hterminated | ⟨hopen, haccepting, haccepted, hstarting⟩
  · obtain ⟨hstays, hsame⟩ := stopped_step hstopped event
    exact ⟨Or.inl hstays, hsame⟩
  · have hsame : s.step ops event = s := by
      unfold step
      rw [if_pos hterminated]
    rw [hsame]
    exact ⟨Or.inr (Or.inl hterminated), rfl⟩
  · obtain ⟨hserver, hloop⟩ := no_accept_step laws hopen haccepting haccepted hstarting event
    refine ⟨Or.inr (Or.inr ?_), by rw [hloop]⟩
    rw [hserver, hloop]
    exact ⟨hopen, haccepting, haccepted, hstarting⟩

theorem deaf_run (laws : ops.Lawful) (h : s.Deaf ops) (events : List (ServerEvent W)) :
    (Runs.run (step ops) s events).loop.started = s.loop.started := by
  induction events generalizing s with
  | nil => rfl
  | cons event events ih =>
    obtain ⟨hdeaf, hsame⟩ := deaf_step laws h event
    exact (ih hdeaf).trans hsame

end Listening

/-- In every run of a server there is one accept at most, started, completed or handled, the
threads are started once, and the applications are started in the order of the handlers, each
once. After an accept that failed, after `Join` and after an exception of `StartApplication` no
application is started, whatever happens then. -/
theorem accepts_one_at_a_time (laws : ops.Lawful)
    (hasync : ∀ a, ops.isOpen (ops.asyncAccept a) = ops.isOpen a) {server : TCPServer A}
    (hserver : construct ops numThreads = .ok server) (events : List (ServerEvent W)) :
    ∃ n phase, (Runs.run (Listening.step ops) (.new server) events).InChain ops numThreads n
        phase ∧
      (phase = .ended → Listening.Deaf ops (Runs.run (Listening.step ops) (.new server) events)) ∧
      (Listening.Deaf ops (Runs.run (Listening.step ops) (.new server) events) → ∀ more,
        (Runs.run (Listening.step ops) (.new server) (events ++ more)).loop.started =
          (Runs.run (Listening.step ops) (.new server) events).loop.started) := by
  obtain ⟨n, phase, hchain⟩ := Runs.invariant_of_forall
    (fun s : Listening A => ∃ n phase, s.InChain ops numThreads n phase)
    (Listening.inChain_step laws hasync) ⟨0, .idle, Listening.inChain_new hserver⟩ events
  refine ⟨n, phase, hchain, ?_, fun hdeaf more => ?_⟩
  · rintro rfl
    have hopen := hchain.isOpen (by decide)
    refine Or.inr (Or.inr ⟨hopen, ?_, ?_, ?_⟩) <;> rw [hchain.loop] <;> rfl
  · rw [Runs.run_append]
    exact Listening.deaf_run laws hdeaf more

/-- One connection is accepted; the accept after it fails, and the server is started again. -/
def acceptFails : List (ServerEvent Refusals) :=
  [.start noSocket, .start portFree, .accept 0 false, .handleNewConnection 0,
    .startApplicationReturns 0, .accept 0 true, .handleNewConnection 0, .start portFree]

/-- No application is started when the threads go on. -/
theorem accepts_one_at_a_time_acceptFails :
    (Runs.run (Listening.step tcpAcceptor) (.new oneThread)
      (acceptFails ++ [.accept 1 false, .handleNewConnection 0])).loop.started = [0] := by
  have hloop : (Runs.run (Listening.step tcpAcceptor) (.new oneThread) acceptFails).loop =
      .at 1 .ended := by
    decide +kernel
  obtain ⟨n, phase, hchain, hended, hdeaf⟩ := accepts_one_at_a_time lawful_tcpAcceptor
    (fun _ => rfl) (show construct tcpAcceptor 1 = .ok oneThread from rfl) acceptFails
  have hphase : phase = .ended := by
    have hsame := hchain.loop.symm.trans hloop
    cases phase with
    | ended => rfl
    | _ => cases hsame
  rw [hdeaf (hended hphase) _, hloop]
  rfl

end TCPServer

end Azulejo
