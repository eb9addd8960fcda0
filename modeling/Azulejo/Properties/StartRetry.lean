import Azulejo.Interprocess.TCPServer

/-!
# Starting a server again

`Start` changes the acceptor in four steps and throws at the first that fails, without undoing the
ones before. A call that fails to open the acceptor leaves the server as it was. One that fails
later leaves the acceptor open, and no call can open it a second time.
-/

namespace Azulejo

open Stateful

namespace TCPServer

variable {A W : Type} (ops : AcceptorOps A W)

/-- `Start` throws. -/
def Throws (me : TCPServer A) (call : StartCall W) : Prop :=
  ∃ e me', (start ops call).run me = .error e me'

/-- The steps behind `open` succeed on the acceptor that was opened. -/
structure StepsSucceed (call : StartCall W) (opened : A) : Prop where
  setOption : (ops.setOption call.system opened).1 = false
  bind : (ops.bind call.system call.endPoint (ops.setOption call.system opened).2).1 = false
  listen : (ops.listen call.system
    (ops.bind call.system call.endPoint (ops.setOption call.system opened).2).2).1 = false

/-- All four steps succeed on the acceptor. -/
def Usable (a : A) (call : StartCall W) : Prop :=
  (ops.openAcceptor call.system call.endPoint.protocol a).1 = false ∧
    StepsSucceed ops call (ops.openAcceptor call.system call.endPoint.protocol a).2

/-- When the call opens the acceptor, the other steps succeed too. -/
def FailsOnlyAtOpen (me : TCPServer A) (call : StartCall W) : Prop :=
  (ops.openAcceptor call.system call.endPoint.protocol me.acceptor).1 = false →
    StepsSucceed ops call (ops.openAcceptor call.system call.endPoint.protocol me.acceptor).2

/-- Calls that throw, one after the other, leave the server as it was, and what would have
started it before starts it still. -/
def Retryable (me : TCPServer A) (calls : List (StartCall W)) : Prop :=
  ∀ before failed after, calls = before ++ failed ++ after →
    Runs.Meets (afterStart ops) (Throws ops) (Runs.run (afterStart ops) me before) failed →
      Runs.run (afterStart ops) me (before ++ failed) = Runs.run (afterStart ops) me before ∧
      ∀ call, Usable ops (Runs.run (afterStart ops) me before).acceptor call →
        ∃ me', (start ops call).run (Runs.run (afterStart ops) me (before ++ failed)) = .ok () me'

/-! ## One call -/

theorem checked_ok {op : A → Bool × A} {me : TCPServer A} (h : (op me.acceptor).1 = false)
    (what : Str) :
    (checked op what).run me = .ok () { me with acceptor := (op me.acceptor).2 } := by
  unfold checked
  rw [bind_ok (EStateM.run_get me), bind_ok (EStateM.run_set _ _)]
  simp only [h, Bool.false_eq_true, if_false]
  rfl

theorem checked_error {op : A → Bool × A} {me : TCPServer A} (h : (op me.acceptor).1 = true)
    (what : Str) :
    (checked op what).run me =
      .error (.runtimeError what) { me with acceptor := (op me.acceptor).2 } := by
  unfold checked
  rw [bind_ok (EStateM.run_get me), bind_ok (EStateM.run_set _ _)]
  simp only [h, if_true]
  rfl

variable {ops}

/-- A call that cannot open the acceptor throws, and nothing has changed. -/
theorem start_not_opened (laws : ops.Lawful) {me : TCPServer A} {call : StartCall W}
    (h : (ops.openAcceptor call.system call.endPoint.protocol me.acceptor).1 = true) :
    (start ops call).run me =
      .error (.runtimeError ("TCPServer could not accept on port ".toList ++
        DecimalText.ofNat call.endPoint.port.toNat)) me := by
  have hsame := laws.open_fails _ _ _ h
  unfold start
  rw [bind_error (checked_error h _), hsame]

/-- A call whose four steps succeed returns, with all threads started. -/
theorem start_succeeds {me : TCPServer A} {call : StartCall W} (h : Usable ops me.acceptor call) :
    ∃ a, (start ops call).run me =
      .ok () ⟨me.numThreads, me.threadPool ++ List.replicate me.numThreads.toNat .ioServiceRun,
        a⟩ := by
  obtain ⟨hopen, hsteps⟩ := h
  unfold start
  rw [bind_ok (checked_ok hopen _), bind_ok (checked_ok hsteps.setOption _),
    bind_ok (checked_ok hsteps.bind _), bind_ok (checked_ok hsteps.listen _),
    bind_ok (EStateM.run_modify _ _)]
  exact ⟨_, rfl⟩

/-- A call that opens the acceptor and fails in a later step throws, and the acceptor stays
open. -/
theorem start_left_open (laws : ops.Lawful) {me : TCPServer A} {call : StartCall W}
    (h : ¬ FailsOnlyAtOpen ops me call) :
    ∃ e me', (start ops call).run me = .error e me' ∧ ops.isOpen me'.acceptor = true := by
  obtain ⟨hopen, hsteps⟩ := Classical.not_imp.mp h
  have hopened := laws.opens _ _ _ hopen
  unfold start
  rw [bind_ok (checked_ok hopen _)]
  cases hoption : (ops.setOption call.system
      (ops.openAcceptor call.system call.endPoint.protocol me.acceptor).2).1 with
  | true =>
    refine ⟨_, _, bind_error (checked_error hoption _), ?_⟩
    exact (laws.isOpen_setOption _ _).trans hopened
  | false =>
    rw [bind_ok (checked_ok hoption _)]
    have hset := (laws.isOpen_setOption call.system _).trans hopened
    cases hbind : (ops.bind call.system call.endPoint (ops.setOption call.system
        (ops.openAcceptor call.system call.endPoint.protocol me.acceptor).2).2).1 with
    | true =>
      refine ⟨_, _, bind_error (checked_error hbind _), ?_⟩
      exact (laws.isOpen_bind _ _ _).trans hset
    | false =>
      rw [bind_ok (checked_ok hbind _)]
      have hlisten : (ops.listen call.system (ops.bind call.system call.endPoint
          (ops.setOption call.system (ops.openAcceptor call.system call.endPoint.protocol
            me.acceptor).2).2).2).1 = true := by
        by_contra hnot
        exact hsteps ⟨hoption, hbind, Bool.eq_false_of_not_eq_true hnot⟩
      refine ⟨_, _, bind_error (checked_error hlisten _), ?_⟩
      exact (laws.isOpen_listen _ _).trans ((laws.isOpen_bind _ _ _).trans hset)

/-- An acceptor that could be opened was not open. -/
theorem isOpen_of_not_failsOnlyAtOpen (laws : ops.Lawful) {me : TCPServer A} {call : StartCall W}
    (h : ¬ FailsOnlyAtOpen ops me call) : ops.isOpen me.acceptor = false := by
  obtain ⟨hopen, -⟩ := Classical.not_imp.mp h
  by_contra hnot
  rw [laws.open_twice _ _ _ (Bool.eq_true_of_not_eq_false hnot)] at hopen
  cases hopen

/-! ## Calls one after the other -/

/-- A call that throws leaves the server as it was, if it fails at `open`. -/
theorem afterStart_of_throws (laws : ops.Lawful) {me : TCPServer A} {call : StartCall W}
    (hthrows : Throws ops me call) (h : FailsOnlyAtOpen ops me call) :
    afterStart ops me call = me := by
  cases hopen : (ops.openAcceptor call.system call.endPoint.protocol me.acceptor).1 with
  | true =>
    unfold afterStart
    rw [start_not_opened laws hopen]
    rfl
  | false =>
    obtain ⟨e, me', hthrow⟩ := hthrows
    obtain ⟨a, hrun⟩ := start_succeeds ⟨hopen, h hopen⟩
    rw [hrun] at hthrow
    cases hthrow

theorem run_of_throws (laws : ops.Lawful) {me : TCPServer A} {failed : List (StartCall W)}
    (hthrows : Runs.Meets (afterStart ops) (Throws ops) me failed)
    (h : Runs.Meets (afterStart ops) (FailsOnlyAtOpen ops) me failed) :
    Runs.run (afterStart ops) me failed = me := by
  induction failed generalizing me with
  | nil => rfl
  | cons call failed ih =>
    have hcall := afterStart_of_throws laws hthrows.1 h.1
    have hthrowsRest := hthrows.2
    have hrest := h.2
    rw [hcall] at hthrowsRest hrest
    rw [Runs.run, hcall]
    exact ih hthrowsRest hrest

/-- A call that fails behind `open` changes the acceptor. -/
theorem afterStart_ne (laws : ops.Lawful) {me : TCPServer A} {call : StartCall W}
    (h : ¬ FailsOnlyAtOpen ops me call) : Throws ops me call ∧ afterStart ops me call ≠ me := by
  obtain ⟨e, me', hrun, hopen⟩ := start_left_open laws h
  refine ⟨⟨e, me', hrun⟩, ?_⟩
  intro hsame
  have hclosed := isOpen_of_not_failsOnlyAtOpen laws h
  unfold afterStart at hsame
  rw [hrun] at hsame
  obtain rfl : me' = me := hsame
  rw [hopen] at hclosed
  cases hclosed

/-- A start that failed can be tried again exactly if no call that opened the acceptor fails in a
later step. -/
theorem retryable_iff (laws : ops.Lawful) (me : TCPServer A) (calls : List (StartCall W)) :
    Retryable ops me calls ↔ Runs.Meets (afterStart ops) (FailsOnlyAtOpen ops) me calls := by
  constructor
  · intro hretry
    by_contra hnot
    obtain ⟨before, call, after, rfl, -, hfails⟩ := Runs.exists_of_not_meets hnot
    obtain ⟨hthrows, hne⟩ := afterStart_ne laws hfails
    have hsame := (hretry before [call] after (by simp) ⟨hthrows, trivial⟩).1
    rw [Runs.run_append] at hsame
    exact hne hsame
  · rintro hmeets before failed after rfl hthrows
    rw [List.append_assoc, Runs.meets_append, Runs.meets_append] at hmeets
    have hsame : Runs.run (afterStart ops) me (before ++ failed) =
        Runs.run (afterStart ops) me before := by
      rw [Runs.run_append]
      exact run_of_throws laws hthrows hmeets.2.1
    refine ⟨hsame, fun call husable => ?_⟩
    obtain ⟨a, hrun⟩ := start_succeeds husable
    rw [hsame]
    exact ⟨_, hrun⟩

/-! ## A port in use -/

/-- What a `tcp::acceptor` keeps. -/
structure TcpAcceptor where
  isOpen : Bool
  reuseAddress : Bool
  localEndPoint : Option EndPoint
  listening : Bool
  accepts : Nat

/-- Which steps the system refuses. -/
structure Refusals where
  openAcceptor : Bool
  setOption : Bool
  bind : Bool
  listen : Bool

/-- The operations of `tcp::acceptor`. -/
def tcpAcceptor : AcceptorOps TcpAcceptor Refusals where
  new := ⟨false, false, none, false, 0⟩
  isOpen a := a.isOpen
  openAcceptor w _ a :=
    if a.isOpen || w.openAcceptor then (true, a) else (false, { a with isOpen := true })
  setOption w a :=
    if !a.isOpen || w.setOption then (true, a) else (false, { a with reuseAddress := true })
  bind w endPoint a :=
    if !a.isOpen || a.localEndPoint.isSome || w.bind then (true, a)
    else (false, { a with localEndPoint := some endPoint })
  listen w a :=
    if !a.isOpen || w.listen then (true, a) else (false, { a with listening := true })
  asyncAccept a := { a with accepts := a.accepts + 1 }

theorem lawful_tcpAcceptor : tcpAcceptor.Lawful where
  open_twice w protocol a h := by
    have hopen : a.isOpen = true := h
    simp only [tcpAcceptor, hopen, Bool.true_or, if_true]
  open_fails w protocol a h := by
    simp only [tcpAcceptor] at h ⊢
    split at h
    · rw [if_pos ‹_›]
    · cases h
  opens w protocol a h := by
    simp only [tcpAcceptor] at h ⊢
    split at h
    · cases h
    · rw [if_neg ‹_›]
  isOpen_setOption w a := by
    simp only [tcpAcceptor]
    split <;> rfl
  isOpen_bind w endPoint a := by
    simp only [tcpAcceptor]
    split <;> rfl
  isOpen_listen w a := by
    simp only [tcpAcceptor]
    split <;> rfl

/-- A server with one thread. -/
def oneThread : TCPServer TcpAcceptor := ⟨1, [], tcpAcceptor.new⟩

example : construct tcpAcceptor 1 = .ok oneThread := rfl

def endPoint3333 : EndPoint := ⟨.v4, "0.0.0.0".toList, 3333⟩

/-- The system has no socket left. -/
def noSocket : StartCall Refusals := ⟨⟨true, false, false, false⟩, endPoint3333⟩

/-- Another server uses the port. -/
def portInUse : StartCall Refusals := ⟨⟨false, false, true, false⟩, endPoint3333⟩

def portFree : StartCall Refusals := ⟨⟨false, false, false, false⟩, endPoint3333⟩

theorem retryable_noSocket : Retryable tcpAcceptor oneThread [noSocket, portFree] :=
  (retryable_iff lawful_tcpAcceptor oneThread _).mpr
    ⟨nofun, fun _ => ⟨rfl, rfl, rfl⟩, trivial⟩

/-- A port in use makes the start fail, and when it is free the server does not start either. -/
theorem portInUse_not_retryable :
    ¬ ∀ calls, Retryable tcpAcceptor oneThread calls := by
  intro h
  obtain ⟨-, hlater⟩ := h [portInUse] [] [portInUse] [] rfl ⟨⟨_, _, rfl⟩, trivial⟩
  obtain ⟨me', hrun⟩ := hlater portFree ⟨rfl, rfl, rfl, rfl⟩
  cases hrun

end TCPServer

end Azulejo
