import Azulejo.Interprocess.ConnectionHandler
import Azulejo.Lib.Runs

/-!
# Sending messages

The write side of `IConnectionHandler`. Any thread may call `PostOutgoingMessage`, which pushes a
frame on `outMessageQue_` and then posts a call of `SendMessageStart` to the `io_context`. The
threads of the `io_context` run these calls: each takes at most one frame from the queue under
`writeLock_` and passes it to `AsyncWrite` after the lock is released. What a thread does under
the lock is one event here, and so is each of the calls it makes outside of the lock.
-/

namespace Azulejo

namespace IConnectionHandler

variable {α : Type}

/-- A frame on its way to the peer. `number` is its place in the order in which the frames were
pushed; the code does not keep it. -/
structure OutFrame (α : Type) where
  number : Nat
  elements : List α
  deriving DecidableEq

/-- The handler while it sends. -/
structure WriteSide (α : Type) where
  outMessageQue : List (OutFrame α)
  /-- The threads in `PostOutgoingMessage` that have pushed their frame and not posted yet. -/
  posting : Nat
  /-- The posted calls of `SendMessageStart` that have not been at the queue. -/
  scheduled : Nat
  /-- The frames that were taken from the queue and not passed to `AsyncWrite` yet. -/
  starting : List (OutFrame α)
  /-- The writes that are started and not completed. -/
  inFlight : List (OutFrame α)
  /-- The completion handlers that wait on `writeStrand_`, by whether their write failed. -/
  completions : List Bool
  /-- The frames in the order in which they were pushed. -/
  pushed : List (OutFrame α)
  /-- The frames in the order in which they were passed to `AsyncWrite`. -/
  written : List (OutFrame α)

/-- What a thread does next. -/
inductive WriteEvent (α : Type) where
  /-- A thread calls `PostOutgoingMessage` and pushes its frame. -/
  | postOutgoingMessage (message : List α)
  /-- A thread that has pushed its frame posts a call of `SendMessageStart`. -/
  | post
  /-- A thread of the `io_context` runs `SendMessageStart` up to the end of its lock. -/
  | sendMessageStart
  /-- A thread that has taken a frame passes it to `AsyncWrite`. -/
  | asyncWrite (i : Nat)
  /-- A write completes. -/
  | writeEnds (i : Nat) (error : Bool)
  /-- A completion handler runs. -/
  | completionHandler (i : Nat)

namespace WriteSide

def new : WriteSide α := ⟨[], 0, 0, [], [], [], [], []⟩

/-- The part of `PostOutgoingMessage` under the lock. -/
def push (me : WriteSide α) (wrappedMessage : List α) : WriteSide α :=
  let message := OutFrame.mk me.pushed.length wrappedMessage
  { me with
    outMessageQue := me.outMessageQue ++ [message]
    posting := me.posting + 1
    pushed := me.pushed ++ [message] }

/-- `HasOutgoingMessages`. -/
def hasOutgoingMessages (me : WriteSide α) : Bool := !me.outMessageQue.isEmpty

/-- `SendMessageStart` up to the end of its lock. -/
def sendMessageStart (me : WriteSide α) : WriteSide α :=
  match me.outMessageQue with
  | [] => me
  | message :: rest =>
    { me with outMessageQue := rest, starting := me.starting ++ [message] }

/-- `SendMessageDone`. -/
def sendMessageDone (me : WriteSide α) : WriteSide α :=
  if me.hasOutgoingMessages then { me with scheduled := me.scheduled + 1 } else me

/-- One event; one that cannot happen leaves the state as it is. -/
def step [PodType α] (me : WriteSide α) : WriteEvent α → WriteSide α
  | .postOutgoingMessage message =>
    match wrapWithHeader message with
    | .ok wrappedMessage => me.push wrappedMessage
    -- the exception is the caller's, and nothing was pushed
    | .error _ => me
  | .post =>
    match me.posting with
    | 0 => me
    | posting + 1 => { me with posting := posting, scheduled := me.scheduled + 1 }
  | .sendMessageStart =>
    match me.scheduled with
    | 0 => me
    | scheduled + 1 => { me with scheduled := scheduled }.sendMessageStart
  | .asyncWrite i =>
    match me.starting[i]? with
    | none => me
    | some message =>
      { me with
        starting := me.starting.eraseIdx i
        inFlight := me.inFlight ++ [message]
        written := me.written ++ [message] }
  | .writeEnds i error =>
    match me.inFlight[i]? with
    | none => me
    | some _ =>
      { me with inFlight := me.inFlight.eraseIdx i, completions := me.completions ++ [error] }
  | .completionHandler i =>
    match me.completions[i]? with
    | none => me
    | some error =>
      let me := { me with completions := me.completions.eraseIdx i }
      if error then me else me.sendMessageDone

end WriteSide

/-- The frames that the calls of `PostOutgoingMessage` push. -/
def postedFrames [PodType α] (events : List (WriteEvent α)) : List (List α) :=
  events.filterMap fun
    | .postOutgoingMessage message => (wrapWithHeader message).toOption
    | _ => none

end IConnectionHandler

end Azulejo
