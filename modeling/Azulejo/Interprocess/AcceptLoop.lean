import Azulejo.Interprocess.TCPServer

/-!
# Accepting connections

`Start` makes a connection handler and starts the first `async_accept` for it. When an accept
completes, a thread of the `io_context` runs `HandleNewConnection`: it starts the application on
the handler, makes the next handler and starts the next accept. `Join` stops the `io_context`, and
no thread takes another completion after that. An exception of `StartApplication` leaves
`io_context::run` and the function of its thread, which ends the process.
-/

namespace Azulejo

namespace TCPServer

/-- The connection handlers, numbered in the order in which they are made. -/
structure AcceptLoop where
  /-- How many handlers were made. -/
  handlers : Nat
  /-- The handlers an `async_accept` is outstanding for. -/
  accepting : List Nat
  /-- The calls of `HandleNewConnection` that no thread has run, with their `errorCode`. -/
  accepted : List (Nat × Bool)
  /-- The handlers whose `StartApplication` is running. -/
  starting : List Nat
  /-- The handlers `StartApplication` was called on. -/
  started : List Nat
  deriving DecidableEq

namespace AcceptLoop

def new : AcceptLoop := ⟨0, [], [], [], []⟩

/-- A new handler, and `async_accept` for it. -/
def asyncAccept (loop : AcceptLoop) : AcceptLoop :=
  { loop with
    handlers := loop.handlers + 1
    accepting := loop.accepting ++ [loop.handlers] }

/-- `HandleNewConnection` up to the call of `StartApplication`. -/
def handleNewConnection (loop : AcceptLoop) (handler : Nat) (errorCode : Bool) : AcceptLoop :=
  if errorCode then loop
  else
    { loop with
      starting := loop.starting ++ [handler]
      started := loop.started ++ [handler] }

end AcceptLoop

/-- A server and its connections. -/
structure Listening (A : Type) where
  server : TCPServer A
  loop : AcceptLoop
  /-- `ioService_.stop()` was called. -/
  stopped : Bool
  /-- The process has ended. -/
  terminated : Bool

inductive ServerEvent (W : Type) where
  /-- A call of `Start`. -/
  | start (call : StartCall W)
  /-- An accept completes. -/
  | accept (i : Nat) (errorCode : Bool)
  /-- A thread runs a call of `HandleNewConnection`. -/
  | handleNewConnection (i : Nat)
  | startApplicationReturns (i : Nat)
  | startApplicationThrows (i : Nat)
  | join

variable {A W : Type} (ops : AcceptorOps A W)

namespace Listening

def new (server : TCPServer A) : Listening A := ⟨server, .new, false, false⟩

/-- One event; one that cannot happen leaves everything as it is. -/
def step (s : Listening A) (event : ServerEvent W) : Listening A :=
  if s.terminated then s
  else match event with
    | .start call =>
      match (start ops call).run s.server with
      | .ok () server => { s with server := server, loop := s.loop.asyncAccept }
      | .error _ server => { s with server := server }
    | .accept i errorCode =>
      match s.loop.accepting[i]? with
      | none => s
      | some handler =>
        { s with loop := { s.loop with
            accepting := s.loop.accepting.eraseIdx i
            accepted := s.loop.accepted ++ [(handler, errorCode)] } }
    | .handleNewConnection i =>
      if s.stopped then s
      else match s.loop.accepted[i]? with
        | none => s
        | some (handler, errorCode) =>
          let loop := { s.loop with accepted := s.loop.accepted.eraseIdx i }
          { s with loop := loop.handleNewConnection handler errorCode }
    | .startApplicationReturns i =>
      match s.loop.starting[i]? with
      | none => s
      | some _ =>
        let loop := { s.loop with starting := s.loop.starting.eraseIdx i }
        { s with
          server := { s.server with acceptor := ops.asyncAccept s.server.acceptor }
          loop := loop.asyncAccept }
    | .startApplicationThrows i =>
      match s.loop.starting[i]? with
      | none => s
      | some _ => { s with terminated := true }
    | .join => { s with stopped := true }

end Listening

end TCPServer

end Azulejo
