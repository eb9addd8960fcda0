import Azulejo.Interprocess.TcpConnection
import Mathlib.Data.List.Sort
import Mathlib.Logic.Function.Basic

/-!
# The chat room

The server of `chat_server.h` has one `chat_room` for its sessions. What a participant has
received is delivered to all of them, and one that joins gets the most recent messages first. The
room has no lock, so that `join`, `leave` and `deliver` are taken to come one after the other;
between their calls of `PostOutgoingMessage` the threads of the connections go on.
-/

namespace Azulejo

open IConnectionHandler

/-- `chat_room` and the connections of the sessions, from the server to its clients. A session is
known by its address. -/
structure ChatServer where
  /-- `participants_`, in the order of the addresses. -/
  participants : List Nat
  recentMsgs : List (List UInt8)
  connections : Nat → TcpConnection
  /-- The calls of `PostOutgoingMessage` that `join` or `deliver` has left to do. -/
  posting : List (Nat × List UInt8)
  /-- The messages that were delivered, by the session they came from; the code does not keep
  them. -/
  delivered : List (Nat × List UInt8)

inductive ChatEvent where
  /-- Something happens on the connection of a session. -/
  | connection (session : Nat) (event : ConnectionEvent)
  | join (session : Nat)
  | leave (session : Nat)
  /-- The loop of `run` gets to a participant. -/
  | turn (session : Nat)
  /-- The next `PostOutgoingMessage` of `join` or `deliver`. -/
  | post

namespace ChatServer

def maxRecentMsgs : Nat := 100

/-- The loop of `deliver` that pops the oldest messages. -/
def popOldest : List (List UInt8) → List (List UInt8)
  | [] => []
  | msg :: rest => if maxRecentMsgs < rest.length + 1 then popOldest rest else msg :: rest

/-- No session has joined. -/
def new : ChatServer := ⟨[], [], fun _ => .new, [], []⟩

def setConnection (w : ChatServer) (session : Nat) (c : TcpConnection) : ChatServer :=
  { w with connections := Function.update w.connections session c }

/-- `join`. -/
def join (w : ChatServer) (session : Nat) : ChatServer :=
  { w with
    participants :=
      if session ∈ w.participants then w.participants
      else w.participants.orderedInsert (· ≤ ·) session
    posting := w.recentMsgs.map fun msg => (session, msg) }

/-- `leave`. -/
def leave (w : ChatServer) (session : Nat) : ChatServer :=
  { w with participants := w.participants.erase session }

/-- `deliver`, of what the session has received. -/
def deliver (w : ChatServer) (session : Nat) (msg : List UInt8) : ChatServer :=
  { w with
    recentMsgs := popOldest (w.recentMsgs ++ [msg])
    posting := w.participants.map fun participant => (participant, msg)
    delivered := w.delivered ++ [(session, msg)] }

/-- The room alone posts on the server's side of a connection, and takes its messages. -/
def ofRoom : ConnectionEvent → Bool
  | .forward (.write (.postOutgoingMessage _)) => true
  | .backward .getOneMessage => true
  | _ => false

/-- One event, if it can happen. -/
def step (w : ChatServer) : ChatEvent → Option ChatServer
  | .connection session event =>
    if ofRoom event then none
    else ((w.connections session).step event).map (w.setConnection session)
  | .join session => if w.posting = [] then some (w.join session) else none
  | .leave session => if w.posting = [] then some (w.leave session) else none
  | .turn session =>
    if w.posting = [] ∧ session ∈ w.participants then
      match (w.connections session).backward.receiver.handler.inMessageQue with
      | [] => some w
      | msg :: _ =>
        ((w.connections session).step (.backward .getOneMessage)).map fun c =>
          (w.setConnection session c).deliver session msg
    else none
  | .post =>
    match w.posting with
    | [] => none
    | (session, msg) :: rest =>
      ((w.connections session).step (.forward (.write (.postOutgoingMessage msg)))).map fun c =>
        { w.setConnection session c with posting := rest }

end ChatServer

end Azulejo
