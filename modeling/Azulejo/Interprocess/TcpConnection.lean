import Azulejo.Interprocess.Outgoing
import Azulejo.Lib.Transitions

/-!
# Two connected handlers

A TCP connection between two objects of `IConnectionHandler<char>`. In each direction the write
side of the one handler sends, and the read side of the other receives. The bytes of a write are
sent piece by piece, so two writes that are in flight together mix their bytes; what was sent
arrives in order, in pieces of any size. When a socket is closed or the network fails the
connection is lost for both directions: no byte is put on the wire after that, and only then reads
and writes end with an error.
-/

namespace Azulejo

namespace IConnectionHandler

/-! ## One direction -/

/-- One direction of a connection. -/
structure Link where
  sender : WriteSide UInt8
  /-- What each of the writes in flight still has to send. -/
  unsent : List (List UInt8)
  /-- The bytes that were sent and have not arrived. -/
  wire : List UInt8
  receiver : Endpoint UInt8
  /-- The messages `PostOutgoingMessage` returned for; the code does not keep them. -/
  posted : List (List UInt8)

/-- What happens in one direction. -/
inductive LinkEvent where
  /-- A thread of the sender goes on. -/
  | write (event : WriteEvent UInt8)
  /-- Some bytes of a write are sent. -/
  | send (i n : Nat)
  /-- Some bytes arrive. -/
  | arrive (n : Nat)
  /-- The oldest read of the receiver completes. -/
  | readDone
  /-- The oldest read of the receiver ends with an error. -/
  | readFailed (bytesTransferred : Nat)
  /-- The application of the receiver calls `GetOneMessage`. -/
  | getOneMessage

/-- The oldest read has all the bytes it asked for. -/
def Endpoint.readable {α : Type} (s : Endpoint α) : Bool :=
  match s.handler.reads with
  | [] => false
  | op :: _ => decide (op.bytesToRead ≤ s.unread.length)

namespace Link

/-- Both handlers are connected, and the receiver has called `PostReceiveMessages`. -/
def new : Link := ⟨.new, [], [], (Endpoint.new UInt8).step .postReceiveMessages, []⟩

/-- Whether a thread of the sender can do this. A write ends without an error when all of it is
sent. -/
def allows (lost : Bool) (link : Link) : WriteEvent UInt8 → Bool
  | .postOutgoingMessage _ => true
  | .post => decide (0 < link.sender.posting)
  | .sendMessageStart => decide (0 < link.sender.scheduled)
  | .asyncWrite i => decide (i < link.sender.starting.length)
  | .writeEnds i false => decide (link.unsent[i]? = some [])
  | .writeEnds i true => lost && decide (i < link.unsent.length)
  | .completionHandler i => decide (i < link.sender.completions.length)

/-- The writes in flight after what a thread does. -/
def unsentAfter (link : Link) : WriteEvent UInt8 → List (List UInt8)
  | .asyncWrite i =>
    match link.sender.starting[i]? with
    | none => link.unsent
    | some message => link.unsent ++ [memory message.elements]
  | .writeEnds i _ => link.unsent.eraseIdx i
  | _ => link.unsent

def postedAfter (link : Link) : WriteEvent UInt8 → List (List UInt8)
  | .postOutgoingMessage message =>
    match wrapWithHeader message with
    | .ok _ => link.posted ++ [message]
    | .error _ => link.posted
  | _ => link.posted

/-- What a thread of the sender does. -/
def write (link : Link) (event : WriteEvent UInt8) : Link :=
  { link with
    sender := link.sender.step event
    unsent := link.unsentAfter event
    posted := link.postedAfter event }

/-- One event, if it can happen; `lost` says that the connection is lost. -/
def step (lost : Bool) (link : Link) : LinkEvent → Option Link
  | .write event => if link.allows lost event then some (link.write event) else none
  | .send i n =>
    match link.unsent[i]? with
    | none => none
    | some bytes =>
      if 0 < n ∧ n ≤ bytes.length then
        some { link with
          unsent := link.unsent.set i (bytes.drop n)
          wire := if lost then link.wire else link.wire ++ bytes.take n }
      else none
  | .arrive n =>
    if 0 < n ∧ n ≤ link.wire.length then
      some { link with
        wire := link.wire.drop n
        receiver := link.receiver.step (.arrive (link.wire.take n)) }
    else none
  | .readDone =>
    if link.receiver.readable then
      some { link with receiver := link.receiver.step .readDone }
    else none
  | .readFailed n =>
    if lost then some { link with receiver := link.receiver.step (.readFailed n) } else none
  | .getOneMessage => some { link with receiver := link.receiver.step .getOneMessage }

/-- The messages the receiver has queued, or given to its application. -/
def received (link : Link) : List (List UInt8) :=
  link.receiver.taken ++ link.receiver.handler.inMessageQue

end Link

/-! ## The connection -/

/-- Two handlers that are connected. -/
structure TcpConnection where
  forward : Link
  backward : Link
  /-- The calls that `Close` posted on either side and no thread has run. -/
  closing : Nat
  lost : Bool

inductive ConnectionEvent where
  | forward (event : LinkEvent)
  | backward (event : LinkEvent)
  /-- An application calls `Close`. -/
  | close
  /-- A thread runs what `Close` posted. -/
  | socketClose
  /-- The network fails. -/
  | networkFails

namespace TcpConnection

def new : TcpConnection := ⟨.new, .new, 0, false⟩

/-- One event, if it can happen. -/
def step (c : TcpConnection) : ConnectionEvent → Option TcpConnection
  | .forward event => (c.forward.step c.lost event).map fun link => { c with forward := link }
  | .backward event => (c.backward.step c.lost event).map fun link => { c with backward := link }
  | .close => some { c with closing := c.closing + 1 }
  | .socketClose =>
    match c.closing with
    | 0 => none
    | closing + 1 => some { c with closing := closing, lost := true }
  | .networkFails => some { c with lost := true }

end TcpConnection

end IConnectionHandler

end Azulejo
