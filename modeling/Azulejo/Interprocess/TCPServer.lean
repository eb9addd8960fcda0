import Azulejo.Basic
import Azulejo.Lib.DecimalText
import Azulejo.Lib.Runs

/-!
# Starting the TCP server

`TCPServer` takes the type of its acceptor as a parameter, and so does the model. What the system
is like at the time of a call decides which of the acceptor's operations fail; an operation says by
its error code that it did, and `Start` throws then. The connections that are accepted later
belong to the threads of the `io_context`.
-/

namespace Azulejo

/-- The protocols of `tcp`. -/
inductive TcpProtocol where
  | v4
  | v6
  deriving DecidableEq

/-- A `tcp::endpoint`. -/
structure EndPoint where
  protocol : TcpProtocol
  address : Str
  port : UInt16
  deriving DecidableEq

/-- The operations of a type of acceptors. `W` is what the system may be like at a call of
`Start`. Each operation that can fail returns whether it set the error code, and the acceptor
after it. -/
structure AcceptorOps (A W : Type) where
  /-- The acceptor that the constructor makes. -/
  new : A
  isOpen : A → Bool
  openAcceptor : W → TcpProtocol → A → Bool × A
  /-- `set_option` with `reuse_address`. -/
  setOption : W → A → Bool × A
  bind : W → EndPoint → A → Bool × A
  /-- `listen` with `max_listen_connections`. -/
  listen : W → A → Bool × A
  asyncAccept : A → A

/-- What is documented of the acceptors of asio: only `open` changes whether an acceptor is open,
it fails on one that is, and when it fails it changes nothing. -/
structure AcceptorOps.Lawful {A W : Type} (ops : AcceptorOps A W) : Prop where
  open_twice : ∀ w protocol a, ops.isOpen a = true → (ops.openAcceptor w protocol a).1 = true
  open_fails : ∀ w protocol a, (ops.openAcceptor w protocol a).1 = true →
    (ops.openAcceptor w protocol a).2 = a
  opens : ∀ w protocol a, (ops.openAcceptor w protocol a).1 = false →
    ops.isOpen (ops.openAcceptor w protocol a).2 = true
  isOpen_setOption : ∀ w a, ops.isOpen (ops.setOption w a).2 = ops.isOpen a
  isOpen_bind : ∀ w endPoint a, ops.isOpen (ops.bind w endPoint a).2 = ops.isOpen a
  isOpen_listen : ∀ w a, ops.isOpen (ops.listen w a).2 = ops.isOpen a

/-- What a thread of `threadPool_` runs. -/
inductive ServerThread where
  /-- `ioService_.run()`. -/
  | ioServiceRun
  deriving DecidableEq

/-- A `TCPServer`. -/
structure TCPServer (A : Type) where
  numThreads : UInt64
  threadPool : List ServerThread
  acceptor : A
  deriving DecidableEq

/-- A call of `Start`. -/
structure StartCall (W : Type) where
  system : W
  endPoint : EndPoint

namespace TCPServer

variable {A W : Type} (ops : AcceptorOps A W)

/-- The constructor. -/
def construct (numThreads : UInt64) : Except Exception (TCPServer A) :=
  if numThreads = 0 then
    throw (.runtimeError
      "Cannot construct TCPServer because number of threads is invalid".toList)
  else
    pure {
      numThreads := numThreads
      threadPool := []
      acceptor := ops.new }

/-- An operation of the acceptor, and the throw behind it. -/
def checked (op : A → Bool × A) (what : Str) : EStateM Exception (TCPServer A) Unit := do
  let me : TCPServer A ← get
  let (ec, acceptor) := op me.acceptor
  set { me with acceptor := acceptor }
  if ec then throw (.runtimeError what) else pure ()

/-- `Start`. -/
def start (call : StartCall W) : EStateM Exception (TCPServer A) Unit := do
  checked (ops.openAcceptor call.system call.endPoint.protocol)
    ("TCPServer could not accept on port ".toList ++ DecimalText.ofNat call.endPoint.port.toNat)
  checked (ops.setOption call.system) "TCPServer could not set option to reuse addresses".toList
  checked (ops.bind call.system call.endPoint) "TCPServer could not bind on endpoint".toList
  checked (ops.listen call.system) "TCPServer could not listen".toList
  modify fun me => { me with acceptor := ops.asyncAccept me.acceptor }
  modify fun me =>
    { me with
      threadPool := me.threadPool ++ List.replicate me.numThreads.toNat .ioServiceRun }

/-- The server after a call of `Start`, whether it returned or threw. -/
def afterStart (me : TCPServer A) (call : StartCall W) : TCPServer A :=
  Stateful.finalState ((start ops call).run me)

end TCPServer

end Azulejo
