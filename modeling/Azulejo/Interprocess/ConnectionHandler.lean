import Azulejo.Basic
import Azulejo.Lib.DecimalText

/-!
# Receiving and framing messages

The read side of `IConnectionHandler` and its `WrapWithHeader`. A frame is a header of four
characters, the length of the message in decimal with spaces in front, and the message. The
handler reads a header and a message in turn, both into the buffer `inMessage_`.
-/

namespace Azulejo

/-! ## Elements and bytes -/

/-- A plain-old-data type: its width, what its values are in memory, and the value a `char` is
converted to. -/
class PodType (α : Type) where
  size : Nat
  size_pos : 0 < size
  toBytes : α → List UInt8
  length_toBytes : ∀ x, (toBytes x).length = size
  ofBytes : List UInt8 → α
  ofBytes_toBytes : ∀ x, ofBytes (toBytes x) = x
  ofChar : UInt8 → α

/-- `char`. -/
instance : PodType UInt8 where
  size := 1
  size_pos := Nat.one_pos
  toBytes x := [x]
  length_toBytes _ := rfl
  ofBytes bytes := bytes.headD 0
  ofBytes_toBytes _ := rfl
  ofChar c := c

/-- The bytes of a `std::vector<PODType>`. -/
def memory {α : Type} [PodType α] (message : List α) : List UInt8 :=
  message.flatMap PodType.toBytes

/-- The elements of a vector of `count` elements that `bytes` were copied into. -/
def elements {α : Type} [PodType α] : Nat → List UInt8 → List α
  | 0, _ => []
  | count + 1, bytes =>
    PodType.ofBytes (bytes.take (PodType.size α)) :: elements count (bytes.drop (PodType.size α))

/-- The bytes of the characters. -/
def charBytes (text : Str) : List UInt8 := text.map fun c => UInt8.ofNat c.toNat

/-- The characters the bytes are. -/
def bytesChars (bytes : List UInt8) : Str := bytes.map fun b => Char.ofNat b.toNat

/-- `std::atoll`, which returns zero when there is no number. -/
def atoll (text : List UInt8) : Int := (DecimalText.scanInt (bytesChars text)).getD 0

/-- `static_cast<size_t>`. -/
def sizeCast (n : Int) : Nat := (n % 2 ^ 64).toNat

namespace IConnectionHandler

def HEADER_LENGTH : Nat := 4

def BUFFER_SIZE : Nat := 512

/-! ## Sending -/

/-- The most characters a `std::string` can have. -/
def stringMaxSize : Nat := 2 ^ 63 - 1

/-- `WrapWithHeader`. The number of spaces is a difference of two `size_t`, and pushing more
of them than a string can hold throws. -/
def wrapWithHeader {α : Type} [PodType α] (message : List α) : Except Exception (List α) :=
  let size := DecimalText.ofNat message.length
  let spaces := (HEADER_LENGTH + 2 ^ 64 - size.length) % 2 ^ 64
  if stringMaxSize < spaces then
    throw (.logicError "basic_string::_M_create".toList)
  else
    let header := List.replicate spaces ' ' ++ size
    pure ((charBytes header).map PodType.ofChar ++ message)

/-! ## Receiving -/

/-- Which of the two completion handlers of `PostReceiveMessages` an `AsyncRead` runs. -/
inductive ReadHandler where
  | header
  | body
  deriving DecidableEq

/-- An `async_read` that was started on the socket and has not completed. -/
structure AsyncReadOp where
  bytesToRead : Nat
  handler : ReadHandler
  deriving DecidableEq

/-- What the handler has for reading: the bytes of `inMessage_`, `inMessageQue_`, and the
outstanding reads of its socket, the oldest first. -/
structure ReadSide (α : Type) where
  inMessage : List UInt8
  inMessageQue : List (List α)
  reads : List AsyncReadOp

variable {α : Type}

/-- The bytes of `inMessage_`. It is a vector of `char` whatever the messages are made of, and
the constructor gives it as many of them as 512 bytes have elements. -/
def bufferBytes (α : Type) [PodType α] : Nat := BUFFER_SIZE / PodType.size α

/-- The state after the constructor. -/
def ReadSide.new (α : Type) [PodType α] : ReadSide α :=
  ⟨List.replicate (bufferBytes α) 0, [], []⟩

/-- `AsioAdapter::AsyncRead` into `inMessage_`. -/
def asyncRead (bytesToRead : Nat) (handler : ReadHandler) :
    EStateM Exception (ReadSide α) Unit := do
  let me : ReadSide α ← get
  if bytesToRead > me.inMessage.length then
    throw (.runtimeError "AsyncRead cannot read more bytes than available in the buffer".toList)
  else
    set { me with reads := me.reads ++ [AsyncReadOp.mk bytesToRead handler] }

/-- `HasReceivedMessages`. -/
def hasReceivedMessages (me : ReadSide α) : Bool := !me.inMessageQue.isEmpty

/-- `ReceivedDataLength`. -/
def receivedDataLength (bytesTransferred : Nat) : EStateM Exception (ReadSide α) Nat := do
  let me : ReadSide α ← get
  if bytesTransferred ≠ HEADER_LENGTH then
    throw (.runtimeError "IConnectionHandler cannot determine length of received data".toList)
  else
    let header := me.inMessage.take HEADER_LENGTH ++ [0]
    return sizeCast (atoll header)

/-- `PostReceiveMessages`. -/
def postReceiveMessages : EStateM Exception (ReadSide α) Unit := asyncRead HEADER_LENGTH .header

/-- The completion handler of the read of a header. -/
def headerRead (error : Bool) (bytesTransferred : Nat) : EStateM Exception (ReadSide α) Unit := do
  if error then pure ()
  else
    let dataLength ← receivedDataLength bytesTransferred
    if dataLength = 0 then pure ()
    else asyncRead dataLength .body

variable [PodType α]

/-- `QueueReceivedMessage`. Its `memcpy` takes all the bytes, also past the whole elements that
`message` has room for. -/
def queueReceivedMessage (bytesTransferred : Nat) : EStateM Exception (ReadSide α) Unit := do
  let me : ReadSide α ← get
  let message := elements (bytesTransferred / PodType.size α) (me.inMessage.take bytesTransferred)
  set { me with inMessageQue := me.inMessageQue ++ [message] }
  postReceiveMessages

/-- The completion handler of the read of a message. -/
def bodyRead (error : Bool) (bytesTransferred : Nat) : EStateM Exception (ReadSide α) Unit :=
  if error then pure ()
  else queueReceivedMessage bytesTransferred

/-- `GetOneMessage`. -/
def getOneMessage : EStateM Exception (ReadSide α) (List α) := do
  let me : ReadSide α ← get
  match me.inMessageQue with
  | [] => throw (.runtimeError
      "Cannot receive message from IConnectionHandler because there is no message to receive".toList)
  | message :: rest =>
    set { me with inMessageQue := rest }
    return message

/-! ## The connection -/

/-- The handler with its socket: the bytes that arrived and were not read yet, the messages
the application got, and what a completion handler threw into `io_context::run`. -/
structure Endpoint (α : Type) where
  handler : ReadSide α
  unread : List UInt8
  taken : List (List α)
  thrown : Option Exception

/-- What happens at the endpoint. -/
inductive ReadEvent where
  /-- Bytes arrive on the socket. -/
  | arrive (bytes : List UInt8)
  /-- The oldest read completes with all the bytes it asked for. -/
  | readDone
  /-- The oldest read ends with an error, and with fewer bytes than it asked for. -/
  | readFailed (bytesTransferred : Nat)
  /-- The application calls `PostReceiveMessages`. -/
  | postReceiveMessages
  /-- The application calls `GetOneMessage`. -/
  | getOneMessage

namespace Endpoint

/-- An endpoint without a read. -/
def new (α : Type) [PodType α] : Endpoint α := ⟨ReadSide.new α, [], [], none⟩

/-- The completion handler of a read. -/
def completion : ReadHandler → Bool → Nat → EStateM Exception (ReadSide α) Unit
  | .header => headerRead
  | .body => bodyRead

/-- The oldest read ends: its bytes are in the buffer, over what was there, and its handler
runs. -/
def complete (s : Endpoint α) (op : AsyncReadOp) (reads : List AsyncReadOp) (error : Bool)
    (bytesTransferred : Nat) : Endpoint α :=
  let buffer := s.unread.take bytesTransferred ++ s.handler.inMessage.drop bytesTransferred
  let handler := { s.handler with inMessage := buffer, reads := reads }
  let unread := s.unread.drop bytesTransferred
  match (completion op.handler error bytesTransferred).run handler with
  | .ok () handler => { s with handler := handler, unread := unread }
  | .error e handler => { s with handler := handler, unread := unread, thrown := some e }

/-- One event. The process ends when a completion handler throws; an exception from a call of
the application is the application's. -/
def step (s : Endpoint α) (event : ReadEvent) : Endpoint α :=
  if s.thrown.isSome then s
  else match event with
    | .arrive bytes => { s with unread := s.unread ++ bytes }
    | .readDone =>
      match s.handler.reads with
      | [] => s
      | op :: reads =>
        if op.bytesToRead ≤ s.unread.length then s.complete op reads false op.bytesToRead else s
    | .readFailed n =>
      match s.handler.reads with
      | [] => s
      | op :: reads =>
        if n < op.bytesToRead ∧ n ≤ s.unread.length then s.complete op reads true n else s
    | .postReceiveMessages =>
      { s with handler := Stateful.finalState (postReceiveMessages.run s.handler) }
    | .getOneMessage =>
      match getOneMessage.run s.handler with
      | .ok message handler => { s with handler := handler, taken := s.taken ++ [message] }
      | .error _ _ => s

end Endpoint

/-- The bytes that go out when the messages are posted one after another. -/
def wireBytes (messages : List (List α)) : Except Exception (List UInt8) := do
  let frames ← messages.mapM wrapWithHeader
  return frames.flatMap memory

end IConnectionHandler

end Azulejo
