import Azulejo.Interprocess.Outgoing
import Azulejo.Properties.FrameHeaders

/-!
# Frames of wider elements

The sender puts a header of four elements in front of a message and writes the number of elements
into it. The receiver takes a header for four bytes and its number for a number of bytes. With
elements of one byte the two are the same.
-/

namespace Azulejo

open Stateful IConnectionHandler

variable {α : Type} [PodType α]

/-- A type of one byte keeps the characters of ASCII; of a wider type nothing is said. -/
def KeepsChars (α : Type) [PodType α] : Prop := PodType.size α = 1 → WidensChars α

/-- `PostOutgoingMessage` sends a header and a payload that the receiver takes for a header and
the message. -/
structure CountsBytes (message frame : List α) (header payload : List UInt8) : Prop where
  pushed : ∀ me : WriteSide α, me.step (.postOutgoingMessage message) = me.push frame
  wire : memory frame = header ++ payload
  length_header : header.length = HEADER_LENGTH
  length_payload : payload.length = message.length * PodType.size α
  decoded : ∀ me : ReadSide α, me.inMessage.take HEADER_LENGTH = header →
    (receivedDataLength HEADER_LENGTH).run me = .ok payload.length me
  queued : ∀ me : ReadSide α, me.inMessage.take payload.length = payload →
    (finalState ((queueReceivedMessage payload.length).run me)).inMessageQue =
      me.inMessageQue ++ [message]

/-- The frame of the message counts bytes. -/
def FramedInBytes (message : List α) : Prop :=
  ∃ frame header payload, CountsBytes message frame header payload

theorem length_memory (message : List α) :
    (memory message).length = message.length * PodType.size α := by
  induction message with
  | nil => exact (Nat.zero_mul _).symm
  | cons x message ih =>
    have hmemory : memory (x :: message) = PodType.toBytes x ++ memory message :=
      List.flatMap_cons
    rw [hmemory, List.length_append, PodType.length_toBytes, ih, List.length_cons,
      Nat.succ_mul, Nat.add_comm]

theorem memory_append (xs ys : List α) : memory (xs ++ ys) = memory xs ++ memory ys :=
  List.flatMap_append

/-! ## Sending -/

theorem step_postOutgoingMessage {message : List α} (h : message.length < 10000)
    (me : WriteSide α) :
    me.step (.postOutgoingMessage message) =
      me.push (headerElements α message.length ++ message) := by
  unfold WriteSide.step
  simp only [wrapWithHeader_eq h]
  rfl

omit [PodType α] in
/-- What is pushed tells the frame. -/
theorem push_inj {me : WriteSide α} {frame frame' : List α} (h : me.push frame = me.push frame') :
    frame = frame' := by
  have hpushed := congrArg WriteSide.pushed h
  have hlast := List.append_cancel_left hpushed
  exact congrArg OutFrame.elements (List.cons.inj hlast).1

/-- The header of a frame takes four elements. -/
theorem size_eq_one_of_framedInBytes {message : List α} (hlength : message.length < 10000)
    (h : FramedInBytes message) : PodType.size α = 1 := by
  obtain ⟨frame, header, payload, hframe⟩ := h
  have hpushed := hframe.pushed WriteSide.new
  rw [step_postOutgoingMessage hlength] at hpushed
  obtain rfl : headerElements α message.length ++ message = frame := push_inj hpushed
  have hbytes := congrArg List.length hframe.wire
  rw [length_memory, List.length_append, List.length_append, length_headerElements hlength,
    hframe.length_header, hframe.length_payload, Nat.add_mul] at hbytes
  have hheader := Nat.add_right_cancel hbytes
  unfold HEADER_LENGTH at hheader
  omega

/-! ## Receiving -/

/-- The payload is queued as a message, whether another read could be started or not. -/
theorem queueReceivedMessage_queues (bytesTransferred : Nat) (me : ReadSide α) :
    (finalState ((queueReceivedMessage bytesTransferred).run me)).inMessageQue =
      me.inMessageQue ++
        [elements (bytesTransferred / PodType.size α) (me.inMessage.take bytesTransferred)] := by
  unfold queueReceivedMessage postReceiveMessages asyncRead
  rw [bind_ok (EStateM.run_get me), bind_ok (EStateM.run_set _ _), bind_ok (EStateM.run_get _)]
  split <;> rfl

theorem countsBytes_of_size_eq_one (hα : WidensChars α) (hsize : PodType.size α = 1)
    {message : List α} (hlength : message.length < 10000) :
    CountsBytes message (headerElements α message.length ++ message)
      (charBytes (headerText message.length)) (memory message) where
  pushed := step_postOutgoingMessage hlength
  wire := by rw [memory_append, memory_headerElements hα hsize]
  length_header := by
    unfold charBytes
    rw [List.length_map, length_headerText hlength]
  length_payload := length_memory message
  decoded me hheader := by
    rw [receivedDataLength_run hlength hheader, length_memory, hsize, Nat.mul_one]
  queued me hpayload := by
    rw [queueReceivedMessage_queues, hpayload, length_memory, hsize, Nat.mul_one, Nat.div_one,
      elements_memory]

/-- The frame of a message that fits into the buffer counts bytes exactly if its elements are
bytes. -/
theorem framedInBytes_iff (hα : KeepsChars α) {message : List α}
    (hfits : message.length * PodType.size α ≤ BUFFER_SIZE) :
    FramedInBytes message ↔ PodType.size α = 1 := by
  have hlength : message.length < 10000 := by
    have hsize : 1 ≤ PodType.size α := PodType.size_pos
    have hle := Nat.le_mul_of_pos_right message.length hsize
    unfold BUFFER_SIZE at hfits
    omega
  constructor
  · exact size_eq_one_of_framedInBytes hlength
  · intro hsize
    exact ⟨_, _, _, countsBytes_of_size_eq_one (hα hsize) hsize hlength⟩

theorem framedInBytes_hello : FramedInBytes (charBytes "hello".toList) ↔ PodType.size UInt8 = 1 :=
  framedInBytes_iff (fun _ => widensChars_char) (by decide)

/-- One `unsigned int` is a message of four bytes. -/
theorem unsigned_not_framedInBytes :
    ¬ ∀ message : List UInt32, 1 ≤ message.length * PodType.size UInt32 →
      message.length * PodType.size UInt32 ≤ BUFFER_SIZE → FramedInBytes message := by
  intro h
  have hsize := size_eq_one_of_framedInBytes (by decide) (h [7] (by decide) (by decide))
  exact absurd hsize (by decide)

end Azulejo
