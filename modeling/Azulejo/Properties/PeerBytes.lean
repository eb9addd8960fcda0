import Azulejo.Properties.ReceivedStream

/-!
# What a peer may send

A handler reads whatever a peer sends as headers and messages. A header that says zero, or that
is no number, ends the reception; one that says more than the buffer holds makes `AsyncRead`
throw in the completion handler, where nothing catches the exception. So the streams that are
safe are those of which every header that is reached fits the buffer or ends the reception.
-/

namespace Azulejo

open Stateful IConnectionHandler

namespace IConnectionHandler

variable {α : Type}

/-- The length that the header in front of the bytes stands for. -/
def declaredLength (bytes : List UInt8) : Nat :=
  sizeCast (atoll (bytes.take HEADER_LENGTH ++ [0]))

/-- Every header that a reader with a buffer of `limit` bytes reaches either ends the reception
or is followed by a message that fits. -/
inductive HeadersFit (limit : Nat) : List UInt8 → Prop
  | short {bytes : List UInt8} (h : bytes.length < HEADER_LENGTH) : HeadersFit limit bytes
  | stop {bytes : List UInt8} (h : declaredLength bytes = 0) : HeadersFit limit bytes
  | frame {bytes : List UInt8} (hfits : declaredLength bytes ≤ limit)
      (hrest : HeadersFit limit ((bytes.drop HEADER_LENGTH).drop (declaredLength bytes))) :
      HeadersFit limit bytes

variable [PodType α]

/-- What the reader waits for, when `bytes` are all that it has not read. -/
inductive ReaderAt (limit : Nat) (bytes : List UInt8) : List AsyncReadOp → Prop
  | header (hlimit : HEADER_LENGTH ≤ limit) (h : HeadersFit limit bytes) :
      ReaderAt limit bytes [⟨HEADER_LENGTH, .header⟩]
  | body {n : Nat} (hlimit : HEADER_LENGTH ≤ limit) (hn : n ≤ limit)
      (h : HeadersFit limit (bytes.drop n)) : ReaderAt limit bytes [⟨n, .body⟩]
  | stopped : ReaderAt limit bytes []

theorem ReaderAt.fits {limit : Nat} {bytes : List UInt8} {reads : List AsyncReadOp}
    (h : ReaderAt limit bytes reads) : ∀ op ∈ reads, op.bytesToRead ≤ limit := by
  intro op hop
  cases h with
  | header hlimit h =>
    obtain rfl := List.mem_singleton.mp hop
    exact hlimit
  | body hlimit hn h =>
    obtain rfl := List.mem_singleton.mp hop
    exact hn
  | stopped => cases hop

end IConnectionHandler

end Azulejo
