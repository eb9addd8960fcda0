import Azulejo.Properties.ReceivedStream

/-!
# Messages that end the reception

The handler asks for the next header after a message. A header that declares no message is taken
for a malformed one, and nothing is asked for after it: an empty message, whose frame is such a
header, is not delivered, and nothing behind it is.
-/

namespace Azulejo

open Stateful IConnectionHandler

/-- After each frame of the stream the handler has all messages up to it and waits for the next
header, or gets there with reads that complete. -/
def KeepsReceiving (messages : List (List UInt8)) : Prop :=
  ∀ k ≤ messages.length, ∀ events, (∀ e ∈ events, Undisturbed e) →
    wireBytes (messages.take k) = .ok (arrivedBytes events) →
      (Waits (reception events) → ReceivedAll (messages.take k) (reception events)) ∧
      ∃ n, ReceivedAll (messages.take k) (reception (events ++ List.replicate n .readDone))

/-! ## A handler without a read -/

/-- No read is outstanding. -/
def Stopped (s : Endpoint UInt8) : Prop := s.thrown = none ∧ s.handler.reads = []

/-- What was received, in order. -/
def received (s : Endpoint UInt8) : List (List UInt8) := s.taken ++ s.handler.inMessageQue

/-- Bytes that arrive wait for a read that nobody starts. -/
theorem stopped_step {s : Endpoint UInt8} (h : Stopped s) {event : ReadEvent}
    (hevent : Undisturbed event) :
    Stopped (s.step event) ∧ received (s.step event) = received s := by
  have hthrown : ¬ s.thrown.isSome = true := by
    rw [h.1]
    decide
  cases event with
  | arrive bytes =>
    unfold Endpoint.step
    rw [if_neg hthrown]
    exact ⟨h, rfl⟩
  | readDone =>
    unfold Endpoint.step
    simp only [if_neg hthrown, h.2]
    exact ⟨h, trivial⟩
  | getOneMessage =>
    cases hqueue : s.handler.inMessageQue with
    | nil =>
      rw [getOneMessage_waits hqueue]
      exact ⟨h, rfl⟩
    | cons message rest =>
      rw [getOneMessage_takes h.1 hqueue]
      refine ⟨h, ?_⟩
      simp only [received, hqueue, List.append_assoc, List.singleton_append]
  | readFailed n => exact hevent.elim
  | postReceiveMessages => exact hevent.elim

theorem stopped_run {s : Endpoint UInt8} (h : Stopped s) {events : List ReadEvent}
    (hevents : ∀ e ∈ events, Undisturbed e) :
    Stopped (Runs.run Endpoint.step s events) ∧
      received (Runs.run Endpoint.step s events) = received s := by
  induction events generalizing s with
  | nil => exact ⟨h, rfl⟩
  | cons e events ih =>
    obtain ⟨hstopped, hsame⟩ := stopped_step h (hevents e List.mem_cons_self)
    obtain ⟨hrun, hreceived⟩ := ih hstopped fun e' he' => hevents e' (List.mem_cons_of_mem e he')
    exact ⟨hrun, hreceived.trans hsame⟩

/-! ## Up to the empty message -/

/-- The arrival of all bytes, and as many completions as there are reads. -/
def deliver (messages : List (List UInt8)) : List ReadEvent :=
  .arrive (stream messages) :: List.replicate (2 * messages.length) .readDone

theorem arrivedBytes_append (events more : List ReadEvent) :
    arrivedBytes (events ++ more) = arrivedBytes events ++ arrivedBytes more :=
  List.flatMap_append

theorem arrivedBytes_readDone (n : Nat) : arrivedBytes (List.replicate n .readDone) = [] := by
  unfold arrivedBytes
  rw [List.flatMap_eq_nil_iff]
  intro e he
  rw [List.eq_of_mem_replicate he]

theorem arrivedBytes_deliver (messages : List (List UInt8)) :
    arrivedBytes (deliver messages) = stream messages := by
  have hreads := arrivedBytes_readDone (2 * messages.length)
  unfold arrivedBytes at hreads ⊢
  rw [deliver, List.flatMap_cons, hreads, List.append_nil]

theorem undisturbed_deliver (messages : List (List UInt8)) :
    ∀ e ∈ deliver messages, Undisturbed e := by
  intro e he
  rcases List.mem_cons.mp he with rfl | he
  · trivial
  · rw [List.eq_of_mem_replicate he]
    trivial

/-- The frames of messages that are not empty are read to the end. -/
theorem atEnd_deliver {messages : List (List UInt8)} (hmessages : Receivable messages) :
    AtPlace messages (.header []) [] (reception (deliver messages)) := by
  have hnew : AtPlace messages (.header messages) (stream messages ++ [])
      ((Endpoint.new UInt8).step .postReceiveMessages) := by
    rw [List.append_nil]
    exact atPlace_new messages
  rw [reception_eq, deliver, Runs.run]
  exact atEnd_run hmessages rfl (atPlace_arrive hnew)

/-- The header of an empty message completes the read, and no read follows. -/
theorem stopped_of_empty {messages : List (List UInt8)} {s : Endpoint UInt8}
    (h : AtPlace messages (.header []) [] s) :
    Stopped ((s.step (.arrive (frame []))).step .readDone) ∧
      received ((s.step (.arrive (frame []))).step .readDone) = messages := by
  have hthrown : ¬ s.thrown.isSome = true := by
    rw [h.thrown]
    decide
  have hunread : s.unread = [] := (List.append_eq_nil_iff.mp h.bytes).1
  have hmessages : s.taken ++ s.handler.inMessageQue = messages := by
    have hmessages := h.messages
    rwa [StreamPlace.coming, List.append_nil] at hmessages
  have harrive : s.step (.arrive (frame [])) = { s with unread := frame [] } := by
    unfold Endpoint.step
    rw [if_neg hthrown, hunread]
    rfl
  have hlength : (frame []).length = HEADER_LENGTH := by decide
  have hbuffer : (frame [] ++ s.handler.inMessage.drop HEADER_LENGTH).take HEADER_LENGTH =
      charBytes (headerText 0) := List.take_left' hlength
  have hdone : ({ s with unread := frame [] } : Endpoint UInt8).step .readDone =
      ({ s with unread := frame [] } : Endpoint UInt8).complete
        ⟨HEADER_LENGTH, .header⟩ [] false HEADER_LENGTH := by
    unfold Endpoint.step
    simp only [if_neg hthrown, h.reads, StreamPlace.op, if_pos hlength.ge]
  rw [harrive, hdone]
  unfold Endpoint.complete
  simp only [List.take_of_length_le hlength.le, Endpoint.completion]
  rw [headerRead_empty hbuffer]
  exact ⟨⟨h.thrown, rfl⟩, hmessages⟩

/-- What arrives behind an empty message is not delivered. -/
theorem received_after_empty {before : List (List UInt8)} (hbefore : Receivable before)
    {events : List ReadEvent} (hevents : ∀ e ∈ events, Undisturbed e) :
    Stopped (reception (deliver before ++ [.arrive (frame []), .readDone] ++ events)) ∧
      received (reception (deliver before ++ [.arrive (frame []), .readDone] ++ events)) =
        before := by
  obtain ⟨hstopped, hreceived⟩ := stopped_of_empty (atEnd_deliver hbefore)
  rw [reception_append, reception_append]
  obtain ⟨hrun, hsame⟩ := stopped_run hstopped hevents
  exact ⟨hrun, hsame.trans hreceived⟩

/-- The bytes of the messages before an empty one, and of its header. -/
theorem arrivedBytes_empty (before : List (List UInt8)) :
    arrivedBytes (deliver before ++ [.arrive (frame []), .readDone]) =
      stream (before ++ [[]]) := by
  rw [arrivedBytes_append, arrivedBytes_deliver]
  unfold stream
  rw [List.flatMap_append]
  rfl

/-! ## Streams -/

theorem keepsReceiving_of_receivable {messages : List (List UInt8)}
    (hmessages : Receivable messages) : KeepsReceiving messages := by
  intro k _ events hevents hbytes
  have hpart : Receivable (messages.take k) :=
    fun m hm => hmessages m (List.mem_of_mem_take hm)
  have harrived : arrivedBytes events = stream (messages.take k) := by
    rw [wireBytes_eq hpart] at hbytes
    exact (Except.ok.inj hbytes).symm
  rw [← List.append_nil (arrivedBytes events)] at harrived
  obtain ⟨p, hp⟩ := exists_place hpart hevents harrived
  refine ⟨receivedAll_of_waits hpart hp, p.reads, ?_⟩
  rw [reception_append]
  exact receivedAll_run hpart rfl hp

theorem not_keepsReceiving {before after : List (List UInt8)} (hbefore : Receivable before) :
    ¬ KeepsReceiving (before ++ [] :: after) := by
  intro hkeeps
  have htake : (before ++ [] :: after).take (before.length + 1) = before ++ [[]] := by
    rw [List.take_length_add_append]
    rfl
  have hlengths : ∀ m ∈ before ++ [[]], m.length ≤ BUFFER_SIZE := by
    intro m hm
    rcases List.mem_append.mp hm with hm | hm
    · exact (hbefore m hm).2
    · rw [List.mem_singleton.mp hm]
      exact Nat.zero_le _
  have hevents : ∀ e ∈ deliver before ++ [.arrive (frame []), .readDone], Undisturbed e := by
    intro e he
    rcases List.mem_append.mp he with he | he
    · exact undisturbed_deliver before e he
    · rcases List.mem_cons.mp he with rfl | he
      · trivial
      · rw [List.mem_singleton.mp he]
        trivial
  have hk : before.length + 1 ≤ (before ++ [] :: after).length := by
    rw [List.length_append, List.length_cons]
    omega
  have hstopped : Stopped (reception (deliver before ++ [.arrive (frame []), .readDone])) := by
    rw [reception_append]
    exact (stopped_of_empty (atEnd_deliver hbefore)).1
  have hwaits : Waits (reception (deliver before ++ [.arrive (frame []), .readDone])) := by
    intro op hop
    rw [hstopped.2] at hop
    cases hop
  have hall := (hkeeps _ hk _ hevents (by
    rw [htake, wireBytes_of_le hlengths, arrivedBytes_empty])).1 hwaits
  have hreads := hall.reads
  rw [hstopped.2] at hreads
  cases hreads

/-- The handler waits for a header after every frame of a stream exactly if none of its messages
is empty. -/
theorem keepsReceiving_iff (messages : List (List UInt8))
    (hlengths : ∀ m ∈ messages, m.length ≤ BUFFER_SIZE) :
    KeepsReceiving messages ↔ ∀ m ∈ messages, m ≠ [] := by
  have hreceivable : ∀ l : List (List UInt8), (∀ m ∈ l, m ∈ messages) → (∀ m ∈ l, m ≠ []) →
      Receivable l :=
    fun l hl hne m hm => ⟨List.length_pos_of_ne_nil (hne m hm), hlengths m (hl m hm)⟩
  constructor
  · intro hkeeps
    rcases Runs.forall_or_exists_first (fun m : List UInt8 => m ≠ []) messages with
      hall | ⟨before, m, after, rfl, hbefore, hm⟩
    · exact hall
    · rw [not_not.mp hm] at hkeeps
      have hpart := hreceivable before (fun b hb => List.mem_append_left _ hb) hbefore
      exact absurd hkeeps (not_keepsReceiving hpart)
  · intro hne
    exact keepsReceiving_of_receivable (hreceivable messages (fun _ hm => hm) hne)

theorem keepsReceiving_two : KeepsReceiving [[7, 8, 9], [5]] :=
  (keepsReceiving_iff _ (by unfold BUFFER_SIZE; decide)).mpr (by decide)

/-- The message behind an empty one is not delivered. -/
theorem empty_message_between_two : ¬ KeepsReceiving [[1], [], [2]] := by
  have hbefore : Receivable [[1]] := by
    unfold Receivable
    decide
  exact not_keepsReceiving hbefore

end Azulejo
