import Azulejo.Interprocess.Specs
import Azulejo.Lib.Runs

/-!
# Receiving a framed stream

A handler that reads the frames of a list of messages is, at any moment, at a place of the
stream: in front of a frame, or between a header and its message. However the bytes come in and
whenever the application takes messages, the messages behind that place are the ones it got and
the ones that are queued.
-/

namespace Azulejo

open Stateful IConnectionHandler

/-! ## Places in a stream -/

/-- The frame of a message. -/
def frame (message : List UInt8) : List UInt8 :=
  charBytes (headerText message.length) ++ message

/-- The frames of the messages. -/
def stream (messages : List (List UInt8)) : List UInt8 := messages.flatMap frame

/-- A place of a reader in the frames of the messages that are to come. -/
inductive StreamPlace where
  | header (rest : List (List UInt8))
  | body (message : List UInt8) (rest : List (List UInt8))

namespace StreamPlace

/-- The read that is outstanding there. -/
def op : StreamPlace → AsyncReadOp
  | header _ => ⟨HEADER_LENGTH, .header⟩
  | body message _ => ⟨message.length, .body⟩

/-- The bytes behind the place. -/
def bytes : StreamPlace → List UInt8
  | header rest => stream rest
  | body message rest => message ++ stream rest

/-- The messages that are not read yet. -/
def coming : StreamPlace → List (List UInt8)
  | header rest => rest
  | body message rest => message :: rest

/-- The place after the outstanding read. -/
def next : StreamPlace → StreamPlace
  | header [] => header []
  | header (message :: rest) => body message rest
  | body _ rest => header rest

/-- The number of reads to the end of the stream. -/
def reads : StreamPlace → Nat
  | header rest => 2 * rest.length
  | body _ rest => 2 * rest.length + 1

theorem eq_of_reads_eq_zero {p : StreamPlace} (h : p.reads = 0) : p = header [] := by
  cases p with
  | header rest =>
    simp only [reads] at h
    obtain rfl : rest = [] := List.length_eq_zero_iff.mp (by omega)
    rfl
  | body message rest =>
    simp only [reads] at h
    omega

theorem reads_next {p : StreamPlace} {n : Nat} (h : p.reads = n + 1) : p.next.reads = n := by
  cases p with
  | header rest =>
    cases rest with
    | nil => cases h
    | cons message rest =>
      simp only [reads, next, List.length_cons] at h ⊢
      omega
  | body message rest =>
    simp only [reads, next] at h ⊢
    omega

end StreamPlace

/-- The lengths that the receiver can take. -/
def Receivable (messages : List (List UInt8)) : Prop :=
  ∀ m ∈ messages, 1 ≤ m.length ∧ m.length ≤ BUFFER_SIZE

/-- The endpoint is at the place `p` of the frames of `messages`, of which `future` has not
arrived. -/
structure AtPlace (messages : List (List UInt8)) (p : StreamPlace) (future : List UInt8)
    (s : Endpoint UInt8) : Prop where
  thrown : s.thrown = none
  buffer : s.handler.inMessage.length = BUFFER_SIZE
  reads : s.handler.reads = [p.op]
  messages : s.taken ++ s.handler.inMessageQue ++ p.coming = messages
  bytes : s.unread ++ future = p.bytes

/-! ## One event -/

theorem length_frame {message : List UInt8} (h : message.length ≤ BUFFER_SIZE) :
    (charBytes (headerText message.length)).length = HEADER_LENGTH := by
  have hlt : message.length < 10000 := lt_of_le_of_lt h (by decide)
  unfold charBytes
  rw [List.length_map, length_headerText hlt]

/-- The bytes of the outstanding read have arrived; they are the first of the stream. -/
theorem take_unread {messages : List (List UInt8)} {p : StreamPlace} {future : List UInt8}
    {s : Endpoint UInt8} (h : AtPlace messages p future s) {first rest : List UInt8}
    (hbytes : p.bytes = first ++ rest) (harrived : first.length ≤ s.unread.length) :
    s.unread.take first.length = first ∧ s.unread.drop first.length ++ future = rest := by
  have hsplit : s.unread ++ future = first ++ rest := by rw [h.bytes, hbytes]
  constructor
  · have htake := congrArg (List.take first.length) hsplit
    rwa [List.take_append_of_le_length harrived, List.take_left' rfl] at htake
  · have hdrop := congrArg (List.drop first.length) hsplit
    rwa [List.drop_append_of_le_length harrived, List.drop_left' rfl] at hdrop

/-- The buffer after a read keeps its size. -/
theorem length_overwritten {first buffer : List UInt8} (h : first.length ≤ buffer.length) :
    (first ++ buffer.drop first.length).length = buffer.length := by
  rw [List.length_append, List.length_drop]
  omega

/-- Between two frames, the read that completes is that of a header. -/
theorem complete_header {messages : List (List UInt8)} (hmessages : Receivable messages)
    {message : List UInt8} {rest : List (List UInt8)} {future : List UInt8}
    {s : Endpoint UInt8} (h : AtPlace messages (.header (message :: rest)) future s)
    (harrived : HEADER_LENGTH ≤ s.unread.length) :
    AtPlace messages (.body message rest) future
      (s.complete ⟨HEADER_LENGTH, .header⟩ [] false HEADER_LENGTH) := by
  have hmem : message ∈ messages := by
    rw [← h.messages]
    exact List.mem_append_right _ List.mem_cons_self
  obtain ⟨hpos, hle⟩ := hmessages message hmem
  have hlt : message.length < 10000 := lt_of_le_of_lt hle (by decide)
  have hlength := length_frame hle
  have hbytes : (StreamPlace.header (message :: rest)).bytes =
      charBytes (headerText message.length) ++ (message ++ stream rest) := by
    simp only [StreamPlace.bytes, stream, List.flatMap_cons, frame, List.append_assoc]
  obtain ⟨htake, hdrop⟩ := take_unread h hbytes (by omega)
  rw [hlength] at htake hdrop
  have hbuffer : (charBytes (headerText message.length) ++
      s.handler.inMessage.drop HEADER_LENGTH).length = BUFFER_SIZE := by
    rw [← h.buffer, ← hlength]
    exact length_overwritten (by rw [hlength, h.buffer]; decide)
  unfold Endpoint.complete
  simp only [htake, Endpoint.completion]
  rw [headerRead_run hpos hlt (by rw [hbuffer]; exact hle) (List.take_left' hlength)]
  exact ⟨h.thrown, hbuffer, rfl, h.messages, hdrop⟩

/-- Behind a header, the read that completes is that of its message, which is queued. -/
theorem complete_body {messages : List (List UInt8)} {message : List UInt8}
    (hle : message.length ≤ BUFFER_SIZE) {rest : List (List UInt8)} {future : List UInt8}
    {s : Endpoint UInt8} (h : AtPlace messages (.body message rest) future s)
    (harrived : message.length ≤ s.unread.length) :
    AtPlace messages (.header rest) future
      (s.complete ⟨message.length, .body⟩ [] false message.length) := by
  obtain ⟨htake, hdrop⟩ := take_unread h rfl harrived
  have hbuffer : (message ++ s.handler.inMessage.drop message.length).length = BUFFER_SIZE := by
    rw [← h.buffer]
    exact length_overwritten (by rw [h.buffer]; exact hle)
  have hmessage : elements (message.length / PodType.size UInt8)
      ((message ++ s.handler.inMessage.drop message.length).take message.length) = message := by
    have hmemory := elements_memory message
    rw [memory_char] at hmemory
    rw [List.take_left' rfl]
    exact (congrArg (fun n => elements n message) (Nat.div_one message.length)).trans hmemory
  unfold Endpoint.complete
  simp only [htake, Endpoint.completion]
  rw [bodyRead_run (by rw [hbuffer]; decide)]
  refine ⟨h.thrown, hbuffer, rfl, ?_, hdrop⟩
  rw [← h.messages]
  simp only [hmessage, StreamPlace.coming, List.append_assoc, List.singleton_append]

/-- A read that can complete takes the endpoint to the next place. -/
theorem atPlace_readDone {messages : List (List UInt8)} (hmessages : Receivable messages)
    {p : StreamPlace} {future : List UInt8} {s : Endpoint UInt8}
    (h : AtPlace messages p future s) (harrived : p.op.bytesToRead ≤ s.unread.length) :
    AtPlace messages p.next future (s.step .readDone) := by
  have hstep : s.step .readDone = s.complete p.op [] false p.op.bytesToRead := by
    unfold Endpoint.step
    simp only [h.thrown, Option.isSome_none, Bool.false_eq_true, if_false, h.reads,
      if_pos harrived]
  rw [hstep]
  cases p with
  | header rest =>
    cases rest with
    | nil =>
      -- behind the last frame there is no byte left for a header
      have hnil : s.unread = [] := (List.append_eq_nil_iff.mp h.bytes).1
      rw [hnil] at harrived
      exact absurd harrived (by decide)
    | cons message rest => exact complete_header hmessages h harrived
  | body message rest =>
    have hmem : message ∈ messages := by
      rw [← h.messages]
      exact List.mem_append_right _ List.mem_cons_self
    exact complete_body (hmessages message hmem).2 h harrived

/-- Without its bytes a read does not complete. -/
theorem readDone_waits {messages : List (List UInt8)} {p : StreamPlace} {future : List UInt8}
    {s : Endpoint UInt8} (h : AtPlace messages p future s)
    (harrived : ¬ p.op.bytesToRead ≤ s.unread.length) : s.step .readDone = s := by
  unfold Endpoint.step
  simp only [h.thrown, Option.isSome_none, Bool.false_eq_true, if_false, h.reads,
    if_neg harrived]

theorem atPlace_arrive {messages : List (List UInt8)} {p : StreamPlace}
    {bytes future : List UInt8} {s : Endpoint UInt8}
    (h : AtPlace messages p (bytes ++ future) s) :
    AtPlace messages p future (s.step (.arrive bytes)) := by
  have hstep : s.step (.arrive bytes) = { s with unread := s.unread ++ bytes } := by
    unfold Endpoint.step
    simp only [h.thrown, Option.isSome_none, Bool.false_eq_true, if_false]
  rw [hstep]
  refine ⟨h.thrown, h.buffer, h.reads, h.messages, ?_⟩
  rw [← h.bytes]
  exact List.append_assoc _ _ _

theorem getOneMessage_waits {α : Type} [PodType α] {s : Endpoint α}
    (hqueue : s.handler.inMessageQue = []) :
    s.step .getOneMessage = s := by
  obtain ⟨e, he⟩ := getOneMessage_nil hqueue
  unfold Endpoint.step
  simp only [he, ite_self]

theorem getOneMessage_takes {α : Type} [PodType α] {s : Endpoint α} (hthrown : s.thrown = none)
    {message : List α} {rest : List (List α)}
    (hqueue : s.handler.inMessageQue = message :: rest) :
    s.step .getOneMessage =
      { s with
        handler := { s.handler with inMessageQue := rest }
        taken := s.taken ++ [message] } := by
  unfold Endpoint.step
  simp only [hthrown, Option.isSome_none, Bool.false_eq_true, if_false,
    getOneMessage_cons hqueue]

/-- Taking a message moves it from the queue to the application. -/
theorem atPlace_getOneMessage {messages : List (List UInt8)} {p : StreamPlace}
    {future : List UInt8} {s : Endpoint UInt8} (h : AtPlace messages p future s) :
    AtPlace messages p future (s.step .getOneMessage) := by
  cases hqueue : s.handler.inMessageQue with
  | nil =>
    rw [getOneMessage_waits hqueue]
    exact h
  | cons message rest =>
    rw [getOneMessage_takes h.thrown hqueue]
    refine ⟨h.thrown, h.buffer, h.reads, ?_, h.bytes⟩
    rw [← h.messages, hqueue]
    simp only [List.append_assoc, List.singleton_append]

/-! ## A run -/

/-- The events of a reception without socket errors, after the one call that starts it. -/
def Undisturbed : ReadEvent → Prop
  | .arrive _ | .readDone | .getOneMessage => True
  | .readFailed _ | .postReceiveMessages => False

/-- The bytes that arrive. -/
def arrivedBytes (events : List ReadEvent) : List UInt8 :=
  events.flatMap fun
    | .arrive bytes => bytes
    | _ => []

/-- A reception: `PostReceiveMessages` on a new endpoint, and what happens after it. -/
def reception (events : List ReadEvent) : Endpoint UInt8 :=
  Runs.run Endpoint.step (Endpoint.new UInt8) (.postReceiveMessages :: events)

theorem reception_eq (events : List ReadEvent) :
    reception events =
      Runs.run Endpoint.step ((Endpoint.new UInt8).step .postReceiveMessages) events := by
  rw [reception, Runs.run]

theorem reception_append (events more : List ReadEvent) :
    reception (events ++ more) = Runs.run Endpoint.step (reception events) more := by
  rw [reception_eq, reception_eq, Runs.run_append]

/-- The outstanding read waits for bytes that have not arrived. -/
def Waits (s : Endpoint UInt8) : Prop :=
  ∀ op ∈ s.handler.reads.head?, s.unread.length < op.bytesToRead

/-- Everything was received, and the next header is waited for. -/
structure ReceivedAll (messages : List (List UInt8)) (s : Endpoint UInt8) : Prop where
  thrown : s.thrown = none
  messages : s.taken ++ s.handler.inMessageQue = messages
  reads : s.handler.reads = [⟨HEADER_LENGTH, .header⟩]
  unread : s.unread = []

/-- Every event leaves the endpoint at a place of the stream. -/
theorem atPlace_step {messages : List (List UInt8)} (hmessages : Receivable messages)
    {p : StreamPlace} {future : List UInt8} {s : Endpoint UInt8} {event : ReadEvent}
    (hevent : Undisturbed event) (h : AtPlace messages p (arrivedBytes [event] ++ future) s) :
    ∃ p', AtPlace messages p' future (s.step event) := by
  cases event with
  | arrive bytes =>
    have hbytes : arrivedBytes [.arrive bytes] = bytes := List.append_nil bytes
    rw [hbytes] at h
    exact ⟨p, atPlace_arrive h⟩
  | readDone =>
    by_cases harrived : p.op.bytesToRead ≤ s.unread.length
    · exact ⟨p.next, atPlace_readDone hmessages h harrived⟩
    · rw [readDone_waits h harrived]
      exact ⟨p, h⟩
  | getOneMessage => exact ⟨p, atPlace_getOneMessage h⟩
  | readFailed n => exact hevent.elim
  | postReceiveMessages => exact hevent.elim

theorem atPlace_run {messages : List (List UInt8)} (hmessages : Receivable messages)
    {future : List UInt8} {events : List ReadEvent} (hevents : ∀ e ∈ events, Undisturbed e)
    {p : StreamPlace} {s : Endpoint UInt8}
    (h : AtPlace messages p (arrivedBytes events ++ future) s) :
    ∃ p', AtPlace messages p' future (Runs.run Endpoint.step s events) := by
  induction events generalizing p s with
  | nil => exact ⟨p, h⟩
  | cons e events ih =>
    have hsplit : arrivedBytes (e :: events) ++ future =
        arrivedBytes [e] ++ (arrivedBytes events ++ future) := by
      simp only [arrivedBytes, List.flatMap_cons, List.flatMap_nil, List.append_nil,
        List.append_assoc]
    rw [hsplit] at h
    obtain ⟨p', hp'⟩ := atPlace_step hmessages (hevents e List.mem_cons_self) h
    exact ih (fun e' he' => hevents e' (List.mem_cons_of_mem e he')) hp'

/-- The first call waits for the first header, in a buffer of zeros. -/
theorem atPlace_new (messages : List (List UInt8)) :
    AtPlace messages (.header messages) (stream messages)
      ((Endpoint.new UInt8).step .postReceiveMessages) := by
  have hbuffer : (ReadSide.new UInt8).inMessage.length = BUFFER_SIZE := List.length_replicate
  have hread : postReceiveMessages.run (ReadSide.new UInt8) =
      .ok () { ReadSide.new UInt8 with reads := [⟨HEADER_LENGTH, .header⟩] } := by
    apply asyncRead_run
    rw [hbuffer]
    decide
  have hstep : (Endpoint.new UInt8).step .postReceiveMessages =
      { Endpoint.new UInt8 with
        handler := { ReadSide.new UInt8 with reads := [⟨HEADER_LENGTH, .header⟩] } } := by
    unfold Endpoint.step Endpoint.new
    simp only [Option.isSome_none, Bool.false_eq_true, if_false, hread, finalState]
  rw [hstep]
  exact ⟨rfl, hbuffer, rfl, rfl, rfl⟩

/-! ## The end of a run -/

/-- When everything has arrived, a read that is not behind the last frame has its bytes. -/
theorem arrived_of_reads_ne_zero {messages : List (List UInt8)}
    (hmessages : Receivable messages) {p : StreamPlace} {s : Endpoint UInt8}
    (h : AtPlace messages p [] s) (hp : p.reads ≠ 0) : p.op.bytesToRead ≤ s.unread.length := by
  have hunread : s.unread = p.bytes := by rw [← h.bytes, List.append_nil]
  rw [hunread]
  cases p with
  | header rest =>
    cases rest with
    | nil => exact absurd rfl hp
    | cons message rest =>
      have hmem : message ∈ messages := by
        rw [← h.messages]
        exact List.mem_append_right _ List.mem_cons_self
      have hlength := length_frame (hmessages message hmem).2
      simp only [StreamPlace.bytes, StreamPlace.op, stream, frame, List.flatMap_cons,
        List.length_append]
      omega
  | body message rest =>
    simp only [StreamPlace.bytes, StreamPlace.op, List.length_append]
    omega

theorem receivedAll_of_reads_eq_zero {messages : List (List UInt8)} {p : StreamPlace}
    {s : Endpoint UInt8} (h : AtPlace messages p [] s) (hp : p.reads = 0) :
    ReceivedAll messages s := by
  obtain rfl := StreamPlace.eq_of_reads_eq_zero hp
  have hmessages := h.messages
  rw [StreamPlace.coming, List.append_nil] at hmessages
  exact ⟨h.thrown, hmessages, h.reads, (List.append_eq_nil_iff.mp h.bytes).1⟩

theorem receivedAll_of_waits {messages : List (List UInt8)} (hmessages : Receivable messages)
    {p : StreamPlace} {s : Endpoint UInt8} (h : AtPlace messages p [] s) (hwaits : Waits s) :
    ReceivedAll messages s := by
  apply receivedAll_of_reads_eq_zero h
  by_contra hp
  have harrived := arrived_of_reads_ne_zero hmessages h hp
  have hwaiting : s.unread.length < p.op.bytesToRead := by
    apply hwaits
    rw [h.reads]
    rfl
  omega

/-- With as many completions as reads are left, the reader gets to the end of the stream. -/
theorem atEnd_run {messages : List (List UInt8)} (hmessages : Receivable messages)
    {n : Nat} {p : StreamPlace} (hn : p.reads = n) {s : Endpoint UInt8}
    (h : AtPlace messages p [] s) :
    AtPlace messages (.header []) [] (Runs.run Endpoint.step s (List.replicate n .readDone)) := by
  induction n generalizing p s with
  | zero =>
    obtain rfl := StreamPlace.eq_of_reads_eq_zero hn
    exact h
  | succ n ih =>
    have harrived := arrived_of_reads_ne_zero hmessages h (by omega)
    exact ih (StreamPlace.reads_next hn) (atPlace_readDone hmessages h harrived)

theorem receivedAll_run {messages : List (List UInt8)} (hmessages : Receivable messages)
    {n : Nat} {p : StreamPlace} (hn : p.reads = n) {s : Endpoint UInt8}
    (h : AtPlace messages p [] s) :
    ReceivedAll messages (Runs.run Endpoint.step s (List.replicate n .readDone)) :=
  receivedAll_of_reads_eq_zero (atEnd_run hmessages hn h) rfl

/-- As many calls of `GetOneMessage` as there are messages return all that are queued. -/
theorem taken_run {n : Nat} {s : Endpoint UInt8} (hthrown : s.thrown = none)
    (hn : s.handler.inMessageQue.length ≤ n) :
    (Runs.run Endpoint.step s (List.replicate n .getOneMessage)).taken =
      s.taken ++ s.handler.inMessageQue := by
  induction n generalizing s with
  | zero =>
    have hqueue : s.handler.inMessageQue = [] := List.length_eq_zero_iff.mp (by omega)
    rw [hqueue, List.append_nil]
    rfl
  | succ n ih =>
    rw [List.replicate_succ, Runs.run]
    cases hqueue : s.handler.inMessageQue with
    | nil =>
      rw [getOneMessage_waits hqueue, ih hthrown (by rw [hqueue]; exact Nat.zero_le n), hqueue]
    | cons message rest =>
      rw [hqueue, List.length_cons] at hn
      rw [getOneMessage_takes hthrown hqueue, ih]
      · simp only [List.append_assoc, List.singleton_append]
      · exact hthrown
      · exact Nat.le_of_succ_le_succ hn

theorem ReceivedAll.taken {messages : List (List UInt8)} {s : Endpoint UInt8}
    (h : ReceivedAll messages s) :
    (Runs.run Endpoint.step s (List.replicate messages.length .getOneMessage)).taken =
      messages := by
  have hlength := congrArg List.length h.messages
  rw [List.length_append] at hlength
  rw [taken_run h.thrown (by omega), h.messages]

/-! ## The stream -/

theorem wireBytes_of_le {messages : List (List UInt8)}
    (hmessages : ∀ m ∈ messages, m.length ≤ BUFFER_SIZE) :
    wireBytes messages = .ok (stream messages) := by
  have hframes : messages.mapM wrapWithHeader = (.ok (messages.map frame) : Except Exception _) := by
    induction messages with
    | nil => rfl
    | cons message rest ih =>
      have hle := hmessages message List.mem_cons_self
      have hlt : message.length < 10000 := lt_of_le_of_lt hle (by decide)
      have hframe : wrapWithHeader message = .ok (frame message) := by
        rw [wrapWithHeader_eq hlt]
        exact congrArg (fun header => Except.ok (header ++ message)) (List.map_id _)
      rw [List.mapM_cons, hframe, ih fun m hm => hmessages m (List.mem_cons_of_mem message hm)]
      rfl
  unfold wireBytes
  rw [hframes]
  have hflat : (messages.map frame).flatMap memory = stream messages := by
    rw [List.flatMap_map]
    exact List.flatMap_congr fun m _ => memory_char (frame m)
  exact congrArg Except.ok hflat

theorem wireBytes_eq {messages : List (List UInt8)} (hmessages : Receivable messages) :
    wireBytes messages = .ok (stream messages) :=
  wireBytes_of_le fun m hm => (hmessages m hm).2

/-- A reception of a part of the stream is at a place of it. -/
theorem exists_place {messages : List (List UInt8)} (hmessages : Receivable messages)
    {events : List ReadEvent} (hevents : ∀ e ∈ events, Undisturbed e) {future : List UInt8}
    (hbytes : arrivedBytes events ++ future = stream messages) :
    ∃ p, AtPlace messages p future (reception events) := by
  have hnew := atPlace_new messages
  rw [← hbytes] at hnew
  rw [reception_eq]
  exact atPlace_run hmessages hevents hnew

/-- What the frames of the messages are received as, with any timing: at any moment a prefix
of the messages, and all of them when all bytes have arrived and the reads are done. -/
theorem framed_stream_received (messages : List (List UInt8)) (hmessages : Receivable messages) :
    ∃ bytes, wireBytes messages = .ok bytes ∧
      ∀ events, (∀ e ∈ events, Undisturbed e) → arrivedBytes events <+: bytes →
        (reception events).thrown = none ∧
        (reception events).taken ++ (reception events).handler.inMessageQue <+: messages ∧
        (arrivedBytes events = bytes →
          (Waits (reception events) → ReceivedAll messages (reception events)) ∧
          ∃ n, ReceivedAll messages (reception (events ++ List.replicate n .readDone)) ∧
            (reception (events ++ List.replicate n .readDone ++
              List.replicate messages.length .getOneMessage)).taken = messages) := by
  refine ⟨stream messages, wireBytes_eq hmessages, ?_⟩
  rintro events hevents ⟨future, hfuture⟩
  obtain ⟨p, hp⟩ := exists_place hmessages hevents hfuture
  refine ⟨hp.thrown, ⟨p.coming, hp.messages⟩, ?_⟩
  intro hall
  obtain rfl : future = [] := by
    rw [hall] at hfuture
    exact List.append_right_eq_self.mp hfuture
  refine ⟨receivedAll_of_waits hmessages hp, p.reads, ?_⟩
  have hdone := receivedAll_run hmessages rfl hp
  rw [reception_append, reception_append, reception_append]
  exact ⟨hdone, hdone.taken⟩

/-- A long message and a shorter one, whose frame arrives in two parts. -/
def sampleEvents : List ReadEvent :=
  [.arrive [32, 32, 32, 51, 7, 8, 9, 32, 32], .readDone, .readDone, .readDone,
    .arrive [32, 49, 5], .readDone, .getOneMessage, .readDone]

theorem framed_stream_received_sample :
    ReceivedAll [[7, 8, 9], [5]] (reception sampleEvents) ∧
      (reception sampleEvents).taken = [[7, 8, 9]] := by
  have hlengths : Receivable [[7, 8, 9], [5]] := by
    unfold Receivable
    decide
  obtain ⟨bytes, hbytes, hreceived⟩ := framed_stream_received [[7, 8, 9], [5]] hlengths
  have hwire : wireBytes ([[7, 8, 9], [5]] : List (List UInt8)) =
      .ok (arrivedBytes sampleEvents) := by
    decide +kernel
  obtain rfl : arrivedBytes sampleEvents = bytes := Except.ok.inj (hwire.symm.trans hbytes)
  have hevents : ∀ e ∈ sampleEvents, Undisturbed e := by
    simp [sampleEvents, Undisturbed]
  have hwaits : Waits (reception sampleEvents) := by
    have hreads : (reception sampleEvents).handler.reads = [⟨4, .header⟩] := by decide +kernel
    have hunread : (reception sampleEvents).unread.length = 0 := by decide +kernel
    intro op hop
    rw [hreads] at hop
    cases hop
    rw [hunread]
    decide
  obtain ⟨_, _, hall⟩ := hreceived sampleEvents hevents List.prefix_rfl
  exact ⟨(hall rfl).1 hwaits, by decide +kernel⟩

end Azulejo
