import Azulejo.Interprocess.TcpConnection
import Azulejo.Properties.OutgoingFrames
import Azulejo.Properties.ReceivedStream

/-!
# Messages over a connection

As long as a connection holds, the bytes on their way are what the receiver is going to read: the
ones that have not arrived, the ones that the write under way still has to send, and the frames
that wait. A write that is started while another one has bytes to send would mix them. When the
connection is lost the receiver has a prefix of the messages.
-/

namespace Azulejo

open IConnectionHandler Transitions

/-! ## Unfinished writes -/

/-- The writes that have bytes to send. -/
def unfinished (unsent : List (List UInt8)) : Nat := unsent.countP fun bytes => !bytes.isEmpty

theorem flatten_of_unfinished {unsent : List (List UInt8)} (h : unfinished unsent = 0) :
    unsent.flatten = [] := by
  rw [List.flatten_eq_nil_iff]
  intro bytes hbytes
  have hnot := List.countP_eq_zero.mp h bytes hbytes
  simpa using hnot

theorem unfinished_eq_zero {unsent : List (List UInt8)} (h : ∀ bytes ∈ unsent, bytes = []) :
    unfinished unsent = 0 := by
  apply List.countP_eq_zero.mpr
  intro bytes hbytes
  rw [h bytes hbytes]
  decide

theorem unfinished_cons (bytes : List UInt8) (unsent : List (List UInt8)) :
    unfinished (bytes :: unsent) = unfinished unsent + if bytes = [] then 0 else 1 := by
  unfold unfinished
  rw [List.countP_cons]
  cases bytes <;> rfl

theorem unfinished_pos {unsent : List (List UInt8)} {i : Nat} {bytes : List UInt8}
    (hi : unsent[i]? = some bytes) (hbytes : bytes ≠ []) : 0 < unfinished unsent := by
  apply List.countP_pos_iff.mpr
  refine ⟨bytes, List.mem_of_getElem? hi, ?_⟩
  simpa using hbytes

/-- The bytes that are left are those of the only unfinished write. -/
theorem flatten_of_single {unsent : List (List UInt8)} (h : unfinished unsent ≤ 1) {i : Nat}
    {bytes : List UInt8} (hi : unsent[i]? = some bytes) (hbytes : bytes ≠ [])
    (left : List UInt8) :
    unsent.flatten = bytes ∧ (unsent.set i left).flatten = left ∧
      unfinished (unsent.set i left) ≤ 1 := by
  induction unsent generalizing i with
  | nil => cases hi
  | cons first rest ih =>
    rw [unfinished_cons] at h
    cases i with
    | zero =>
      obtain rfl : first = bytes := Option.some.inj hi
      rw [if_neg hbytes] at h
      have hrest : unfinished rest = 0 := by omega
      have hflat := flatten_of_unfinished hrest
      rw [List.set_cons_zero, List.flatten_cons, List.flatten_cons, hflat, unfinished_cons, hrest]
      refine ⟨List.append_nil _, List.append_nil _, ?_⟩
      split <;> decide
    | succ i =>
      rw [List.getElem?_cons_succ] at hi
      have hpos := unfinished_pos hi hbytes
      have hfirst : first = [] := by
        by_contra hne
        rw [if_neg hne] at h
        omega
      obtain ⟨hflat, hset, hle⟩ := ih (by omega) hi
      rw [List.set_cons_succ, List.flatten_cons, List.flatten_cons, hflat, hset, hfirst,
        unfinished_cons, if_pos rfl]
      exact ⟨rfl, rfl, hle⟩

theorem flatten_eraseIdx {unsent : List (List UInt8)} {i : Nat} (hi : unsent[i]? = some []) :
    (unsent.eraseIdx i).flatten = unsent.flatten := by
  induction unsent generalizing i with
  | nil => rfl
  | cons first rest ih =>
    cases i with
    | zero =>
      obtain rfl : first = [] := Option.some.inj hi
      rfl
    | succ i =>
      rw [List.getElem?_cons_succ] at hi
      rw [List.eraseIdx_cons_succ, List.flatten_cons, List.flatten_cons, ih hi]

theorem unfinished_eraseIdx (unsent : List (List UInt8)) (i : Nat) :
    unfinished (unsent.eraseIdx i) ≤ unfinished unsent :=
  (List.eraseIdx_sublist unsent i).countP_le

/-! ## More messages -/

theorem wrapWithHeader_char {message : List UInt8} (h : message.length ≤ BUFFER_SIZE) :
    wrapWithHeader message = .ok (frame message) := by
  have hlt : message.length < 10000 := lt_of_le_of_lt h (by decide)
  rw [wrapWithHeader_eq hlt]
  exact congrArg (fun header => Except.ok (header ++ message)) (List.map_id _)

theorem frame_ne_nil {message : List UInt8} (h : message.length ≤ BUFFER_SIZE) :
    frame message ≠ [] := by
  have hlength := length_frame h
  intro hnil
  rw [(List.append_eq_nil_iff.mp hnil).1] at hlength
  cases hlength

/-- The place with one more message to come. -/
def StreamPlace.extend (message : List UInt8) : StreamPlace → StreamPlace
  | header rest => header (rest ++ [message])
  | body first rest => body first (rest ++ [message])

theorem StreamPlace.op_extend (p : StreamPlace) (message : List UInt8) :
    (p.extend message).op = p.op := by
  cases p <;> rfl

theorem StreamPlace.coming_extend (p : StreamPlace) (message : List UInt8) :
    (p.extend message).coming = p.coming ++ [message] := by
  cases p <;> rfl

theorem StreamPlace.bytes_extend (p : StreamPlace) (message : List UInt8) :
    (p.extend message).bytes = p.bytes ++ frame message := by
  cases p <;>
    simp only [extend, bytes, stream, List.flatMap_append, List.flatMap_cons, List.flatMap_nil,
      List.append_nil, List.append_assoc]

/-- A message that is posted comes behind the others. -/
theorem atPlace_extend {messages : List (List UInt8)} {p : StreamPlace} {future : List UInt8}
    {s : Endpoint UInt8} (h : AtPlace messages p future s) (message : List UInt8) :
    AtPlace (messages ++ [message]) (p.extend message) (future ++ frame message) s := by
  refine ⟨h.thrown, h.buffer, ?_, ?_, ?_⟩
  · rw [h.reads, StreamPlace.op_extend]
  · rw [StreamPlace.coming_extend, ← List.append_assoc, h.messages]
  · rw [StreamPlace.bytes_extend, ← List.append_assoc, h.bytes]

theorem receivable_append {messages : List (List UInt8)} (h : Receivable messages)
    {message : List UInt8} (hmessage : 1 ≤ message.length ∧ message.length ≤ BUFFER_SIZE) :
    Receivable (messages ++ [message]) := by
  intro m hm
  rcases List.mem_append.mp hm with hm | hm
  · exact h m hm
  · rw [List.mem_singleton.mp hm]
    exact hmessage

/-! ## One direction -/

namespace IConnectionHandler.Link

/-- The bytes of the frames that no write was started for. -/
def waiting (link : Link) : List UInt8 :=
  (link.sender.starting ++ link.sender.outMessageQue).flatMap fun message =>
    memory message.elements

/-- The bytes on their way to the receiver. -/
def underWay (link : Link) : List UInt8 := link.wire ++ (link.unsent.flatten ++ link.waiting)

/-- No frame that was taken from the queue has bytes to send. -/
def Clear (link : Link) : Prop := link.sender.starting = [] ∧ ∀ bytes ∈ link.unsent, bytes = []

/-- The receiver can take the messages that are posted, and as long as the connection holds, no
frame is taken from the queue while one that was taken before has bytes to send. -/
def Orderly (lost : Bool) (link : Link) : LinkEvent → Prop
  | .write (.postOutgoingMessage message) => 1 ≤ message.length ∧ message.length ≤ BUFFER_SIZE
  | .write .sendMessageStart => lost = false → link.sender.outMessageQue ≠ [] → link.Clear
  | _ => True

instance decidableOrderly (lost : Bool) (link : Link) :
    (event : LinkEvent) → Decidable (link.Orderly lost event)
  | .write (.postOutgoingMessage message) =>
    inferInstanceAs (Decidable (1 ≤ message.length ∧ message.length ≤ BUFFER_SIZE))
  | .write .sendMessageStart =>
    inferInstanceAs (Decidable (lost = false → link.sender.outMessageQue ≠ [] →
      link.sender.starting = [] ∧ ∀ bytes ∈ link.unsent, bytes = []))
  | .write .post | .write (.asyncWrite _) | .write (.writeEnds _ _)
  | .write (.completionHandler _) | .send _ _ | .arrive _ | .readDone | .readFailed _
  | .getOneMessage => .isTrue trivial

/-- The connection holds, and the receiver is going to read what is on its way. -/
structure Flows (link : Link) : Prop where
  accounted : link.sender.Accounted
  lengths : Receivable link.posted
  single : link.sender.starting.length + unfinished link.unsent ≤ 1
  reader : ∃ place, AtPlace link.posted place link.underWay link.receiver

/-- The receiver's read has failed. -/
structure Stopped (link : Link) : Prop where
  thrown : link.receiver.thrown = none
  reads : link.receiver.handler.reads = []
  messages : link.received <+: link.posted

/-- Whether or not the connection holds, what arrives is what the receiver is going to read, if it
still reads. -/
structure Sound (link : Link) : Prop where
  lengths : Receivable link.posted
  reader : (∃ place rest, AtPlace link.posted place (link.wire ++ rest) link.receiver) ∨
    link.Stopped

/-- The receiver has a prefix of the messages, in their order, and nothing has been thrown. -/
structure InOrder (link : Link) : Prop where
  thrown : link.receiver.thrown = none
  messages : link.received <+: link.posted

theorem Flows.sound {link : Link} (h : link.Flows) : link.Sound := by
  obtain ⟨place, hplace⟩ := h.reader
  exact ⟨h.lengths, Or.inl ⟨place, _, hplace⟩⟩

theorem Sound.inOrder {link : Link} (h : link.Sound) : link.InOrder := by
  rcases h.reader with ⟨place, rest, hplace⟩ | hstopped
  · exact ⟨hplace.thrown, place.coming, hplace.messages⟩
  · exact ⟨hstopped.thrown, hstopped.messages⟩

theorem flows_new : new.Flows :=
  ⟨WriteSide.accounted_new, fun _ hm => absurd hm List.not_mem_nil, Nat.zero_le 1, _,
    atPlace_new []⟩

/-! ### The receiver -/

theorem atPlace_wire {messages : List (List UInt8)} {p : StreamPlace} {wire rest : List UInt8}
    {s : Endpoint UInt8} (h : AtPlace messages p (wire ++ rest) s) (n : Nat) :
    AtPlace messages p (wire.drop n ++ rest) (s.step (.arrive (wire.take n))) := by
  apply atPlace_arrive
  rwa [← List.append_assoc, List.take_append_drop]

theorem readable_iff {messages : List (List UInt8)} {p : StreamPlace} {future : List UInt8}
    {s : Endpoint UInt8} (h : AtPlace messages p future s) :
    s.readable = true ↔ p.op.bytesToRead ≤ s.unread.length := by
  unfold Endpoint.readable
  rw [h.reads]
  exact decide_eq_true_iff

/-- A read that fails before it has all its bytes is the last one. -/
theorem readFailed_stops {messages : List (List UInt8)} {p : StreamPlace} {future : List UInt8}
    {s : Endpoint UInt8} (h : AtPlace messages p future s) (n : Nat) :
    s.step (.readFailed n) = s ∨
      (s.step (.readFailed n)).thrown = none ∧ (s.step (.readFailed n)).handler.reads = [] ∧
        (s.step (.readFailed n)).taken ++ (s.step (.readFailed n)).handler.inMessageQue <+:
          messages := by
  by_cases hn : n < p.op.bytesToRead ∧ n ≤ s.unread.length
  · right
    have hstep : s.step (.readFailed n) =
        { s with
          handler := { s.handler with
            inMessage := s.unread.take n ++ s.handler.inMessage.drop n
            reads := [] }
          unread := s.unread.drop n } := by
      unfold Endpoint.step
      rw [if_neg (by rw [h.thrown]; exact Bool.false_ne_true)]
      simp only [h.reads, if_pos hn]
      cases p <;> rfl
    rw [hstep]
    exact ⟨h.thrown, rfl, p.coming, h.messages⟩
  · left
    unfold Endpoint.step
    simp only [h.thrown, Option.isSome_none, Bool.false_eq_true, if_false, h.reads, if_neg hn]

/-- An endpoint without a read only gives its messages to the application. -/
theorem step_without_read {s : Endpoint UInt8} (hthrown : s.thrown = none)
    (hreads : s.handler.reads = []) {event : ReadEvent} (hevent : event ≠ .postReceiveMessages) :
    (s.step event).thrown = none ∧ (s.step event).handler.reads = [] ∧
      (s.step event).taken ++ (s.step event).handler.inMessageQue =
        s.taken ++ s.handler.inMessageQue := by
  cases event with
  | arrive bytes =>
    unfold Endpoint.step
    simp only [hthrown, Option.isSome_none, Bool.false_eq_true, if_false, hreads, true_and]
  | readDone =>
    unfold Endpoint.step
    simp only [hthrown, Option.isSome_none, Bool.false_eq_true, if_false, hreads, true_and]
  | readFailed n =>
    unfold Endpoint.step
    simp only [hthrown, Option.isSome_none, Bool.false_eq_true, if_false, hreads, true_and]
  | postReceiveMessages => exact absurd rfl hevent
  | getOneMessage =>
    cases hqueue : s.handler.inMessageQue with
    | nil =>
      rw [getOneMessage_waits hqueue, hqueue]
      exact ⟨hthrown, hreads, rfl⟩
    | cons message rest =>
      rw [getOneMessage_takes hthrown hqueue]
      exact ⟨hthrown, hreads, List.append_cons _ _ _ |>.symm⟩

/-! ### The sender -/

/-- A message that is posted is the last one to come. -/
theorem flows_post {link : Link} (h : link.Flows) {message : List UInt8}
    (hmessage : 1 ≤ message.length ∧ message.length ≤ BUFFER_SIZE) :
    (link.write (.postOutgoingMessage message)).Flows := by
  have hframe := wrapWithHeader_char hmessage.2
  have hwrite : link.write (.postOutgoingMessage message) =
      { link with
        sender := link.sender.push (frame message)
        posted := link.posted ++ [message] } := by
    simp only [write, WriteSide.step, unsentAfter, postedAfter, hframe]
  rw [hwrite]
  obtain ⟨place, hplace⟩ := h.reader
  refine ⟨WriteSide.accounted_push h.accounted _, receivable_append h.lengths hmessage, h.single,
    place.extend message, ?_⟩
  have hunderWay : underWay { link with
        sender := link.sender.push (frame message)
        posted := link.posted ++ [message] } = link.underWay ++ frame message := by
    simp only [underWay, waiting, WriteSide.push, List.flatMap_append, List.flatMap_cons,
      List.flatMap_nil, List.append_nil, memory_char, List.append_assoc]
  rw [hunderWay]
  exact atPlace_extend hplace message

/-- A call that takes a frame finds no other with bytes to send. -/
theorem flows_sendMessageStart {link : Link} (h : link.Flows)
    (hok : link.sender.outMessageQue ≠ [] → link.Clear) :
    (link.write .sendMessageStart).Flows := by
  have haccounted := WriteSide.accounted_step link.sender .sendMessageStart h.accounted
  cases hscheduled : link.sender.scheduled with
  | zero =>
    have hsame : link.write .sendMessageStart = link := by
      simp only [write, WriteSide.step, hscheduled, unsentAfter, postedAfter]
    rw [hsame]
    exact h
  | succ scheduled =>
    cases hqueue : link.sender.outMessageQue with
    | nil =>
      have hwrite : link.write .sendMessageStart =
          { link with sender := { link.sender with scheduled := scheduled } } := by
        simp only [write, WriteSide.step, WriteSide.sendMessageStart, hscheduled, hqueue,
          unsentAfter, postedAfter]
      have hsender := congrArg Link.sender hwrite
      rw [hwrite]
      exact ⟨hsender ▸ haccounted, h.lengths, h.single, h.reader⟩
    | cons message rest =>
      obtain ⟨hstarting, hclear⟩ := hok (by rw [hqueue]; exact List.cons_ne_nil _ _)
      have hwrite : link.write .sendMessageStart =
          { link with
            sender := { link.sender with
              scheduled := scheduled
              outMessageQue := rest
              starting := [message] } } := by
        simp only [write, WriteSide.step, WriteSide.sendMessageStart, hscheduled, hqueue,
          hstarting, List.nil_append, unsentAfter, postedAfter]
      have hsender := congrArg Link.sender hwrite
      rw [hwrite]
      refine ⟨hsender ▸ haccounted, h.lengths, ?_, ?_⟩
      · show 1 + unfinished link.unsent ≤ 1
        rw [unfinished_eq_zero hclear]
      · obtain ⟨place, hplace⟩ := h.reader
        refine ⟨place, ?_⟩
        have hunderWay := hplace
        unfold underWay waiting at hunderWay
        rw [hstarting, hqueue] at hunderWay
        exact hunderWay

/-- The frame that is passed to `AsyncWrite` is the only one with bytes to send. -/
theorem flows_asyncWrite {link : Link} (h : link.Flows) {i : Nat}
    (hi : i < link.sender.starting.length) : (link.write (.asyncWrite i)).Flows := by
  have haccounted := WriteSide.accounted_step link.sender (.asyncWrite i) h.accounted
  have hsingle := h.single
  have hlength : link.sender.starting.length = 1 := by omega
  obtain ⟨message, hstarting⟩ := List.length_eq_one_iff.mp hlength
  have hi0 : i = 0 := by omega
  have hnone : unfinished link.unsent = 0 := by omega
  have hwrite : link.write (.asyncWrite i) =
      { link with
        sender := { link.sender with
          starting := []
          inFlight := link.sender.inFlight ++ [message]
          written := link.sender.written ++ [message] }
        unsent := link.unsent ++ [memory message.elements] } := by
    simp only [write, WriteSide.step, unsentAfter, postedAfter, hi0, hstarting,
      List.getElem?_cons_zero, List.eraseIdx_cons_zero]
  have hsender := congrArg Link.sender hwrite
  rw [hwrite]
  refine ⟨hsender ▸ haccounted, h.lengths, ?_, ?_⟩
  · have hcount : unfinished (link.unsent ++ [memory message.elements]) =
        unfinished link.unsent + unfinished [memory message.elements] := List.countP_append
    have hone : unfinished [memory message.elements] ≤ 1 := List.countP_le_length
    show 0 + unfinished (link.unsent ++ [memory message.elements]) ≤ 1
    omega
  · obtain ⟨place, hplace⟩ := h.reader
    refine ⟨place, ?_⟩
    have hunderWay : link.underWay = underWay { link with
        sender := { link.sender with
          starting := []
          inFlight := link.sender.inFlight ++ [message]
          written := link.sender.written ++ [message] }
        unsent := link.unsent ++ [memory message.elements] } := by
      simp only [underWay, waiting, hstarting, flatten_of_unfinished hnone, List.flatten_append,
        List.flatten_cons, List.flatten_nil, List.nil_append, List.cons_append, List.append_nil,
        List.flatMap_cons]
    rw [← hunderWay]
    exact hplace

/-- A write that ends has sent all its bytes. -/
theorem flows_writeEnds {link : Link} (h : link.Flows) {i : Nat}
    (hi : link.unsent[i]? = some []) : (link.write (.writeEnds i false)).Flows := by
  have haccounted := WriteSide.accounted_step link.sender (.writeEnds i false) h.accounted
  have hsame : (link.sender.step (.writeEnds i false)).starting = link.sender.starting ∧
      (link.sender.step (.writeEnds i false)).outMessageQue = link.sender.outMessageQue := by
    simp only [WriteSide.step]
    cases link.sender.inFlight[i]? <;> exact ⟨rfl, rfl⟩
  have hcount := unfinished_eraseIdx link.unsent i
  have hsingle := h.single
  obtain ⟨place, hplace⟩ := h.reader
  refine ⟨haccounted, h.lengths, ?_, place, ?_⟩
  · simp only [write, hsame.1, unsentAfter]
    omega
  · have hunderWay : (link.write (.writeEnds i false)).underWay = link.underWay := by
      simp only [underWay, waiting, write, hsame.1, hsame.2, unsentAfter, flatten_eraseIdx hi]
    rw [hunderWay]
    exact hplace

/-- An event that leaves the frames where they are. -/
theorem flows_kept {link : Link} (h : link.Flows) {event : WriteEvent UInt8}
    (hunsent : link.unsentAfter event = link.unsent)
    (hposted : link.postedAfter event = link.posted)
    (hsender : (link.sender.step event).starting = link.sender.starting ∧
      (link.sender.step event).outMessageQue = link.sender.outMessageQue) :
    (link.write event).Flows := by
  have haccounted := WriteSide.accounted_step link.sender event h.accounted
  obtain ⟨hstarting, hqueue⟩ := hsender
  refine ⟨haccounted, ?_, ?_, ?_⟩
  · simpa only [write, hposted] using h.lengths
  · simpa only [write, hunsent, hstarting] using h.single
  · simpa only [write, underWay, waiting, hunsent, hposted, hstarting, hqueue] using h.reader

/-- What a thread of the sender does, while the connection holds. -/
theorem flows_write {link : Link} {event : WriteEvent UInt8} (h : link.Flows)
    (hallows : link.allows false event = true) (hok : link.Orderly false (.write event)) :
    (link.write event).Flows := by
  cases event with
  | postOutgoingMessage message => exact flows_post h hok
  | post =>
    apply flows_kept h rfl rfl
    simp only [WriteSide.step]
    cases link.sender.posting <;> exact ⟨rfl, rfl⟩
  | sendMessageStart => exact flows_sendMessageStart h (hok rfl)
  | asyncWrite i => exact flows_asyncWrite h (of_decide_eq_true hallows)
  | writeEnds i error =>
    cases error with
    | true => exact absurd hallows Bool.false_ne_true
    | false => exact flows_writeEnds h (of_decide_eq_true hallows)
  | completionHandler i =>
    apply flows_kept h rfl rfl
    simp only [WriteSide.step, WriteSide.sendMessageDone]
    cases link.sender.completions[i]? with
    | none => exact ⟨rfl, rfl⟩
    | some error =>
      constructor
      · rw [apply_ite WriteSide.starting, apply_ite WriteSide.starting, ite_self, ite_self]
      · rw [apply_ite WriteSide.outMessageQue, apply_ite WriteSide.outMessageQue, ite_self,
          ite_self]

/-- The bytes that are sent are those of the only write with bytes to send. -/
theorem flows_send {link : Link} (h : link.Flows) {i n : Nat} {bytes : List UInt8}
    (hi : link.unsent[i]? = some bytes) (hn : 0 < n ∧ n ≤ bytes.length) :
    Flows { link with
      unsent := link.unsent.set i (bytes.drop n)
      wire := link.wire ++ bytes.take n } := by
  have hbytes : bytes ≠ [] := by
    rintro rfl
    have hzero : n ≤ 0 := hn.2
    omega
  have hpos := unfinished_pos hi hbytes
  have hsingle := h.single
  obtain ⟨hflat, hset, hle⟩ := flatten_of_single (by omega) hi hbytes (bytes.drop n)
  obtain ⟨place, hplace⟩ := h.reader
  refine ⟨h.accounted, h.lengths, ?_, place, ?_⟩
  · show link.sender.starting.length + unfinished (link.unsent.set i (bytes.drop n)) ≤ 1
    omega
  · have hunderWay : underWay { link with
        unsent := link.unsent.set i (bytes.drop n)
        wire := link.wire ++ bytes.take n } = link.underWay := by
      simp only [underWay, waiting, hset, hflat, List.append_assoc]
      rw [← List.append_assoc (bytes.take n), List.take_append_drop]
    rw [hunderWay]
    exact hplace

/-! ### One event -/

theorem flows_step {link link' : Link} {event : LinkEvent} (h : link.Flows)
    (hok : link.Orderly false event) (hstep : link.step false event = some link') :
    link'.Flows := by
  obtain ⟨place, hplace⟩ := h.reader
  cases event with
  | write event =>
    simp only [step, Option.ite_none_right_eq_some, Option.some.injEq] at hstep
    obtain ⟨hallows, rfl⟩ := hstep
    exact flows_write h hallows hok
  | send i n =>
    simp only [step] at hstep
    cases hi : link.unsent[i]? with
    | none => simp only [hi, reduceCtorEq] at hstep
    | some bytes =>
      simp only [hi, Option.ite_none_right_eq_some, Option.some.injEq, Bool.false_eq_true,
        if_false] at hstep
      obtain ⟨hn, rfl⟩ := hstep
      exact flows_send h hi hn
  | arrive n =>
    simp only [step, Option.ite_none_right_eq_some, Option.some.injEq] at hstep
    obtain ⟨-, rfl⟩ := hstep
    exact ⟨h.accounted, h.lengths, h.single, place, atPlace_wire hplace n⟩
  | readDone =>
    simp only [step, Option.ite_none_right_eq_some, Option.some.injEq] at hstep
    obtain ⟨hreadable, rfl⟩ := hstep
    exact ⟨h.accounted, h.lengths, h.single, place.next,
      atPlace_readDone h.lengths hplace ((readable_iff hplace).mp hreadable)⟩
  | readFailed n => simp only [step, Bool.false_eq_true, if_false, reduceCtorEq] at hstep
  | getOneMessage =>
    simp only [step, Option.some.injEq] at hstep
    obtain rfl := hstep
    exact ⟨h.accounted, h.lengths, h.single, place, atPlace_getOneMessage hplace⟩

theorem sound_write {link : Link} {event : WriteEvent UInt8} (h : link.Sound)
    (hok : link.Orderly true (.write event)) : (link.write event).Sound := by
  have hkept : ∀ event', link.postedAfter event' = link.posted → (link.write event').Sound := by
    intro event' hposted
    refine ⟨?_, h.reader.imp ?_ fun hstopped => ?_⟩
    · simpa only [write, hposted] using h.lengths
    · simp only [write, hposted, imp_self]
    · exact ⟨hstopped.thrown, hstopped.reads, by
        simpa only [write, received, hposted] using hstopped.messages⟩
  cases event with
  | postOutgoingMessage message =>
    have hposted : link.postedAfter (.postOutgoingMessage message) = link.posted ++ [message] := by
      simp only [postedAfter, wrapWithHeader_char hok.2]
    refine ⟨?_, ?_⟩
    · simpa only [write, hposted] using receivable_append h.lengths hok
    · rcases h.reader with ⟨place, rest, hplace⟩ | hstopped
      · left
        refine ⟨place.extend message, rest ++ frame message, ?_⟩
        have hextended := atPlace_extend hplace message
        rw [List.append_assoc] at hextended
        simpa only [write, hposted] using hextended
      · right
        refine ⟨hstopped.thrown, hstopped.reads, ?_⟩
        have hmore := hstopped.messages.trans (List.prefix_append link.posted [message])
        simpa only [write, received, hposted] using hmore
  | _ => exact hkept _ rfl

theorem Stopped.read {link : Link} (h : link.Stopped) {event : ReadEvent}
    (hevent : event ≠ .postReceiveMessages) (wire : List UInt8) :
    Stopped { link with wire := wire, receiver := link.receiver.step event } := by
  obtain ⟨hthrown, hreads, hmessages⟩ := step_without_read h.thrown h.reads hevent
  exact ⟨hthrown, hreads, by simpa only [received, hmessages] using h.messages⟩

/-- What can happen when the connection is lost. -/
theorem sound_step {link link' : Link} {event : LinkEvent} (h : link.Sound)
    (hok : link.Orderly true event) (hstep : link.step true event = some link') :
    link'.Sound := by
  cases event with
  | write event =>
    simp only [step, Option.ite_none_right_eq_some, Option.some.injEq] at hstep
    obtain ⟨-, rfl⟩ := hstep
    exact sound_write h hok
  | send i n =>
    simp only [step] at hstep
    cases hi : link.unsent[i]? with
    | none => simp only [hi, reduceCtorEq] at hstep
    | some bytes =>
      simp only [hi, Option.ite_none_right_eq_some, Option.some.injEq, if_true] at hstep
      obtain ⟨-, rfl⟩ := hstep
      exact ⟨h.lengths, h.reader.imp id fun hs => ⟨hs.thrown, hs.reads, hs.messages⟩⟩
  | arrive n =>
    simp only [step, Option.ite_none_right_eq_some, Option.some.injEq] at hstep
    obtain ⟨-, rfl⟩ := hstep
    refine ⟨h.lengths, ?_⟩
    rcases h.reader with ⟨place, rest, hplace⟩ | hstopped
    · exact Or.inl ⟨place, rest, atPlace_wire hplace n⟩
    · exact Or.inr (hstopped.read (by simp) _)
  | readDone =>
    simp only [step, Option.ite_none_right_eq_some, Option.some.injEq] at hstep
    obtain ⟨hreadable, rfl⟩ := hstep
    refine ⟨h.lengths, ?_⟩
    rcases h.reader with ⟨place, rest, hplace⟩ | hstopped
    · exact Or.inl ⟨place.next, rest,
        atPlace_readDone h.lengths hplace ((readable_iff hplace).mp hreadable)⟩
    · exact Or.inr (hstopped.read (by simp) _)
  | readFailed n =>
    simp only [step, if_true, Option.some.injEq] at hstep
    obtain rfl := hstep
    refine ⟨h.lengths, ?_⟩
    rcases h.reader with ⟨place, rest, hplace⟩ | hstopped
    · rcases readFailed_stops hplace n with hsame | ⟨hthrown, hreads, hmessages⟩
      · exact Or.inl ⟨place, rest, by simpa only [hsame] using hplace⟩
      · exact Or.inr ⟨hthrown, hreads, hmessages⟩
    · exact Or.inr (hstopped.read (by simp) _)
  | getOneMessage =>
    simp only [step, Option.some.injEq] at hstep
    obtain rfl := hstep
    refine ⟨h.lengths, ?_⟩
    rcases h.reader with ⟨place, rest, hplace⟩ | hstopped
    · exact Or.inl ⟨place, rest, atPlace_getOneMessage hplace⟩
    · exact Or.inr (hstopped.read (by simp) _)

/-- The direction while the connection holds, and after it is lost. -/
def Regular (link : Link) : Bool → Prop
  | false => link.Flows
  | true => link.Sound

theorem Regular.sound {link : Link} {lost : Bool} (h : link.Regular lost) : link.Sound := by
  cases lost with
  | false => exact Flows.sound h
  | true => exact h

theorem regular_step {lost : Bool} {link link' : Link} {event : LinkEvent}
    (h : link.Regular lost) (hok : link.Orderly lost event)
    (hstep : link.step lost event = some link') : link'.Regular lost := by
  cases lost with
  | false => exact flows_step h hok hstep
  | true => exact sound_step h hok hstep

end IConnectionHandler.Link

/-! ## The connection -/

namespace IConnectionHandler.TcpConnection

/-- Both directions are orderly. -/
def Orderly (c : TcpConnection) : ConnectionEvent → Prop
  | .forward event => c.forward.Orderly c.lost event
  | .backward event => c.backward.Orderly c.lost event
  | _ => True

instance decidableOrderly (c : TcpConnection) :
    (event : ConnectionEvent) → Decidable (c.Orderly event)
  | .forward event => inferInstanceAs (Decidable (c.forward.Orderly c.lost event))
  | .backward event => inferInstanceAs (Decidable (c.backward.Orderly c.lost event))
  | .close | .socketClose | .networkFails => .isTrue trivial

/-- Both directions are regular. -/
def Regular (c : TcpConnection) : Prop := c.forward.Regular c.lost ∧ c.backward.Regular c.lost

theorem regular_new : new.Regular := ⟨Link.flows_new, Link.flows_new⟩

theorem Regular.lose {c : TcpConnection} (h : c.Regular) (closing : Nat) :
    Regular { c with closing := closing, lost := true } :=
  ⟨h.1.sound, h.2.sound⟩

theorem regular_step (c : TcpConnection) (event : ConnectionEvent) (c' : TcpConnection)
    (h : c.Regular) (hok : c.Orderly event) (hstep : c.step event = some c') : c'.Regular := by
  cases event with
  | forward event =>
    obtain ⟨link, hlink, rfl⟩ := Option.map_eq_some_iff.mp hstep
    exact ⟨Link.regular_step h.1 hok hlink, h.2⟩
  | backward event =>
    obtain ⟨link, hlink, rfl⟩ := Option.map_eq_some_iff.mp hstep
    exact ⟨h.1, Link.regular_step h.2 hok hlink⟩
  | close =>
    obtain rfl := Option.some.inj hstep
    exact h
  | socketClose =>
    simp only [step] at hstep
    cases hclosing : c.closing with
    | zero => simp only [hclosing, reduceCtorEq] at hstep
    | succ closing =>
      simp only [hclosing, Option.some.injEq] at hstep
      obtain rfl := hstep
      exact h.lose closing
  | networkFails =>
    obtain rfl := Option.some.inj hstep
    exact h.lose c.closing

theorem regular_after {events : List ConnectionEvent} {c : TcpConnection}
    (h : after step new events = some c) (horderly : Along step Orderly new events) : c.Regular :=
  invariant Regular regular_step regular_new horderly h

end IConnectionHandler.TcpConnection

open IConnectionHandler.TcpConnection in
/-- At any moment of an orderly run, whatever the threads of both handlers, the network and the
calls of `Close` do, each of the two applications has, or has queued, a prefix of what the other
one posted. -/
theorem received_in_order {events : List ConnectionEvent} {c : TcpConnection}
    (h : after step new events = some c) (horderly : Along step Orderly new events) :
    c.forward.InOrder ∧ c.backward.InOrder :=
  have hregular := regular_after h horderly
  ⟨hregular.1.sound.inOrder, hregular.2.sound.inOrder⟩

/-- One message is received; the socket is closed when a part of the next has been sent. -/
def interrupted : List ConnectionEvent :=
  ([.write (.postOutgoingMessage [5]), .write .post, .write .sendMessageStart,
      .write (.asyncWrite 0), .send 0 5, .write (.postOutgoingMessage [7, 8]), .arrive 5, .readDone,
      .write .post, .write .sendMessageStart, .write (.asyncWrite 0), .readDone,
      .send 1 3].map .forward) ++
    [.close, .socketClose, .forward (.arrive 3), .forward (.readFailed 3), .forward .getOneMessage]

theorem received_in_order_interrupted :
    ∃ c, after TcpConnection.step TcpConnection.new interrupted = some c ∧
      c.forward.posted = [[5], [7, 8]] ∧ c.forward.received = [[5]] ∧
      c.forward.InOrder ∧ c.backward.InOrder := by
  have hruns : (after TcpConnection.step TcpConnection.new interrupted).isSome = true := by
    decide +kernel
  obtain ⟨c, hc⟩ := Option.isSome_iff_exists.mp hruns
  have hshows : (after TcpConnection.step TcpConnection.new interrupted).map
      (fun c => (c.forward.posted, c.forward.received)) = some ([[5], [7, 8]], [[5]]) := by
    decide +kernel
  rw [hc, Option.map_some, Option.some.injEq, Prod.mk.injEq] at hshows
  exact ⟨c, hc, hshows.1, hshows.2, received_in_order hc (by decide +kernel)⟩

end Azulejo
