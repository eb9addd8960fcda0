import Azulejo.Properties.MessageDelivery

/-!
# Conversations

While a connection holds, its threads come to an end of their work in a bounded number of steps,
and what was posted has then been received. Two applications that take turns, where the one
posts a request when it has taken the answers to the ones before, and the other one answer for a
request it has taken, never have two writes with bytes to send at a time.
-/

namespace Azulejo

open IConnectionHandler Transitions

/-! ## Work -/

namespace IConnectionHandler

/-- What has to be done until the messages that are posted are received. -/
def LinkEvent.Progress : LinkEvent → Prop
  | .write (.postOutgoingMessage _) | .write (.writeEnds _ true) | .readFailed _
  | .getOneMessage => False
  | _ => True

namespace Link

/-- How much work is left in the direction. -/
def work (link : Link) : Nat :=
  2 * link.sender.posting + link.sender.scheduled + 4 * link.sender.outMessageQue.length +
    4 * link.sender.starting.length + 3 * link.unsent.length +
    2 * link.sender.completions.length +
    3 * (link.unsent.flatten.length + link.waiting.length) + 2 * link.wire.length +
    link.receiver.unread.length

theorem length_flatten_set {unsent : List (List UInt8)} {i : Nat} {bytes : List UInt8}
    (hi : unsent[i]? = some bytes) {n : Nat} (hn : n ≤ bytes.length) :
    (unsent.set i (bytes.drop n)).flatten.length + n = unsent.flatten.length := by
  induction unsent generalizing i with
  | nil => cases hi
  | cons first rest ih =>
    cases i with
    | zero =>
      obtain rfl : first = bytes := Option.some.inj hi
      rw [List.set_cons_zero, List.flatten_cons, List.flatten_cons, List.length_append,
        List.length_append, List.length_drop]
      omega
    | succ i =>
      rw [List.getElem?_cons_succ] at hi
      rw [List.set_cons_succ, List.flatten_cons, List.flatten_cons, List.length_append,
        List.length_append, ← ih hi]
      omega

theorem length_waiting (link : Link) :
    link.waiting.length =
      (link.sender.starting.flatMap fun message => memory message.elements).length +
        (link.sender.outMessageQue.flatMap fun message => memory message.elements).length := by
  rw [waiting, List.flatMap_append, List.length_append]

theorem unread_complete (s : Endpoint UInt8) (op : AsyncReadOp) (reads : List AsyncReadOp)
    (error : Bool) (n : Nat) : (s.complete op reads error n).unread = s.unread.drop n := by
  simp only [Endpoint.complete]
  split <;> rfl

theorem bytesToRead_pos {messages : List (List UInt8)} (hmessages : Receivable messages)
    {p : StreamPlace} {future : List UInt8} {s : Endpoint UInt8}
    (h : AtPlace messages p future s) : 0 < p.op.bytesToRead := by
  cases p with
  | header rest => exact Nat.zero_lt_succ 3
  | body message rest =>
    have hmem : message ∈ messages := by
      rw [← h.messages]
      exact List.mem_append_right _ List.mem_cons_self
    exact (hmessages message hmem).1

/-- A thread of the sender that goes on leaves less to do. -/
theorem work_write {link : Link} {event : WriteEvent UInt8}
    (hprogress : LinkEvent.Progress (.write event)) (hallows : link.allows false event = true) :
    (link.write event).work < link.work := by
  cases event with
  | postOutgoingMessage message => exact hprogress.elim
  | post =>
    have hposting : 0 < link.sender.posting := of_decide_eq_true hallows
    obtain ⟨posting, hposting⟩ := Nat.exists_eq_add_one.mpr hposting
    simp only [work, waiting, write, WriteSide.step, hposting, unsentAfter]
    omega
  | sendMessageStart =>
    have hscheduled : 0 < link.sender.scheduled := of_decide_eq_true hallows
    obtain ⟨scheduled, hscheduled⟩ := Nat.exists_eq_add_one.mpr hscheduled
    cases hqueue : link.sender.outMessageQue with
    | nil =>
      simp only [work, waiting, write, WriteSide.step, WriteSide.sendMessageStart, hscheduled,
        hqueue, unsentAfter]
      omega
    | cons message rest =>
      simp only [work, waiting, write, WriteSide.step, WriteSide.sendMessageStart, hscheduled,
        hqueue, unsentAfter, List.length_cons, List.length_append, List.length_nil,
        List.append_assoc, List.cons_append, List.nil_append]
      omega
  | asyncWrite i =>
    have hi : i < link.sender.starting.length := of_decide_eq_true hallows
    have hmessage := List.getElem?_eq_getElem hi
    have hperm := List.getElem_cons_eraseIdx_perm hi
    have hbytes := (hperm.flatMap_right fun message : OutFrame UInt8 =>
      memory message.elements).length_eq
    have hlength := List.length_eraseIdx_of_lt hi
    simp only [List.flatMap_cons, List.length_append] at hbytes
    simp only [work, length_waiting, write, WriteSide.step, hmessage, unsentAfter,
      List.length_append, List.length_cons, List.length_nil, List.flatten_append,
      List.flatten_cons, List.flatten_nil, List.append_nil, hlength]
    omega
  | writeEnds i error =>
    cases error with
    | true => exact hprogress.elim
    | false =>
      have hi : link.unsent[i]? = some [] := of_decide_eq_true hallows
      obtain ⟨hlt, -⟩ := List.getElem?_eq_some_iff.mp hi
      have hlength := List.length_eraseIdx_of_lt hlt
      simp only [work, waiting, write, WriteSide.step, unsentAfter, flatten_eraseIdx hi, hlength]
      cases link.sender.inFlight[i]? with
      | none =>
        simp only []
        omega
      | some message =>
        simp only [List.length_append, List.length_cons, List.length_nil]
        omega
  | completionHandler i =>
    have hi : i < link.sender.completions.length := of_decide_eq_true hallows
    have hlength := List.length_eraseIdx_of_lt hi
    simp only [work, waiting, write, WriteSide.step, List.getElem?_eq_getElem hi, unsentAfter,
      WriteSide.sendMessageDone]
    cases link.sender.completions[i] with
    | true =>
      simp only [if_true, hlength]
      omega
    | false =>
      simp only [Bool.false_eq_true, if_false]
      split
      · simp only [hlength]
        omega
      · simp only [hlength]
        omega

/-- Every step towards the receiver leaves less to do. -/
theorem work_step {link link' : Link} {event : LinkEvent} (h : link.Flows)
    (hprogress : event.Progress) (hstep : link.step false event = some link') :
    link'.work < link.work := by
  obtain ⟨place, hplace⟩ := h.reader
  cases event with
  | write event =>
    simp only [step, Option.ite_none_right_eq_some, Option.some.injEq] at hstep
    obtain ⟨hallows, rfl⟩ := hstep
    exact work_write hprogress hallows
  | send i n =>
    simp only [step] at hstep
    cases hi : link.unsent[i]? with
    | none => simp only [hi, reduceCtorEq] at hstep
    | some bytes =>
      simp only [hi, Option.ite_none_right_eq_some, Option.some.injEq, Bool.false_eq_true,
        if_false] at hstep
      obtain ⟨⟨hpos, hn⟩, rfl⟩ := hstep
      have hflat := length_flatten_set hi hn
      simp only [work, waiting, List.length_set, List.length_append, List.length_take]
      omega
  | arrive n =>
    simp only [step, Option.ite_none_right_eq_some, Option.some.injEq] at hstep
    obtain ⟨⟨hpos, hn⟩, rfl⟩ := hstep
    have hread : (link.receiver.step (.arrive (link.wire.take n))).unread =
        link.receiver.unread ++ link.wire.take n := by
      unfold Endpoint.step
      simp only [hplace.thrown, Option.isSome_none, Bool.false_eq_true, if_false]
    simp only [work, waiting, hread, List.length_append, List.length_take, List.length_drop]
    omega
  | readDone =>
    simp only [step, Option.ite_none_right_eq_some, Option.some.injEq] at hstep
    obtain ⟨hreadable, rfl⟩ := hstep
    have harrived := (readable_iff hplace).mp hreadable
    have hpos := bytesToRead_pos h.lengths hplace
    have hread : (link.receiver.step .readDone).unread =
        link.receiver.unread.drop place.op.bytesToRead := by
      unfold Endpoint.step
      simp only [hplace.thrown, Option.isSome_none, Bool.false_eq_true, if_false, hplace.reads,
        if_pos harrived]
      exact unread_complete _ _ _ _ _
    simp only [work, waiting, hread, List.length_drop]
    omega
  | readFailed n => exact hprogress.elim
  | getOneMessage => exact hprogress.elim

/-- Nothing that leads towards the receiver can happen. -/
def Quiet (link : Link) : Prop :=
  ∀ event : LinkEvent, event.Progress → link.Orderly false event → link.step false event = none

theorem not_quiet_write {link : Link} (h : link.Quiet) (event : WriteEvent UInt8)
    (hprogress : LinkEvent.Progress (.write event)) (hok : link.Orderly false (.write event)) :
    link.allows false event = false := by
  by_contra hallows
  have hnone := h (.write event) hprogress hok
  rw [step, if_pos (Bool.eq_true_of_not_eq_false hallows)] at hnone
  cases hnone

/-- The writes of a quiet direction have ended. -/
theorem Quiet.unsent {link : Link} (h : link.Quiet) : link.unsent = [] := by
  cases hunsent : link.unsent with
  | nil => rfl
  | cons bytes rest =>
    have hfirst : link.unsent[0]? = some bytes := by rw [hunsent, List.getElem?_cons_zero]
    cases bytes with
    | nil =>
      have hnot := not_quiet_write h (.writeEnds 0 false) trivial trivial
      simp only [allows, hfirst, decide_true, Bool.true_eq_false] at hnot
    | cons byte bytes =>
      have hnot := h (.send 0 1) trivial trivial
      have hsome : 0 < 1 ∧ 1 ≤ (byte :: bytes).length := ⟨Nat.one_pos, Nat.succ_pos _⟩
      simp only [step, hfirst, if_pos hsome, reduceCtorEq] at hnot

/-- A quiet direction has received all that was posted. -/
theorem received_of_quiet {link : Link} (h : link.Flows) (hquiet : link.Quiet) :
    link.received = link.posted := by
  have hunsent := hquiet.unsent
  have hstarting : link.sender.starting = [] := by
    have hnot := not_quiet_write hquiet (.asyncWrite 0) trivial trivial
    exact List.length_eq_zero_iff.mp (Nat.eq_zero_of_not_pos (of_decide_eq_false hnot))
  have hclear : link.Clear := by
    refine ⟨hstarting, fun bytes hbytes => ?_⟩
    rw [hunsent] at hbytes
    cases hbytes
  have hposting := of_decide_eq_false
    (not_quiet_write hquiet .post trivial trivial)
  have hscheduled := of_decide_eq_false
    (not_quiet_write hquiet .sendMessageStart trivial fun _ _ => hclear)
  have hqueue : link.sender.outMessageQue = [] := by
    have hdue := h.accounted.due
    exact List.length_eq_zero_iff.mp (by omega)
  have hwire : link.wire = [] := by
    cases hwire : link.wire with
    | nil => rfl
    | cons byte bytes =>
      have hnot := hquiet (.arrive 1) trivial trivial
      have hsome : 0 < 1 ∧ 1 ≤ (byte :: bytes).length := ⟨Nat.one_pos, Nat.succ_pos _⟩
      simp only [step, hwire, if_pos hsome, reduceCtorEq] at hnot
  obtain ⟨place, hplace⟩ := h.reader
  have hnothing : link.underWay = [] := by
    simp only [underWay, waiting, hwire, hunsent, hstarting, hqueue, List.flatten_nil,
      List.append_nil, List.flatMap_nil]
  rw [hnothing] at hplace
  have hwaits : Waits link.receiver := by
    intro op hop
    have hreadDone := hquiet .readDone trivial trivial
    rw [step, ite_eq_right_iff] at hreadDone
    have hnot : ¬ link.receiver.readable = true := fun hreadable => by
      cases hreadDone hreadable
    rw [readable_iff hplace, Nat.not_le] at hnot
    rw [hplace.reads] at hop
    obtain rfl := Option.mem_some_iff.mp hop
    exact hnot
  exact (receivedAll_of_waits h.lengths hplace hwaits).messages

theorem posted_step {lost : Bool} {link link' : Link} {event : LinkEvent}
    (hevent : ∀ message, event ≠ .write (.postOutgoingMessage message))
    (hstep : link.step lost event = some link') : link'.posted = link.posted := by
  cases event with
  | write event =>
    simp only [step, Option.ite_none_right_eq_some, Option.some.injEq] at hstep
    obtain ⟨-, rfl⟩ := hstep
    cases event with
    | postOutgoingMessage message => exact absurd rfl (hevent message)
    | _ => rfl
  | send i n =>
    simp only [step] at hstep
    cases hi : link.unsent[i]? with
    | none => simp only [hi, reduceCtorEq] at hstep
    | some bytes =>
      simp only [hi, Option.ite_none_right_eq_some, Option.some.injEq] at hstep
      obtain ⟨-, rfl⟩ := hstep
      rfl
  | arrive n =>
    simp only [step, Option.ite_none_right_eq_some, Option.some.injEq] at hstep
    obtain ⟨-, rfl⟩ := hstep
    rfl
  | readDone =>
    simp only [step, Option.ite_none_right_eq_some, Option.some.injEq] at hstep
    obtain ⟨-, rfl⟩ := hstep
    rfl
  | readFailed n =>
    simp only [step, Option.ite_none_right_eq_some, Option.some.injEq] at hstep
    obtain ⟨-, rfl⟩ := hstep
    rfl
  | getOneMessage =>
    obtain rfl := Option.some.inj hstep
    rfl

theorem not_post_of_progress {event : LinkEvent} (h : event.Progress) (message : List UInt8) :
    event ≠ .write (.postOutgoingMessage message) := by
  rintro rfl
  exact h

end Link

namespace TcpConnection

def Progress : ConnectionEvent → Prop
  | .forward event => event.Progress
  | .backward event => event.Progress
  | _ => False

def work (c : TcpConnection) : Nat := c.forward.work + c.backward.work

/-- No thread can go on, and nothing is on its way. -/
def Quiet (c : TcpConnection) : Prop :=
  ∀ event, Progress event → c.Orderly event → c.step event = none

/-- The connection holds, and these messages are posted on it. -/
def Carries (forward backward : List (List UInt8)) (c : TcpConnection) : Prop :=
  c.lost = false ∧ c.forward.Flows ∧ c.backward.Flows ∧ c.forward.posted = forward ∧
    c.backward.posted = backward

variable {forward backward : List (List UInt8)}

theorem carries_step (c : TcpConnection) (event : ConnectionEvent) (c' : TcpConnection)
    (h : c.Carries forward backward) (hok : Progress event ∧ c.Orderly event)
    (hstep : c.step event = some c') : c'.Carries forward backward := by
  obtain ⟨hlost, hforward, hbackward, hposted, hposted'⟩ := h
  obtain ⟨hprogress, horderly⟩ := hok
  cases event with
  | forward event =>
    simp only [step, Orderly, hlost] at hstep horderly
    obtain ⟨link, hlink, rfl⟩ := Option.map_eq_some_iff.mp hstep
    exact ⟨rfl, Link.flows_step hforward horderly hlink, hbackward,
      (Link.posted_step (Link.not_post_of_progress hprogress) hlink).trans hposted, hposted'⟩
  | backward event =>
    simp only [step, Orderly, hlost] at hstep horderly
    obtain ⟨link, hlink, rfl⟩ := Option.map_eq_some_iff.mp hstep
    exact ⟨rfl, hforward, Link.flows_step hbackward horderly hlink, hposted,
      (Link.posted_step (Link.not_post_of_progress hprogress) hlink).trans hposted'⟩
  | close => exact hprogress.elim
  | socketClose => exact hprogress.elim
  | networkFails => exact hprogress.elim

theorem work_step (c : TcpConnection) (event : ConnectionEvent) (c' : TcpConnection)
    (h : c.Carries forward backward) (hprogress : Progress event)
    (hstep : c.step event = some c') : c'.work < c.work := by
  obtain ⟨hlost, hforward, hbackward, -⟩ := h
  cases event with
  | forward event =>
    simp only [step, hlost] at hstep
    obtain ⟨link, hlink, rfl⟩ := Option.map_eq_some_iff.mp hstep
    exact Nat.add_lt_add_right (Link.work_step hforward hprogress hlink) _
  | backward event =>
    simp only [step, hlost] at hstep
    obtain ⟨link, hlink, rfl⟩ := Option.map_eq_some_iff.mp hstep
    exact Nat.add_lt_add_left (Link.work_step hbackward hprogress hlink) _
  | close => exact hprogress.elim
  | socketClose => exact hprogress.elim
  | networkFails => exact hprogress.elim

/-- When no thread can go on, everything has been received. -/
theorem received_of_quiet {c : TcpConnection} (h : c.Carries forward backward)
    (hquiet : c.Quiet) : c.forward.received = forward ∧ c.backward.received = backward := by
  obtain ⟨hlost, hforward, hbackward, rfl, rfl⟩ := h
  constructor
  · apply Link.received_of_quiet hforward
    intro event hprogress hok
    have hnone := hquiet (.forward event) hprogress (by simpa only [Orderly, hlost] using hok)
    simpa only [step, hlost, Option.map_eq_none_iff] using hnone
  · apply Link.received_of_quiet hbackward
    intro event hprogress hok
    have hnone := hquiet (.backward event) hprogress (by simpa only [Orderly, hlost] using hok)
    simpa only [step, hlost, Option.map_eq_none_iff] using hnone

end TcpConnection

end IConnectionHandler

open IConnectionHandler.TcpConnection in
/-- From any state of an orderly run in which the connection holds, whatever the threads do next
without new messages, they come to an end within a bounded number of steps, there is a way to an
end, and at any end everything that was posted has been received. -/
theorem everything_received {events : List ConnectionEvent} {c : TcpConnection}
    (h : after step new events = some c) (horderly : Along step Orderly new events)
    (hholds : c.lost = false) :
    (∀ more t, (∀ e ∈ more, Progress e) → Along step Orderly c more → after step c more = some t →
      more.length ≤ c.work ∧
        (t.Quiet → t.forward.received = c.forward.posted ∧
          t.backward.received = c.backward.posted)) ∧
      ∃ more t, (∀ e ∈ more, Progress e) ∧ Along step Orderly c more ∧ after step c more = some t ∧
        t.Quiet := by
  have hregular := regular_after h horderly
  unfold Regular at hregular
  rw [hholds] at hregular
  have hcarries : c.Carries c.forward.posted c.backward.posted :=
    ⟨hholds, hregular.1, hregular.2, rfl, rfl⟩
  constructor
  · intro more t hmore halong hafter
    have halong' := halong.and_forall hmore
    have hend := invariant _ carries_step hcarries halong' hafter
    have hlength := length_le_of_decreases work _ carries_step work_step hcarries hmore halong'
      hafter
    exact ⟨by omega, fun hquiet => received_of_quiet hend hquiet⟩
  · obtain ⟨more, t, hmore, halong, hafter, -, hquiet⟩ :=
      exists_quiescent_along work (fun c e => Progress e ∧ c.Orderly e) _ carries_step Progress
        work_step hcarries
    refine ⟨more, t, hmore, halong.mono fun _ _ hok => hok.2, hafter, ?_⟩
    exact fun e hprogress hok => hquiet e hprogress ⟨hprogress, hok⟩

/-- Half of a message is sent. -/
def halfSent : List ConnectionEvent :=
  [.write (.postOutgoingMessage [7, 8]), .write .post, .write .sendMessageStart,
    .write (.asyncWrite 0), .send 0 3].map .forward

theorem everything_received_halfSent :
    ∃ c more t, after TcpConnection.step .new halfSent = some c ∧
      after TcpConnection.step c more = some t ∧ t.forward.received = [[7, 8]] := by
  have hruns : (after TcpConnection.step .new halfSent).isSome = true := by decide +kernel
  obtain ⟨c, hc⟩ := Option.isSome_iff_exists.mp hruns
  have hshows : (after TcpConnection.step .new halfSent).map
      (fun c => (c.lost, c.forward.posted)) = some (false, [[7, 8]]) := by
    decide +kernel
  rw [hc, Option.map_some, Option.some.injEq, Prod.mk.injEq] at hshows
  obtain ⟨hbounded, more, t, hmore, halong, ht, hquiet⟩ :=
    everything_received hc (by decide +kernel) hshows.1
  obtain ⟨-, hreceived⟩ := hbounded more t hmore halong ht
  exact ⟨c, more, t, hc, ht, (hreceived hquiet).1.trans hshows.2⟩

/-! ## One message at a time -/

namespace IConnectionHandler.Link

/-- A message is posted when the ones before it have been received. -/
def Unhurried (lost : Bool) (link : Link) : LinkEvent → Prop
  | .write (.postOutgoingMessage message) =>
    (1 ≤ message.length ∧ message.length ≤ BUFFER_SIZE) ∧
      (lost = false → link.received = link.posted)
  | _ => True

instance decidableUnhurried (lost : Bool) (link : Link) :
    (event : LinkEvent) → Decidable (link.Unhurried lost event)
  | .write (.postOutgoingMessage message) =>
    inferInstanceAs (Decidable ((1 ≤ message.length ∧ message.length ≤ BUFFER_SIZE) ∧
      (lost = false → link.received = link.posted)))
  | .write .post | .write .sendMessageStart | .write (.asyncWrite _) | .write (.writeEnds _ _)
  | .write (.completionHandler _) | .send _ _ | .arrive _ | .readDone | .readFailed _
  | .getOneMessage => .isTrue trivial

/-- One frame at most has bytes that are not on the wire. -/
structure OneAtATime (link : Link) : Prop where
  one : link.sender.outMessageQue.length + link.sender.starting.length +
    unfinished link.unsent ≤ 1
  frames : ∀ f ∈ link.sender.starting ++ link.sender.outMessageQue, f.elements ≠ []

theorem oneAtATime_new : new.OneAtATime := ⟨Nat.zero_le 1, fun _ hf => absurd hf List.not_mem_nil⟩

/-- With one frame at a time, a frame that is taken from the queue is the only one. -/
theorem OneAtATime.orderly {lost : Bool} {link : Link} {event : LinkEvent}
    (h : lost = false → link.OneAtATime) (hevent : link.Unhurried lost event) :
    link.Orderly lost event := by
  cases event with
  | write event =>
    cases event with
    | postOutgoingMessage message => exact hevent.1
    | sendMessageStart =>
      intro hlost hqueue
      have hone := (h hlost).one
      have hpos := List.length_pos_of_ne_nil hqueue
      refine ⟨List.length_eq_zero_iff.mp (by omega), fun bytes hbytes => ?_⟩
      by_contra hne
      obtain ⟨i, hi⟩ := List.mem_iff_getElem?.mp hbytes
      have hunfinished := unfinished_pos hi hne
      omega
    | _ => trivial
  | _ => trivial

/-- When everything has been received, no frame is left at the sender. -/
theorem nothing_left {link : Link} (h : link.Flows) (hone : link.OneAtATime)
    (hreceived : link.received = link.posted) :
    link.sender.outMessageQue = [] ∧ link.sender.starting = [] ∧ unfinished link.unsent = 0 := by
  obtain ⟨place, hplace⟩ := h.reader
  have hcoming : place.coming = [] := by
    have hmessages := hplace.messages
    rw [← hreceived] at hmessages
    exact List.append_right_eq_self.mp hmessages
  have hbytes : place.bytes = [] := by
    cases place with
    | header rest =>
      obtain rfl : rest = [] := hcoming
      rfl
    | body message rest => cases hcoming
  have hnothing := hplace.bytes
  rw [hbytes] at hnothing
  obtain ⟨hunsent, hwaiting⟩ := List.append_eq_nil_iff.mp
    (List.append_eq_nil_iff.mp (List.append_eq_nil_iff.mp hnothing).2).2
  have hframes : link.sender.starting ++ link.sender.outMessageQue = [] := by
    rw [waiting, List.flatMap_eq_nil_iff] at hwaiting
    apply List.eq_nil_iff_forall_not_mem.mpr
    intro f hf
    have hnil := hwaiting f hf
    rw [memory_char] at hnil
    exact hone.frames f hf hnil
  obtain ⟨hstarting, hqueue⟩ := List.append_eq_nil_iff.mp hframes
  exact ⟨hqueue, hstarting, unfinished_eq_zero (List.flatten_eq_nil_iff.mp hunsent)⟩

theorem oneAtATime_write {link : Link} {event : WriteEvent UInt8} (h : link.Flows)
    (hone : link.OneAtATime) (hallows : link.allows false event = true)
    (hevent : link.Unhurried false (.write event)) : (link.write event).OneAtATime := by
  have hle := hone.one
  cases event with
  | postOutgoingMessage message =>
    obtain ⟨hqueue, hstarting, hunsent⟩ := nothing_left h hone (hevent.2 rfl)
    have hframe := wrapWithHeader_char hevent.1.2
    refine ⟨?_, ?_⟩
    · simp only [write, WriteSide.step, hframe, WriteSide.push, unsentAfter, hqueue, hstarting,
        hunsent, List.nil_append, List.length_cons, List.length_nil]
      decide
    · simp only [write, WriteSide.step, hframe, WriteSide.push, hqueue, hstarting,
        List.nil_append, List.mem_singleton, forall_eq]
      exact frame_ne_nil hevent.1.2
  | post =>
    simp only [write, WriteSide.step, unsentAfter]
    cases link.sender.posting <;> exact ⟨hone.one, hone.frames⟩
  | sendMessageStart =>
    simp only [write, WriteSide.step, unsentAfter]
    cases link.sender.scheduled with
    | zero => exact ⟨hone.one, hone.frames⟩
    | succ scheduled =>
      simp only [WriteSide.sendMessageStart]
      cases hqueue : link.sender.outMessageQue with
      | nil => exact ⟨by simpa only [hqueue] using hone.one, by
          simpa only [hqueue] using hone.frames⟩
      | cons message rest =>
        have hframes := hone.frames
        rw [hqueue] at hle hframes
        refine ⟨?_, ?_⟩
        · simp only [List.length_cons, List.length_append, List.length_nil] at hle ⊢
          omega
        · simpa only [List.append_assoc, List.cons_append, List.nil_append] using hframes
  | asyncWrite i =>
    have hi : i < link.sender.starting.length := of_decide_eq_true hallows
    have hmessage := List.getElem?_eq_getElem hi
    have hlength := List.length_eraseIdx_of_lt hi
    simp only [write, WriteSide.step, unsentAfter, hmessage]
    refine ⟨?_, ?_⟩
    · have hcount : unfinished (link.unsent ++ [memory link.sender.starting[i].elements]) =
          unfinished link.unsent + unfinished [memory link.sender.starting[i].elements] :=
        List.countP_append
      have hlast : unfinished [memory link.sender.starting[i].elements] ≤ 1 :=
        List.countP_le_length
      simp only [hlength]
      omega
    · intro f hf
      apply hone.frames
      rcases List.mem_append.mp hf with hf | hf
      · exact List.mem_append_left _ (List.mem_of_mem_eraseIdx hf)
      · exact List.mem_append_right _ hf
  | writeEnds i error =>
    have hcount := unfinished_eraseIdx link.unsent i
    simp only [write, WriteSide.step, unsentAfter]
    cases link.sender.inFlight[i]? with
    | none =>
      refine ⟨?_, hone.frames⟩
      simp only []
      omega
    | some message =>
      refine ⟨?_, hone.frames⟩
      simp only []
      omega
  | completionHandler i =>
    simp only [write, WriteSide.step, unsentAfter, WriteSide.sendMessageDone]
    cases link.sender.completions[i]? with
    | none => exact ⟨hone.one, hone.frames⟩
    | some error =>
      cases error with
      | true => exact ⟨hone.one, hone.frames⟩
      | false =>
        simp only [Bool.false_eq_true, if_false]
        split <;> exact ⟨hone.one, hone.frames⟩

theorem oneAtATime_step {link link' : Link} {event : LinkEvent} (h : link.Flows)
    (hone : link.OneAtATime) (hevent : link.Unhurried false event)
    (hstep : link.step false event = some link') : link'.OneAtATime := by
  have hle := hone.one
  cases event with
  | write event =>
    simp only [step, Option.ite_none_right_eq_some, Option.some.injEq] at hstep
    obtain ⟨hallows, rfl⟩ := hstep
    exact oneAtATime_write h hone hallows hevent
  | send i n =>
    simp only [step] at hstep
    cases hi : link.unsent[i]? with
    | none => simp only [hi, reduceCtorEq] at hstep
    | some bytes =>
      simp only [hi, Option.ite_none_right_eq_some, Option.some.injEq] at hstep
      obtain ⟨hn, rfl⟩ := hstep
      have hbytes : bytes ≠ [] := by
        rintro rfl
        have hzero : n ≤ 0 := hn.2
        omega
      have hpos := unfinished_pos hi hbytes
      have hset := (flatten_of_single (by omega) hi hbytes (bytes.drop n)).2.2
      refine ⟨?_, hone.frames⟩
      simp only []
      omega
  | arrive n =>
    simp only [step, Option.ite_none_right_eq_some, Option.some.injEq] at hstep
    obtain ⟨-, rfl⟩ := hstep
    exact ⟨hone.one, hone.frames⟩
  | readDone =>
    simp only [step, Option.ite_none_right_eq_some, Option.some.injEq] at hstep
    obtain ⟨-, rfl⟩ := hstep
    exact ⟨hone.one, hone.frames⟩
  | readFailed n => simp only [step, Bool.false_eq_true, if_false, reduceCtorEq] at hstep
  | getOneMessage =>
    obtain rfl := Option.some.inj hstep
    exact ⟨hone.one, hone.frames⟩

end IConnectionHandler.Link

namespace IConnectionHandler.TcpConnection

def Unhurried (c : TcpConnection) : ConnectionEvent → Prop
  | .forward event => c.forward.Unhurried c.lost event
  | .backward event => c.backward.Unhurried c.lost event
  | _ => True

instance decidableUnhurried (c : TcpConnection) :
    (event : ConnectionEvent) → Decidable (c.Unhurried event)
  | .forward event => inferInstanceAs (Decidable (c.forward.Unhurried c.lost event))
  | .backward event => inferInstanceAs (Decidable (c.backward.Unhurried c.lost event))
  | .close | .socketClose | .networkFails => .isTrue trivial

/-- Both directions are regular, and have one frame at a time while the connection holds. -/
structure Calm (c : TcpConnection) : Prop where
  regular : c.Regular
  forward : c.lost = false → c.forward.OneAtATime
  backward : c.lost = false → c.backward.OneAtATime

theorem Calm.orderly {c : TcpConnection} (h : c.Calm) {event : ConnectionEvent}
    (hevent : c.Unhurried event) : c.Orderly event := by
  cases event with
  | forward event => exact Link.OneAtATime.orderly h.forward hevent
  | backward event => exact Link.OneAtATime.orderly h.backward hevent
  | _ => trivial

theorem oneAtATime_step {lost : Bool} {link link' : Link} {event : LinkEvent}
    (h : link.Regular lost) (hone : lost = false → link.OneAtATime)
    (hevent : link.Unhurried lost event) (hstep : link.step lost event = some link') :
    lost = false → link'.OneAtATime := by
  rintro rfl
  exact Link.oneAtATime_step h (hone rfl) hevent hstep

theorem calm_step (c : TcpConnection) (event : ConnectionEvent) (c' : TcpConnection)
    (h : c.Calm) (hevent : c.Unhurried event) (hstep : c.step event = some c') : c'.Calm := by
  have hregular := regular_step c event c' h.regular (h.orderly hevent) hstep
  cases event with
  | forward event =>
    obtain ⟨link, hlink, rfl⟩ := Option.map_eq_some_iff.mp hstep
    exact ⟨hregular, oneAtATime_step h.regular.1 h.forward hevent hlink, h.backward⟩
  | backward event =>
    obtain ⟨link, hlink, rfl⟩ := Option.map_eq_some_iff.mp hstep
    exact ⟨hregular, h.forward, oneAtATime_step h.regular.2 h.backward hevent hlink⟩
  | close =>
    obtain rfl := Option.some.inj hstep
    exact ⟨hregular, h.forward, h.backward⟩
  | socketClose =>
    simp only [step] at hstep
    cases hclosing : c.closing with
    | zero => simp only [hclosing, reduceCtorEq] at hstep
    | succ closing =>
      simp only [hclosing, Option.some.injEq] at hstep
      obtain rfl := hstep
      exact ⟨hregular, fun hlost => Bool.noConfusion hlost, fun hlost => Bool.noConfusion hlost⟩
  | networkFails =>
    obtain rfl := Option.some.inj hstep
    exact ⟨hregular, fun hlost => Bool.noConfusion hlost, fun hlost => Bool.noConfusion hlost⟩

theorem calm_new : new.Calm :=
  ⟨regular_new, fun _ => Link.oneAtATime_new, fun _ => Link.oneAtATime_new⟩

/-- An unhurried run is orderly. -/
theorem orderly_of_unhurried {events : List ConnectionEvent} {c : TcpConnection} (h : c.Calm)
    (hevents : Along step Unhurried c events) : Along step Orderly c events := by
  induction events generalizing c with
  | nil => trivial
  | cons event events ih =>
    exact ⟨h.orderly hevents.1, fun c' hc' =>
      ih (calm_step c event c' h hevents.1 hc') (hevents.2 c' hc')⟩

end IConnectionHandler.TcpConnection

open IConnectionHandler.TcpConnection in
/-- When each message is posted after the ones before it have been received, no two writes have
bytes to send at a time, whatever the threads do, and nothing is lost or mixed up. -/
theorem unhurried_received {events : List ConnectionEvent} {c : TcpConnection}
    (h : after step new events = some c) (hunhurried : Along step Unhurried new events) :
    Along step Orderly new events ∧ c.forward.InOrder ∧ c.backward.InOrder ∧
      (c.lost = false → c.forward.OneAtATime ∧ c.backward.OneAtATime) := by
  have horderly := orderly_of_unhurried calm_new hunhurried
  have hregular := regular_after h horderly
  have hcalm := invariant Calm calm_step calm_new hunhurried h
  exact ⟨horderly, hregular.1.sound.inOrder, hregular.2.sound.inOrder, fun hlost =>
    ⟨hcalm.forward hlost, hcalm.backward hlost⟩⟩

/-- A request and its answer, and the next request. -/
def requestAndAnswer : List ConnectionEvent :=
  let message (m : List UInt8) : List LinkEvent :=
    [.write (.postOutgoingMessage m), .write .post, .write .sendMessageStart,
      .write (.asyncWrite 0), .send 0 5, .arrive 5, .readDone, .readDone]
  (message [7]).map .forward ++ (message [8]).map .backward ++
    [.forward (.write (.postOutgoingMessage [9]))]

theorem unhurried_received_requestAndAnswer :
    ∃ c, after TcpConnection.step .new requestAndAnswer = some c ∧
      c.backward.received = [[8]] ∧ c.forward.InOrder ∧ c.forward.OneAtATime := by
  have hruns : (after TcpConnection.step .new requestAndAnswer).isSome = true := by
    decide +kernel
  obtain ⟨c, hc⟩ := Option.isSome_iff_exists.mp hruns
  have hshows : (after TcpConnection.step .new requestAndAnswer).map
      (fun c => (c.lost, c.backward.received)) = some (false, [[8]]) := by
    decide +kernel
  rw [hc, Option.map_some, Option.some.injEq, Prod.mk.injEq] at hshows
  obtain ⟨-, hforward, -, hone⟩ := unhurried_received hc (by decide +kernel)
  exact ⟨c, hc, hshows.2, hforward, (hone hshows.1).1⟩

end Azulejo
