import Azulejo.Interprocess.ChatServer
import Azulejo.Properties.Conversation
import Mathlib.Data.List.Nodup

/-!
# What a participant gets

All participants get one sequence of messages: each of them, from its joining on, and the hundred
messages before that. Over its connection a client has a prefix of this at any time, and what the
room delivered of a client is a prefix of what that client posted.
-/

namespace Azulejo

open IConnectionHandler Transitions

namespace IConnectionHandler

/-- Only the application takes messages. -/
theorem Endpoint.taken_step {s : Endpoint UInt8} {event : ReadEvent}
    (hevent : event ≠ .getOneMessage) : (s.step event).taken = s.taken := by
  have hcomplete : ∀ op reads error n, (s.complete op reads error n).taken = s.taken := by
    intro op reads error n
    unfold Endpoint.complete
    simp only
    split <;> rfl
  unfold Endpoint.step
  split
  · rfl
  · cases event with
    | arrive bytes => rfl
    | readDone =>
      simp only
      split
      · rfl
      · split
        · exact hcomplete _ _ _ _
        · rfl
    | readFailed n =>
      simp only
      split
      · rfl
      · split
        · exact hcomplete _ _ _ _
        · rfl
    | postReceiveMessages => rfl
    | getOneMessage => exact absurd rfl hevent

theorem Link.taken_step {lost : Bool} {link link' : Link} {event : LinkEvent}
    (hevent : event ≠ .getOneMessage) (hstep : link.step lost event = some link') :
    link'.receiver.taken = link.receiver.taken := by
  cases event with
  | write event =>
    simp only [step, Option.ite_none_right_eq_some, Option.some.injEq] at hstep
    obtain ⟨-, rfl⟩ := hstep
    rfl
  | send i n =>
    simp only [step] at hstep
    cases hi : link.unsent[i]? with
    | none => simp only [hi, reduceCtorEq] at hstep
    | some bytes =>
      simp only [hi, Option.ite_none_right_eq_some, Option.some.injEq] at hstep
      obtain ⟨-, rfl⟩ := hstep
      rfl
  | arrive n =>
    simp only [step, Option.ite_none_right_eq_some, Option.some.injEq] at hstep
    obtain ⟨-, rfl⟩ := hstep
    exact Endpoint.taken_step (by simp)
  | readDone =>
    simp only [step, Option.ite_none_right_eq_some, Option.some.injEq] at hstep
    obtain ⟨-, rfl⟩ := hstep
    exact Endpoint.taken_step (by simp)
  | readFailed n =>
    simp only [step, Option.ite_none_right_eq_some, Option.some.injEq] at hstep
    obtain ⟨-, rfl⟩ := hstep
    exact Endpoint.taken_step (by simp)
  | getOneMessage => exact absurd rfl hevent

end IConnectionHandler

namespace ChatServer

/-! ## The connections -/

/-- What happens on a connection apart from the room neither posts for the server nor takes what
the server received. -/
theorem step_apart {c c' : TcpConnection} {event : ConnectionEvent} (h : ofRoom event = false)
    (hstep : c.step event = some c') :
    c'.forward.posted = c.forward.posted ∧
      c'.backward.receiver.taken = c.backward.receiver.taken := by
  cases event with
  | forward event =>
    obtain ⟨link, hlink, rfl⟩ := Option.map_eq_some_iff.mp hstep
    refine ⟨Link.posted_step ?_ hlink, rfl⟩
    rintro message rfl
    cases h
  | backward event =>
    obtain ⟨link, hlink, rfl⟩ := Option.map_eq_some_iff.mp hstep
    refine ⟨rfl, Link.taken_step ?_ hlink⟩
    rintro rfl
    cases h
  | close =>
    obtain rfl := Option.some.inj hstep
    exact ⟨rfl, rfl⟩
  | socketClose =>
    simp only [TcpConnection.step] at hstep
    split at hstep
    · cases hstep
    · obtain rfl := Option.some.inj hstep
      exact ⟨rfl, rfl⟩
  | networkFails =>
    obtain rfl := Option.some.inj hstep
    exact ⟨rfl, rfl⟩

/-- The server posts a message. -/
theorem step_post {c c' : TcpConnection} {msg : List UInt8}
    (hmsg : 1 ≤ msg.length ∧ msg.length ≤ BUFFER_SIZE)
    (hstep : c.step (.forward (.write (.postOutgoingMessage msg))) = some c') :
    c'.forward.posted = c.forward.posted ++ [msg] ∧ c'.backward = c.backward := by
  simp only [TcpConnection.step] at hstep
  obtain ⟨link, hlink, rfl⟩ := Option.map_eq_some_iff.mp hstep
  simp only [Link.step, Option.ite_none_right_eq_some, Option.some.injEq] at hlink
  obtain ⟨-, rfl⟩ := hlink
  exact ⟨by simp only [Link.write, Link.postedAfter, wrapWithHeader_char hmsg.2], rfl⟩

/-- The server takes the oldest message it has received. -/
theorem step_take {c c' : TcpConnection} (hc : c.Regular) {msg : List UInt8}
    {rest : List (List UInt8)} (hqueue : c.backward.receiver.handler.inMessageQue = msg :: rest)
    (hstep : c.step (.backward .getOneMessage) = some c') :
    c'.backward.receiver.taken = c.backward.receiver.taken ++ [msg] ∧ c'.forward = c.forward := by
  simp only [TcpConnection.step] at hstep
  obtain ⟨link, hlink, rfl⟩ := Option.map_eq_some_iff.mp hstep
  obtain rfl := Option.some.inj hlink
  have hthrown := hc.2.sound.inOrder.thrown
  simp only [getOneMessage_takes hthrown hqueue, and_self]

/-! ## The most recent messages -/

def mostRecent (messages : List (List UInt8)) : List (List UInt8) :=
  messages.drop (messages.length - maxRecentMsgs)

theorem popOldest_eq (messages : List (List UInt8)) : popOldest messages = mostRecent messages := by
  induction messages with
  | nil => rfl
  | cons msg rest ih =>
    unfold popOldest mostRecent
    rw [List.length_cons]
    split
    · rename_i hmore
      rw [ih, mostRecent, Nat.succ_sub (Nat.le_of_lt_succ hmore), List.drop_succ_cons]
    · rename_i hfew
      rw [Nat.sub_eq_zero_of_le (Nat.le_of_not_lt hfew), List.drop_zero]

/-- What was dropped before is not missed. -/
theorem popOldest_append (messages : List (List UInt8)) (msg : List UInt8) :
    popOldest (mostRecent messages ++ [msg]) = mostRecent (messages ++ [msg]) := by
  rw [popOldest_eq]
  unfold mostRecent
  generalize maxRecentMsgs = most
  rw [← List.drop_append_of_le_length (Nat.sub_le _ _), List.drop_drop]
  congr 1
  simp only [List.length_drop, List.length_append, List.length_cons, List.length_nil]
  omega

/-! ## The room -/

/-- The messages that were delivered, in their order. -/
def messages (w : ChatServer) : List (List UInt8) := w.delivered.map Prod.snd

/-- The messages with the session. -/
def ofSession (session : Nat) (l : List (Nat × List UInt8)) : List (List UInt8) :=
  (l.filter fun p => p.1 = session).map Prod.snd

theorem ofSession_cons_self (session : Nat) (msg : List UInt8) (l : List (Nat × List UInt8)) :
    ofSession session ((session, msg) :: l) = msg :: ofSession session l := by
  simp only [ofSession, List.filter_cons, decide_true, if_true, List.map_cons]

theorem ofSession_cons_ne {session other : Nat} (h : other ≠ session) (msg : List UInt8)
    (l : List (Nat × List UInt8)) : ofSession session ((other, msg) :: l) = ofSession session l := by
  simp only [ofSession, List.filter_cons, h, decide_false, Bool.false_eq_true, if_false]

theorem ofSession_append (session : Nat) (l m : List (Nat × List UInt8)) :
    ofSession session (l ++ m) = ofSession session l ++ ofSession session m := by
  rw [ofSession, List.filter_append, List.map_append]
  rfl

/-- What `join` posts. -/
theorem ofSession_join (session other : Nat) (msgs : List (List UInt8)) :
    ofSession session (msgs.map fun msg => (other, msg)) = if other = session then msgs else [] := by
  by_cases hsame : other = session
  · subst hsame
    rw [if_pos rfl]
    induction msgs with
    | nil => rfl
    | cons msg msgs ih => rw [List.map_cons, ofSession_cons_self, ih]
  · rw [if_neg hsame]
    induction msgs with
    | nil => rfl
    | cons msg msgs ih => rw [List.map_cons, ofSession_cons_ne hsame, ih]

/-- What `deliver` posts. -/
theorem ofSession_deliver {participants : List Nat} (h : participants.Nodup) (session : Nat)
    (msg : List UInt8) :
    ofSession session (participants.map fun participant => (participant, msg)) =
      if session ∈ participants then [msg] else [] := by
  induction participants with
  | nil => rfl
  | cons first participants ih =>
    obtain ⟨hfirst, hrest⟩ := List.nodup_cons.mp h
    rw [List.map_cons]
    by_cases hsame : first = session
    · rw [hsame, ofSession_cons_self, ih hrest, if_neg (hsame ▸ hfirst),
        if_pos List.mem_cons_self]
    · rw [ofSession_cons_ne hsame, ih hrest]
      simp only [List.mem_cons, Ne.symm hsame, false_or]

/-- The clients post what the server can receive, and no two writes have bytes to send at a
time. -/
def Orderly (w : ChatServer) : ChatEvent → Prop
  | .connection session event => (w.connections session).Orderly event
  | _ => True

instance decidableOrderly (w : ChatServer) : (event : ChatEvent) → Decidable (w.Orderly event)
  | .connection session event => inferInstanceAs (Decidable ((w.connections session).Orderly event))
  | .join _ | .leave _ | .turn _ | .post => .isTrue trivial

/-- What holds whatever the sessions do. -/
structure Sound (w : ChatServer) : Prop where
  regular : ∀ session, (w.connections session).Regular
  distinct : w.participants.Nodup
  recent : w.recentMsgs = mostRecent w.messages
  taken : ∀ session,
    ofSession session w.delivered = (w.connections session).backward.receiver.taken
  posting : ∀ p ∈ w.posting, p.2 ∈ w.messages

theorem sound_new : new.Sound :=
  ⟨fun _ => TcpConnection.regular_new, List.nodup_nil, rfl, fun _ => rfl,
    fun _ hp => absurd hp List.not_mem_nil⟩

/-- What was delivered of a session is a part of what its client posted. -/
theorem Sound.of_client {w : ChatServer} (h : w.Sound) (session : Nat) :
    ofSession session w.delivered <+: (w.connections session).backward.posted := by
  rw [h.taken session]
  exact (List.prefix_append _ _).trans (h.regular session).2.sound.inOrder.messages

theorem Sound.lengths {w : ChatServer} (h : w.Sound) : Receivable w.messages := by
  intro msg hmsg
  obtain ⟨⟨session, msg⟩, hmem, rfl⟩ := List.mem_map.mp hmsg
  have hsession : msg ∈ ofSession session w.delivered :=
    List.mem_map.mpr ⟨_, List.mem_filter.mpr ⟨hmem, decide_eq_true rfl⟩, rfl⟩
  exact (h.regular session).2.sound.lengths msg ((h.of_client session).subset hsession)

/-- What `join` and `deliver` post is not too long for a client. -/
theorem Sound.posted {w : ChatServer} (h : w.Sound) {session : Nat} {msg : List UInt8}
    {rest : List (Nat × List UInt8)} (hposting : w.posting = (session, msg) :: rest) :
    1 ≤ msg.length ∧ msg.length ≤ BUFFER_SIZE := by
  have hmem : (session, msg) ∈ w.posting := by
    rw [hposting]
    exact List.mem_cons_self
  exact h.lengths msg (h.posting _ hmem)

theorem connections_set (w : ChatServer) (session : Nat) (c : TcpConnection) (other : Nat) :
    (w.setConnection session c).connections other =
      if other = session then c else w.connections other :=
  Function.update_apply _ _ _ _

/-- A connection that goes on apart from the room. -/
theorem Sound.setConnection {w : ChatServer} (h : w.Sound) {session : Nat} {c : TcpConnection}
    (hc : c.Regular)
    (htaken : c.backward.receiver.taken = (w.connections session).backward.receiver.taken) :
    (w.setConnection session c).Sound := by
  refine ⟨fun other => ?_, h.distinct, h.recent, fun other => ?_, h.posting⟩
  · rw [connections_set]
    split
    · exact hc
    · exact h.regular other
  · rw [connections_set]
    split
    · rename_i hsame
      rw [hsame, htaken]
      exact h.taken session
    · exact h.taken other

theorem Sound.deliver {w : ChatServer} (h : w.Sound) {session : Nat} {msg : List UInt8}
    {c : TcpConnection} (hc : c.Regular)
    (htaken : c.backward.receiver.taken =
      (w.connections session).backward.receiver.taken ++ [msg]) :
    ((w.setConnection session c).deliver session msg).Sound := by
  have hmessages : ((w.setConnection session c).deliver session msg).messages =
      w.messages ++ [msg] := by
    simp only [messages, ChatServer.deliver, ChatServer.setConnection, List.map_append,
      List.map_cons, List.map_nil]
  refine ⟨fun other => ?_, h.distinct, ?_, fun other => ?_, fun p hp => ?_⟩
  · show ((w.setConnection session c).connections other).Regular
    rw [connections_set]
    split
    · exact hc
    · exact h.regular other
  · rw [hmessages, ← popOldest_append, ← h.recent]
    rfl
  · show ofSession other (w.delivered ++ [(session, msg)]) =
      ((w.setConnection session c).connections other).backward.receiver.taken
    rw [connections_set, ofSession_append, h.taken other]
    by_cases hsame : other = session
    · rw [if_pos hsame, htaken, hsame, ofSession_cons_self]
      rfl
    · rw [if_neg hsame, ofSession_cons_ne (Ne.symm hsame)]
      exact List.append_nil _
  · obtain ⟨participant, -, rfl⟩ := List.mem_map.mp hp
    rw [hmessages]
    exact List.mem_append_right _ List.mem_cons_self

theorem Sound.join {w : ChatServer} (h : w.Sound) (session : Nat) : (w.join session).Sound := by
  refine ⟨h.regular, ?_, h.recent, h.taken, fun p hp => ?_⟩
  · unfold ChatServer.join
    simp only
    split
    · exact h.distinct
    · rename_i hnew
      exact (List.perm_orderedInsert _ _ _).nodup_iff.mpr (List.nodup_cons.mpr ⟨hnew, h.distinct⟩)
  · obtain ⟨msg, hmsg, rfl⟩ := List.mem_map.mp hp
    rw [h.recent] at hmsg
    exact List.mem_of_mem_drop hmsg

theorem sound_step (w : ChatServer) (event : ChatEvent) (w' : ChatServer) (h : w.Sound)
    (hok : w.Orderly event) (hstep : w.step event = some w') : w'.Sound := by
  cases event with
  | connection session event =>
    simp only [step, Option.ite_none_left_eq_some, Bool.not_eq_true] at hstep
    obtain ⟨hapart, hstep⟩ := hstep
    obtain ⟨c, hc, rfl⟩ := Option.map_eq_some_iff.mp hstep
    have hregular := TcpConnection.regular_step _ event c (h.regular session) hok hc
    exact h.setConnection hregular (step_apart hapart hc).2
  | join session =>
    simp only [step, Option.ite_none_right_eq_some, Option.some.injEq] at hstep
    obtain ⟨-, rfl⟩ := hstep
    exact h.join session
  | leave session =>
    simp only [step, Option.ite_none_right_eq_some, Option.some.injEq] at hstep
    obtain ⟨-, rfl⟩ := hstep
    exact ⟨h.regular, h.distinct.erase session, h.recent, h.taken, h.posting⟩
  | turn session =>
    simp only [step, Option.ite_none_right_eq_some] at hstep
    obtain ⟨-, hstep⟩ := hstep
    cases hqueue : (w.connections session).backward.receiver.handler.inMessageQue with
    | nil =>
      simp only [hqueue, Option.some.injEq] at hstep
      exact hstep ▸ h
    | cons msg rest =>
      simp only [hqueue] at hstep
      obtain ⟨c, hc, rfl⟩ := Option.map_eq_some_iff.mp hstep
      have hregular := TcpConnection.regular_step _ (.backward .getOneMessage) c
        (h.regular session) trivial hc
      exact h.deliver hregular (step_take (h.regular session) hqueue hc).1
  | post =>
    simp only [step] at hstep
    cases hposting : w.posting with
    | nil => simp only [hposting, reduceCtorEq] at hstep
    | cons p rest =>
      obtain ⟨session, msg⟩ := p
      simp only [hposting] at hstep
      obtain ⟨c, hc, rfl⟩ := Option.map_eq_some_iff.mp hstep
      have hmsg := h.posted hposting
      have hregular := TcpConnection.regular_step _ (.forward (.write (.postOutgoingMessage msg))) c
        (h.regular session) hmsg hc
      have hsound := h.setConnection hregular (by rw [(step_post hmsg hc).2])
      refine ⟨hsound.regular, hsound.distinct, hsound.recent, hsound.taken, fun p hp => ?_⟩
      exact h.posting p (by rw [hposting]; exact List.mem_cons_of_mem _ hp)

/-! ## What is posted to a participant -/

/-- The messages that were posted to a session, and those that are going to be. -/
def due (w : ChatServer) (session : Nat) : List (List UInt8) :=
  (w.connections session).forward.posted ++ ofSession session w.posting

theorem mem_join {w : ChatServer} {session other : Nat} :
    other ∈ (w.join session).participants ↔ other = session ∨ other ∈ w.participants := by
  unfold join
  simp only
  split
  · rename_i hmem
    exact ⟨Or.inr, fun h => h.elim (fun hsame => hsame ▸ hmem) id⟩
  · exact List.mem_orderedInsert _

/-- An event delivers messages to the participants, or tells a session that joins the most recent
ones. -/
theorem due_step {w w' : ChatServer} {event : ChatEvent} (h : w.Sound)
    (hstep : w.step event = some w') (session : Nat) :
    ∃ new, w'.messages = w.messages ++ new ∧
      (event = .join session → w'.due session = w.due session ++ w.recentMsgs) ∧
      (event ≠ .join session →
        w'.due session = w.due session ++ if session ∈ w.participants then new else []) := by
  cases event with
  | connection other event =>
    simp only [step, Option.ite_none_left_eq_some, Bool.not_eq_true] at hstep
    obtain ⟨hapart, hstep⟩ := hstep
    obtain ⟨c, hc, rfl⟩ := Option.map_eq_some_iff.mp hstep
    refine ⟨[], (List.append_nil _).symm, by simp, fun _ => ?_⟩
    have hposted : ((w.setConnection other c).connections session).forward.posted =
        (w.connections session).forward.posted := by
      rw [connections_set]
      split
      · rename_i hsame
        rw [hsame, (step_apart hapart hc).1]
      · rfl
    rw [ite_self, List.append_nil, due, hposted]
    rfl
  | join other =>
    simp only [step, Option.ite_none_right_eq_some, Option.some.injEq] at hstep
    obtain ⟨hnothing, rfl⟩ := hstep
    have hdue : (w.join other).due session =
        w.due session ++ if other = session then w.recentMsgs else [] := by
      unfold due
      rw [hnothing]
      show _ ++ ofSession session (w.recentMsgs.map fun msg => (other, msg)) = _
      rw [ofSession_join, List.append_assoc]
      rfl
    refine ⟨[], (List.append_nil _).symm, fun hsame => ?_, fun hother => ?_⟩
    · cases hsame
      rw [hdue, if_pos rfl]
    · rw [hdue, if_neg fun hsame => hother (by rw [hsame]), ite_self]
  | leave other =>
    simp only [step, Option.ite_none_right_eq_some, Option.some.injEq] at hstep
    obtain ⟨-, rfl⟩ := hstep
    refine ⟨[], (List.append_nil _).symm, by simp, fun _ => ?_⟩
    rw [ite_self, List.append_nil]
    rfl
  | turn other =>
    simp only [step, Option.ite_none_right_eq_some] at hstep
    obtain ⟨⟨hnothing, -⟩, hstep⟩ := hstep
    cases hqueue : (w.connections other).backward.receiver.handler.inMessageQue with
    | nil =>
      simp only [hqueue, Option.some.injEq] at hstep
      refine ⟨[], by rw [hstep, List.append_nil], by simp, fun _ => ?_⟩
      rw [ite_self, List.append_nil, hstep]
    | cons msg rest =>
      simp only [hqueue] at hstep
      obtain ⟨c, hc, rfl⟩ := Option.map_eq_some_iff.mp hstep
      refine ⟨[msg], ?_, by simp, fun _ => ?_⟩
      · simp only [messages, deliver, setConnection, List.map_append, List.map_cons, List.map_nil]
      · have hposted : ((w.setConnection other c).connections session).forward.posted =
            (w.connections session).forward.posted := by
          rw [connections_set]
          split
          · rename_i hsame
            rw [hsame, (step_take (h.regular other) hqueue hc).2]
          · rfl
        unfold due
        rw [hnothing, ← ofSession_deliver h.distinct, ← hposted, List.append_assoc]
        rfl
  | post =>
    simp only [step] at hstep
    cases hposting : w.posting with
    | nil => simp only [hposting, reduceCtorEq] at hstep
    | cons p rest =>
      obtain ⟨other, msg⟩ := p
      simp only [hposting] at hstep
      obtain ⟨c, hc, rfl⟩ := Option.map_eq_some_iff.mp hstep
      refine ⟨[], (List.append_nil _).symm, by simp, fun _ => ?_⟩
      rw [ite_self, List.append_nil]
      unfold due
      rw [hposting]
      show ((w.setConnection other c).connections session).forward.posted ++
        ofSession session rest = _
      rw [connections_set]
      by_cases hsame : session = other
      · rw [if_pos hsame, (step_post (h.posted hposting) hc).1, hsame, ofSession_cons_self,
          List.append_assoc]
        rfl
      · rw [if_neg hsame, ofSession_cons_ne (Ne.symm hsame)]

/-- A session is a participant from its joining until it leaves. -/
theorem participants_step {w w' : ChatServer} {event : ChatEvent} (hstep : w.step event = some w')
    {session : Nat} :
    (event ≠ .join session → session ∈ w'.participants → session ∈ w.participants) ∧
      (event ≠ .leave session → session ∈ w.participants → session ∈ w'.participants) := by
  cases event with
  | connection other event =>
    simp only [step, Option.ite_none_left_eq_some] at hstep
    obtain ⟨c, -, rfl⟩ := Option.map_eq_some_iff.mp hstep.2
    exact ⟨fun _ => id, fun _ => id⟩
  | join other =>
    simp only [step, Option.ite_none_right_eq_some, Option.some.injEq] at hstep
    obtain ⟨-, rfl⟩ := hstep
    refine ⟨fun hother hmem => ?_, fun _ hmem => mem_join.mpr (Or.inr hmem)⟩
    exact (mem_join.mp hmem).resolve_left fun hsame => hother (by rw [hsame])
  | leave other =>
    simp only [step, Option.ite_none_right_eq_some, Option.some.injEq] at hstep
    obtain ⟨-, rfl⟩ := hstep
    refine ⟨fun _ hmem => List.mem_of_mem_erase hmem, fun hother hmem => ?_⟩
    exact (List.mem_erase_of_ne fun hsame => hother (by rw [hsame])).mpr hmem
  | turn other =>
    simp only [step, Option.ite_none_right_eq_some] at hstep
    obtain ⟨-, hstep⟩ := hstep
    split at hstep
    · obtain rfl := Option.some.inj hstep
      exact ⟨fun _ => id, fun _ => id⟩
    · obtain ⟨c, -, rfl⟩ := Option.map_eq_some_iff.mp hstep
      exact ⟨fun _ => id, fun _ => id⟩
  | post =>
    simp only [step] at hstep
    split at hstep
    · cases hstep
    · obtain ⟨c, -, rfl⟩ := Option.map_eq_some_iff.mp hstep
      exact ⟨fun _ => id, fun _ => id⟩

/-- Nothing was posted to a session that has not joined. -/
structure Apart (session : Nat) (w : ChatServer) : Prop where
  sound : w.Sound
  absent : session ∉ w.participants
  due : w.due session = []

/-- The session is due the messages from the `first` on. -/
structure Follows (session first : Nat) (w : ChatServer) : Prop where
  sound : w.Sound
  participates : session ∈ w.participants
  first_le : first ≤ w.messages.length
  due : w.due session = w.messages.drop first

theorem apart_step {session : Nat} (w : ChatServer) (event : ChatEvent) (w' : ChatServer)
    (h : w.Apart session) (hok : event ≠ .join session ∧ w.Orderly event)
    (hstep : w.step event = some w') : w'.Apart session := by
  obtain ⟨new, -, -, hdue⟩ := due_step h.sound hstep session
  have hsame := hdue hok.1
  rw [if_neg h.absent, h.due] at hsame
  exact ⟨sound_step w event w' h.sound hok.2 hstep,
    fun hmem => h.absent ((participants_step hstep).1 hok.1 hmem), hsame⟩

theorem follows_join {session : Nat} {w w' : ChatServer} (h : w.Apart session)
    (hstep : w.step (.join session) = some w') :
    w'.messages = w.messages ∧
      w'.Follows session (w.messages.length - maxRecentMsgs) := by
  have hsound := sound_step w (.join session) w' h.sound trivial hstep
  obtain ⟨-, -, hdue, -⟩ := due_step h.sound hstep session
  have hjoined := hdue rfl
  simp only [step, Option.ite_none_right_eq_some, Option.some.injEq] at hstep
  obtain ⟨-, rfl⟩ := hstep
  rw [h.due, h.sound.recent] at hjoined
  exact ⟨rfl, hsound, mem_join.mpr (Or.inl rfl), Nat.sub_le _ _, hjoined⟩

theorem follows_step {session first : Nat} (w : ChatServer) (event : ChatEvent) (w' : ChatServer)
    (h : w.Follows session first)
    (hok : (event ≠ .join session ∧ event ≠ .leave session) ∧ w.Orderly event)
    (hstep : w.step event = some w') : w'.Follows session first := by
  obtain ⟨⟨hjoin, hleave⟩, horderly⟩ := hok
  obtain ⟨new, hmessages, -, hdue⟩ := due_step h.sound hstep session
  refine ⟨sound_step w event w' h.sound horderly hstep,
    (participants_step hstep).2 hleave h.participates, ?_, ?_⟩
  · rw [hmessages, List.length_append]
    exact Nat.le_add_right_of_le h.first_le
  · rw [hdue hjoin, if_pos h.participates, h.due, hmessages,
      List.drop_append_of_le_length h.first_le]

/-- No message is taken back. -/
theorem messages_after {w w' : ChatServer} {events : List ChatEvent} (h : w.Sound)
    (horderly : Along step Orderly w events) (hafter : after step w events = some w') :
    w.messages <+: w'.messages := by
  induction events generalizing w with
  | nil =>
    cases hafter
    exact List.prefix_rfl
  | cons event events ih =>
    obtain ⟨next, hstep, hafter⟩ := after_cons_eq_some hafter
    obtain ⟨new, hmessages, -, -⟩ := due_step h hstep 0
    have hprefix := ih (sound_step w event next h horderly.1 hstep) (horderly.2 next hstep) hafter
    rw [hmessages] at hprefix
    exact (List.prefix_append _ _).trans hprefix

end ChatServer

open ChatServer in
/-- While a session is in the room, what its client has received is at any time a prefix of the
hundred messages before its joining and all messages delivered since, which are the same for all
sessions; and what was delivered of each client is a prefix of what that client posted. -/
theorem chat_history {before rest : List ChatEvent} {w₁ w : ChatServer} {session : Nat}
    (hbefore : after step new before = some w₁)
    (hrest : after step w₁ (.join session :: rest) = some w)
    (horderly : Along step Orderly new (before ++ .join session :: rest))
    (hfirst : ∀ event ∈ before, event ≠ .join session)
    (hstays : ∀ event ∈ rest, event ≠ .join session ∧ event ≠ .leave session) :
    ∃ since, w.messages = w₁.messages ++ since ∧
      w.due session = mostRecent w₁.messages ++ since ∧
      (w.connections session).forward.received <+: mostRecent w₁.messages ++ since ∧
      ∀ other, ofSession other w.delivered <+: (w.connections other).backward.posted := by
  obtain ⟨horderly₁, horderly₂⟩ := horderly.of_append hbefore
  have hapart : w₁.Apart session := invariant (Apart session) apart_step
    ⟨sound_new, List.not_mem_nil, rfl⟩ (horderly₁.and_forall hfirst) hbefore
  obtain ⟨w₂, hjoin, hafter⟩ := after_cons_eq_some hrest
  obtain ⟨hmessages, hfollows⟩ := follows_join hapart hjoin
  have hend : w.Follows session (w₁.messages.length - maxRecentMsgs) :=
    invariant _ follows_step hfollows ((horderly₂.2 w₂ hjoin).and_forall hstays) hafter
  obtain ⟨since, hsince⟩ := messages_after hfollows.sound (horderly₂.2 w₂ hjoin) hafter
  rw [hmessages] at hsince
  have hdue : w.due session = mostRecent w₁.messages ++ since := by
    rw [hend.due, ← hsince, List.drop_append_of_le_length (Nat.sub_le _ _)]
    rfl
  refine ⟨since, hsince.symm, hdue, ?_, hend.sound.of_client⟩
  rw [← hdue]
  exact (hend.sound.regular session).1.sound.inOrder.messages.trans (List.prefix_append _ _)

/-- A message on its way through a connection. -/
def messagePasses : List LinkEvent :=
  [.write .post, .write .sendMessageStart, .write (.asyncWrite 0), .send 0 5, .arrive 5, .readDone,
    .readDone]

/-- A session joins, and the message of its client is delivered. -/
def firstMessage : List ChatEvent :=
  [.join 1, .connection 1 (.backward (.write (.postOutgoingMessage [5])))] ++
    messagePasses.map (fun event => .connection 1 (.backward event)) ++ [.turn 1, .post]

/-- A second one has joined, and gets the message. -/
def secondReceives : List ChatEvent :=
  .post :: messagePasses.map fun event => .connection 2 (.forward event)

open ChatServer in
theorem chat_history_lateJoin :
    ∃ w₁ w, after step new firstMessage = some w₁ ∧
      after step w₁ (.join 2 :: secondReceives) = some w ∧
      (w.connections 2).forward.received = [[5]] ∧
      ∃ since, w.messages = w₁.messages ++ since ∧
        w.due 2 = mostRecent w₁.messages ++ since ∧
        (w.connections 2).forward.received <+: mostRecent w₁.messages ++ since ∧
        ∀ other, ofSession other w.delivered <+: (w.connections other).backward.posted := by
  have hbefore : (after step new firstMessage).isSome = true := by decide +kernel
  obtain ⟨w₁, hw₁⟩ := Option.isSome_iff_exists.mp hbefore
  have hshows : (after step new (firstMessage ++ .join 2 :: secondReceives)).map
      (fun w => (w.connections 2).forward.received) = some [[5]] := by decide +kernel
  rw [after_append hw₁] at hshows
  obtain ⟨w, hw, hreceived⟩ := Option.map_eq_some_iff.mp hshows
  refine ⟨w₁, w, hw₁, hw, hreceived, chat_history hw₁ hw (by decide +kernel) ?_ ?_⟩
  · simp [firstMessage, messagePasses]
  · simp [secondReceives, messagePasses]

end Azulejo
