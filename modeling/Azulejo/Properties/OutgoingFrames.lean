import Azulejo.Interprocess.Outgoing
import Mathlib.Data.List.Nodup
import Mathlib.Data.List.Perm.Basic

/-!
# Frames on their way out

Every frame on the queue is matched by a call of `SendMessageStart` that is scheduled or about to
be, so no frame is left behind, and a frame is written once. Two calls may however run before the
first frame is written: the writes are one at a time and in order when no call takes a frame
while an earlier one is on its way.
-/

namespace Azulejo

open IConnectionHandler

namespace IConnectionHandler.WriteSide

variable {α : Type}

/-! ## Accounting -/

/-- Where the pushed frames are, and that as many calls are due as frames are queued. -/
structure Accounted (me : WriteSide α) : Prop where
  due : me.outMessageQue.length ≤ me.scheduled + me.posting
  frames : (me.written ++ (me.starting ++ me.outMessageQue)).Perm me.pushed
  numbers : me.pushed.map OutFrame.number = List.range me.pushed.length

theorem accounted_new : Accounted (new : WriteSide α) :=
  ⟨Nat.le_refl 0, List.Perm.refl [], rfl⟩

theorem accounted_push {me : WriteSide α} (h : Accounted me) (wrappedMessage : List α) :
    Accounted (me.push wrappedMessage) := by
  refine ⟨?_, ?_, ?_⟩
  · have hdue := h.due
    simp only [push, List.length_append, List.length_singleton]
    omega
  · have hframes := h.frames.append_right [OutFrame.mk me.pushed.length wrappedMessage]
    simpa only [push, List.append_assoc] using hframes
  · simp only [push, List.map_append, List.map_cons, List.map_nil, h.numbers,
      List.length_append, List.length_singleton, List.range_succ]

/-- A call that finds a frame takes it; it is one call less and one frame less. -/
theorem accounted_sendMessageStart {me : WriteSide α} {scheduled : Nat}
    (hscheduled : me.scheduled = scheduled + 1) (h : Accounted me) :
    Accounted { me with scheduled := scheduled }.sendMessageStart := by
  have hdue := h.due
  have hframes := h.frames
  unfold sendMessageStart
  cases hqueue : me.outMessageQue with
  | nil =>
    rw [hqueue] at hframes
    exact ⟨Nat.zero_le _, hframes, h.numbers⟩
  | cons message rest =>
    rw [hqueue] at hdue hframes
    simp only [List.length_cons] at hdue
    refine ⟨?_, ?_, h.numbers⟩
    · show rest.length ≤ scheduled + me.posting
      omega
    · simpa only [List.append_assoc, List.singleton_append] using hframes

theorem accounted_asyncWrite {me : WriteSide α} {i : Nat} {message : OutFrame α}
    (hmessage : me.starting[i]? = some message) (h : Accounted me) :
    Accounted { me with
      starting := me.starting.eraseIdx i
      inFlight := me.inFlight ++ [message]
      written := me.written ++ [message] } := by
  obtain ⟨hi, rfl⟩ := List.getElem?_eq_some_iff.mp hmessage
  refine ⟨h.due, ?_, h.numbers⟩
  have hstarting := (List.getElem_cons_eraseIdx_perm hi).append_right me.outMessageQue
  have hall := (hstarting.append_left me.written).trans h.frames
  simpa only [List.append_assoc, List.cons_append, List.nil_append] using hall

theorem accounted_sendMessageDone {me : WriteSide α} (h : Accounted me) :
    Accounted me.sendMessageDone := by
  unfold sendMessageDone
  split
  · have hdue := h.due
    refine ⟨?_, h.frames, h.numbers⟩
    show me.outMessageQue.length ≤ me.scheduled + 1 + me.posting
    omega
  · exact h

theorem accounted_step [PodType α] (me : WriteSide α) (event : WriteEvent α)
    (h : Accounted me) : Accounted (me.step event) := by
  cases event with
  | postOutgoingMessage message =>
    simp only [step]
    cases wrapWithHeader message with
    | ok wrappedMessage => exact accounted_push h wrappedMessage
    | error e => exact h
  | post =>
    simp only [step]
    cases hposting : me.posting with
    | zero => exact h
    | succ posting =>
      have hdue := h.due
      rw [hposting] at hdue
      refine ⟨?_, h.frames, h.numbers⟩
      show me.outMessageQue.length ≤ me.scheduled + 1 + posting
      omega
  | sendMessageStart =>
    simp only [step]
    cases hscheduled : me.scheduled with
    | zero => exact h
    | succ scheduled => exact accounted_sendMessageStart hscheduled h
  | asyncWrite i =>
    simp only [step]
    cases hmessage : me.starting[i]? with
    | none => exact h
    | some message => exact accounted_asyncWrite hmessage h
  | writeEnds i error =>
    simp only [step]
    cases me.inFlight[i]? with
    | none => exact h
    | some message => exact ⟨h.due, h.frames, h.numbers⟩
  | completionHandler i =>
    simp only [step]
    cases me.completions[i]? with
    | none => exact h
    | some error =>
      have herased : Accounted { me with completions := me.completions.eraseIdx i } :=
        ⟨h.due, h.frames, h.numbers⟩
      cases error with
      | true => exact herased
      | false => exact accounted_sendMessageDone herased

theorem accounted_run [PodType α] (events : List (WriteEvent α)) :
    Accounted (Runs.run step new events) :=
  Runs.invariant_of_forall Accounted accounted_step accounted_new events

theorem Accounted.nodup_pushed {me : WriteSide α} (h : Accounted me) : me.pushed.Nodup := by
  apply List.Nodup.of_map OutFrame.number
  rw [h.numbers]
  exact List.nodup_range

theorem Accounted.nodup_written {me : WriteSide α} (h : Accounted me) : me.written.Nodup :=
  (h.frames.nodup_iff.mpr h.nodup_pushed).of_append_left

theorem Accounted.written_subset {me : WriteSide α} (h : Accounted me) :
    me.written ⊆ me.pushed := by
  intro message hmessage
  exact h.frames.subset (List.mem_append_left _ hmessage)

/-- When no poster is active and no call is due or under way, everything has been written. -/
theorem Accounted.written_perm {me : WriteSide α} (h : Accounted me) (hposting : me.posting = 0)
    (hscheduled : me.scheduled = 0) (hstarting : me.starting = []) :
    me.outMessageQue = [] ∧ me.written.Perm me.pushed := by
  have hdue := h.due
  have hqueue : me.outMessageQue = [] := List.length_eq_zero_iff.mp (by omega)
  have hframes := h.frames
  rw [hqueue, hstarting, List.append_nil, List.append_nil] at hframes
  exact ⟨hqueue, hframes⟩

/-- Only `PostOutgoingMessage` pushes, and only the frame of its message. -/
theorem pushed_step [PodType α] (me : WriteSide α) (event : WriteEvent α) :
    (me.step event).pushed.map OutFrame.elements =
      me.pushed.map OutFrame.elements ++ postedFrames [event] := by
  cases event with
  | postOutgoingMessage message =>
    simp only [step, postedFrames, List.filterMap_cons, List.filterMap_nil]
    cases wrapWithHeader message with
    | ok wrappedMessage => simp only [push, List.map_append, Except.toOption, List.map_cons,
        List.map_nil]
    | error e => exact (List.append_nil _).symm
  | post =>
    simp only [step]
    cases me.posting <;> exact (List.append_nil _).symm
  | sendMessageStart =>
    simp only [step, sendMessageStart]
    cases me.scheduled with
    | zero => exact (List.append_nil _).symm
    | succ scheduled => cases me.outMessageQue <;> exact (List.append_nil _).symm
  | asyncWrite i =>
    simp only [step]
    cases me.starting[i]? <;> exact (List.append_nil _).symm
  | writeEnds i error =>
    simp only [step]
    cases me.inFlight[i]? <;> exact (List.append_nil _).symm
  | completionHandler i =>
    simp only [step, sendMessageDone]
    cases me.completions[i]? with
    | none => exact (List.append_nil _).symm
    | some error =>
      rw [apply_ite pushed, apply_ite pushed, ite_self, ite_self]
      exact (List.append_nil _).symm

theorem pushed_run [PodType α] (events : List (WriteEvent α)) (me : WriteSide α) :
    (Runs.run step me events).pushed.map OutFrame.elements =
      me.pushed.map OutFrame.elements ++ postedFrames events := by
  induction events generalizing me with
  | nil => exact (List.append_nil _).symm
  | cons event events ih =>
    have hsplit : postedFrames (event :: events) = postedFrames [event] ++ postedFrames events :=
      List.filterMap_append (l := [event])
    rw [Runs.run, ih, pushed_step, hsplit, List.append_assoc]

end IConnectionHandler.WriteSide

/-- No frame is lost, written twice or left behind, whatever the threads do and however the
writes end. -/
theorem outgoing_frames_accounted {α : Type} [PodType α] (events : List (WriteEvent α)) :
    let me := Runs.run WriteSide.step WriteSide.new events
    me.pushed.map OutFrame.elements = postedFrames events ∧ me.pushed.Nodup ∧
      me.outMessageQue.length ≤ me.scheduled + me.posting ∧
      me.written.Nodup ∧ me.written ⊆ me.pushed ∧
      (me.posting = 0 ∧ me.scheduled = 0 ∧ me.starting = [] →
        me.outMessageQue = [] ∧ me.written.Perm me.pushed) := by
  intro me
  have h : WriteSide.Accounted me := WriteSide.accounted_run events
  refine ⟨?_, h.nodup_pushed, h.due, h.nodup_written, h.written_subset, ?_⟩
  · exact WriteSide.pushed_run events WriteSide.new
  · rintro ⟨hposting, hscheduled, hstarting⟩
    exact h.written_perm hposting hscheduled hstarting

-- a run that ends with no post and no call of `SendMessageStart` to come: both frames are written
example :
    let me := Runs.run WriteSide.step (WriteSide.new : WriteSide UInt8)
      [.postOutgoingMessage [7], .post, .sendMessageStart, .postOutgoingMessage [8], .asyncWrite 0,
        .post, .sendMessageStart, .asyncWrite 0]
    me.posting = 0 ∧ me.scheduled = 0 ∧ me.starting = [] ∧
      me.written.map OutFrame.elements =
        [charBytes "   1".toList ++ [7], charBytes "   1".toList ++ [8]] := by
  decide +kernel

/-! ## One frame at a time -/

namespace IConnectionHandler.WriteSide

variable {α : Type}

/-- At most one write is under way, and the frames were written in the order of their pushes. -/
def WrittenInOrder (me : WriteSide α) : Prop :=
  me.inFlight.length ≤ 1 ∧ me.written.Sublist me.pushed

/-- A call of `SendMessageStart` takes a frame only when no frame taken before is still on its
way to `AsyncWrite` or being written. -/
def TakesWhenIdle (me : WriteSide α) : WriteEvent α → Prop
  | .sendMessageStart =>
    me.scheduled ≠ 0 → me.outMessageQue ≠ [] → me.starting = [] ∧ me.inFlight = []
  | _ => True

/-- One frame at most is on its way, and no frame has overtaken another. -/
structure InTurn (me : WriteSide α) : Prop where
  one : me.starting.length + me.inFlight.length ≤ 1
  order : me.written ++ (me.starting ++ me.outMessageQue) = me.pushed

theorem InTurn.writtenInOrder {me : WriteSide α} (h : InTurn me) : WrittenInOrder me := by
  have hone := h.one
  refine ⟨by omega, ?_⟩
  rw [← h.order]
  exact List.sublist_append_left _ _

theorem inTurn_new : InTurn (new : WriteSide α) := ⟨Nat.zero_le 1, rfl⟩

theorem inTurn_push {me : WriteSide α} (h : InTurn me) (wrappedMessage : List α) :
    InTurn (me.push wrappedMessage) := by
  refine ⟨h.one, ?_⟩
  simp only [push, ← h.order, List.append_assoc]

theorem inTurn_sendMessageStart {me : WriteSide α} {scheduled : Nat}
    (hidle : me.outMessageQue ≠ [] → me.starting = [] ∧ me.inFlight = []) (h : InTurn me) :
    InTurn { me with scheduled := scheduled }.sendMessageStart := by
  unfold sendMessageStart
  cases hqueue : me.outMessageQue with
  | nil => exact ⟨h.one, by rw [← h.order, hqueue]⟩
  | cons message rest =>
    obtain ⟨hstarting, hinFlight⟩ := hidle (by rw [hqueue]; exact List.cons_ne_nil _ _)
    refine ⟨?_, ?_⟩
    · simp only [hstarting, hinFlight, List.nil_append, List.length_cons, List.length_nil]
      omega
    · simp only [← h.order, hqueue, List.append_assoc, List.cons_append, List.nil_append]

/-- The only frame that can be written is the oldest that is not. -/
theorem inTurn_asyncWrite {me : WriteSide α} {i : Nat} {message : OutFrame α}
    (hmessage : me.starting[i]? = some message) (h : InTurn me) :
    InTurn { me with
      starting := me.starting.eraseIdx i
      inFlight := me.inFlight ++ [message]
      written := me.written ++ [message] } := by
  have hone := h.one
  obtain ⟨hi, -⟩ := List.getElem?_eq_some_iff.mp hmessage
  have hlength : me.starting.length = 1 := by omega
  obtain ⟨first, hfirst⟩ := List.length_eq_one_iff.mp hlength
  have hi0 : i = 0 := by omega
  rw [hi0, hfirst] at hmessage
  obtain rfl : first = message := Option.some.inj hmessage
  refine ⟨?_, ?_⟩
  · simp only [hi0, hfirst, List.eraseIdx_cons_zero, List.length_nil, List.length_append,
      List.length_singleton]
    omega
  · simp only [← h.order, hi0, hfirst, List.eraseIdx_cons_zero, List.nil_append,
      List.append_assoc]

theorem inTurn_writeEnds {me : WriteSide α} {i : Nat} {error : Bool} (h : InTurn me) :
    InTurn { me with
      inFlight := me.inFlight.eraseIdx i, completions := me.completions ++ [error] } := by
  have hone := h.one
  have herased : (me.inFlight.eraseIdx i).length ≤ me.inFlight.length :=
    (List.eraseIdx_sublist me.inFlight i).length_le
  refine ⟨?_, h.order⟩
  show me.starting.length + (me.inFlight.eraseIdx i).length ≤ 1
  omega

theorem inTurn_sendMessageDone {me : WriteSide α} (h : InTurn me) :
    InTurn me.sendMessageDone := by
  unfold sendMessageDone
  split
  · exact ⟨h.one, h.order⟩
  · exact h

theorem inTurn_step [PodType α] (me : WriteSide α) (event : WriteEvent α) (h : InTurn me)
    (hidle : TakesWhenIdle me event) : InTurn (me.step event) := by
  cases event with
  | postOutgoingMessage message =>
    simp only [step]
    cases wrapWithHeader message with
    | ok wrappedMessage => exact inTurn_push h wrappedMessage
    | error e => exact h
  | post =>
    simp only [step]
    cases me.posting with
    | zero => exact h
    | succ posting => exact ⟨h.one, h.order⟩
  | sendMessageStart =>
    simp only [step]
    cases hscheduled : me.scheduled with
    | zero => exact h
    | succ scheduled =>
      exact inTurn_sendMessageStart (hidle (by rw [hscheduled]; exact Nat.succ_ne_zero _)) h
  | asyncWrite i =>
    simp only [step]
    cases hmessage : me.starting[i]? with
    | none => exact h
    | some message => exact inTurn_asyncWrite hmessage h
  | writeEnds i error =>
    simp only [step]
    cases me.inFlight[i]? with
    | none => exact h
    | some message => exact inTurn_writeEnds h
  | completionHandler i =>
    simp only [step]
    cases me.completions[i]? with
    | none => exact h
    | some error =>
      have herased : InTurn { me with completions := me.completions.eraseIdx i } :=
        ⟨h.one, h.order⟩
      cases error with
      | true => exact herased
      | false => exact inTurn_sendMessageDone herased

theorem inTurn_run [PodType α] {events : List (WriteEvent α)}
    (hevents : Runs.Meets step TakesWhenIdle new events) : InTurn (Runs.run step new events) :=
  Runs.invariant InTurn inTurn_step inTurn_new hevents

/-! ## Two frames at a time -/

/-- The threads that have taken a frame pass it to `AsyncWrite`. -/
theorem inFlight_asyncWrites [PodType α] {n : Nat} {me : WriteSide α}
    (hn : me.starting.length = n) :
    (Runs.run step me (List.replicate n (.asyncWrite 0))).inFlight.length =
      me.inFlight.length + n := by
  induction n generalizing me with
  | zero => rfl
  | succ n ih =>
    obtain ⟨message, rest, hstarting⟩ := List.exists_cons_of_length_eq_add_one hn
    rw [List.replicate_succ, Runs.run]
    have hstep : me.step (.asyncWrite 0) =
        { me with
          starting := rest
          inFlight := me.inFlight ++ [message]
          written := me.written ++ [message] } := by
      simp only [step, hstarting, List.getElem?_cons_zero, List.eraseIdx_cons_zero]
    rw [hstarting, List.length_cons] at hn
    rw [hstep, ih (Nat.succ_injective hn), List.length_append, List.length_singleton]
    omega

/-- A call that takes a frame while another is on its way leads to two writes at a time. -/
theorem two_writes_of_not_takesWhenIdle [PodType α] {me : WriteSide α} {event : WriteEvent α}
    (h : ¬ TakesWhenIdle me event) :
    ∃ n, 1 < (Runs.run step (me.step event) (List.replicate n (.asyncWrite 0))).inFlight.length := by
  cases event with
  | sendMessageStart =>
    simp only [TakesWhenIdle, Classical.not_imp] at h
    obtain ⟨hscheduled, hqueue, hbusy⟩ := h
    obtain ⟨scheduled, hscheduled⟩ := Nat.exists_eq_succ_of_ne_zero hscheduled
    obtain ⟨message, rest, hqueue⟩ := List.exists_cons_of_ne_nil hqueue
    have hstep : me.step .sendMessageStart =
        { me with
          scheduled := scheduled
          outMessageQue := rest
          starting := me.starting ++ [message] } := by
      simp only [step, hscheduled, sendMessageStart, hqueue]
    have hway : 0 < me.starting.length + me.inFlight.length := by
      by_contra hnone
      apply hbusy
      exact ⟨List.length_eq_zero_iff.mp (by omega), List.length_eq_zero_iff.mp (by omega)⟩
    refine ⟨me.starting.length + 1, ?_⟩
    rw [inFlight_asyncWrites (by rw [hstep, List.length_append, List.length_singleton]), hstep]
    show 1 < me.inFlight.length + (me.starting.length + 1)
    omega
  | postOutgoingMessage message => exact absurd trivial h
  | post => exact absurd trivial h
  | asyncWrite i => exact absurd trivial h
  | writeEnds i error => exact absurd trivial h
  | completionHandler i => exact absurd trivial h

end IConnectionHandler.WriteSide

open IConnectionHandler.WriteSide in
/-- The writes are one at a time and in order, in a run and however its threads go on with the
frames they have taken, exactly when no call takes a frame while another is on its way. -/
theorem outgoing_in_order_iff {α : Type} [PodType α] (events : List (WriteEvent α)) :
    (∀ before more, before <+: events → (∀ event ∈ more, ∃ i, event = .asyncWrite i) →
        WrittenInOrder (Runs.run step new (before ++ more))) ↔
      Runs.Meets step TakesWhenIdle new events := by
  constructor
  · intro h
    by_contra hmeets
    obtain ⟨before, event, after, rfl, -, hevent⟩ := Runs.exists_of_not_meets hmeets
    obtain ⟨n, hn⟩ := two_writes_of_not_takesWhenIdle hevent
    have hprefix : before ++ [event] <+: before ++ event :: after :=
      ⟨after, by rw [List.append_assoc, List.singleton_append]⟩
    have horder := h _ (List.replicate n (.asyncWrite 0)) hprefix
      (fun e he => ⟨0, List.eq_of_mem_replicate he⟩)
    rw [Runs.run_append, Runs.run_append] at horder
    exact absurd horder.1 (Nat.not_le_of_lt hn)
  · rintro h before more ⟨after, rfl⟩ hmore
    have hbefore := (Runs.meets_append.mp h).1
    apply InTurn.writtenInOrder
    apply inTurn_run
    rw [Runs.meets_append]
    refine ⟨hbefore, Runs.meets_of_forall ?_ _⟩
    intro me event hevent
    obtain ⟨i, rfl⟩ := hmore event hevent
    trivial

/-- Two messages are posted before the first of them is written. -/
def twoPosts : List (WriteEvent UInt8) :=
  [.postOutgoingMessage [1], .postOutgoingMessage [2], .post, .post, .sendMessageStart,
    .sendMessageStart]

open IConnectionHandler.WriteSide in
/-- Both are written at the same time, in either order. -/
theorem twoPosts_not_in_order :
    (Runs.run step new (twoPosts ++ [.asyncWrite 0, .asyncWrite 0])).inFlight.length = 2 ∧
      ¬ WrittenInOrder (Runs.run step new (twoPosts ++ [.asyncWrite 0, .asyncWrite 0])) ∧
      (Runs.run step new (twoPosts ++ [.asyncWrite 1, .asyncWrite 0])).written.map OutFrame.number =
        [1, 0] := by
  have htwo :
      (Runs.run step new (twoPosts ++ [.asyncWrite 0, .asyncWrite 0])).inFlight.length = 2 := by
    decide +kernel
  refine ⟨htwo, fun h => ?_, by decide +kernel⟩
  have hone := h.1
  omega

end Azulejo
