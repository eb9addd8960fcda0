import Azulejo.Entities.IStreamableEntity

/-!
# Two entities on one stream

`operator<<` ends the text of an entity with the delimiter, and `operator>>` extracts a line. No
line end is written, so the first extraction takes all that was written, and nothing is left for a
second one.
-/

namespace Azulejo

open Stateful

namespace IStreamableEntity

variable {T D : Type} (S : Classes T D)

/-- An entity without members whose text has neither a delimiter nor a line end in it. -/
structure PlainText (e : Entity T D) : Prop where
  members : e.membersMap = []
  delimiter : DELIM ∉ S.toString e
  newline : '\n' ∉ S.toString e

/-- A `FromString` that keeps the texts it is passed. -/
def keepText (line : Str) : EStateM Exception (List Str) Unit := modify fun texts => texts ++ [line]

/-- The text written for the entity, with its delimiter or without. -/
def WrittenFor (e : Entity T D) (text : Str) : Prop :=
  text = S.toString e ++ getDelimeter ∨ text = S.toString e

/-- What is extracted first from a stream to which `a` and then `b` were written is the text of
`a`, and what is extracted then is the text of `b`. -/
def StreamsCompose (a b : Entity T D) : Prop :=
  ∃ text first second stream,
    (do operatorOut S a; operatorOut S b).run [] = .ok () text ∧
    (do operatorIn keepText; operatorIn keepText).run (InputStream.new text, []) =
      .ok () (stream, [first, second]) ∧
    WrittenFor S a first ∧ WrittenFor S b second

/-! ## Writing -/

theorem entities_of_no_members {e : Entity T D} (h : e.membersMap = []) : entities e = [e] := by
  rw [entities_eq, members, h]
  rfl

theorem operatorOut_of_no_members {e : Entity T D} (h : e.membersMap = []) (out : Str) :
    (operatorOut S e).run out = .ok () (out ++ (S.toString e ++ getDelimeter)) := by
  have hstreamable : MembersStreamable S e := by
    intro p hp
    rw [h] at hp
    cases hp
  have hmembers : members e = [] := by
    unfold members
    rw [h]
    rfl
  unfold operatorOut
  rw [entities_of_no_members h, List.length_singleton, streamQueue_turn S hstreamable, hmembers]
  rfl

theorem operatorOut_pair {a b : Entity T D} (ha : a.membersMap = []) (hb : b.membersMap = []) :
    (do operatorOut S a; operatorOut S b).run [] =
      .ok () (S.toString a ++ getDelimeter ++ (S.toString b ++ getDelimeter)) := by
  rw [bind_ok (operatorOut_of_no_members S ha []), operatorOut_of_no_members S hb]
  rfl

/-! ## Extracting -/

/-- Without a line end in it, the rest of a stream is one line. -/
theorem getline_rest {text : Str} (h : '\n' ∉ text) :
    getline.run (InputStream.new text) = .ok text ⟨[], true, text.isEmpty⟩ := by
  have hall : ∀ c ∈ text, (c != '\n') = true := by
    intro c hc
    rw [bne_iff_ne]
    rintro rfl
    exact h hc
  have hline : text.takeWhile (· != '\n') = text := by
    simpa using @List.takeWhile_append_of_pos _ _ text [] hall
  have hrest : text.dropWhile (· != '\n') = [] := by
    simpa using @List.dropWhile_append_of_pos _ _ text [] hall
  unfold getline
  rw [bind_ok (EStateM.run_get _)]
  simp only [InputStream.new, Bool.or_self, Bool.false_eq_true, if_false, hline, hrest]
  rfl

/-- At its end a stream fails. -/
theorem getline_eof {stream : InputStream} (h : stream.eofbit = true) :
    getline.run stream = .ok [] { stream with failbit := true } := by
  unfold getline
  rw [bind_ok (EStateM.run_get _)]
  simp only [h, Bool.true_or, if_true]
  rfl

theorem operatorIn_run {W : Type} (fromString : Str → EStateM Exception W Unit)
    {stream stream' : InputStream} {line : Str} (h : getline.run stream = .ok line stream') (w : W) :
    (operatorIn fromString).run (stream, w) =
      (zoom Prod.snd (fun p w => (p.1, w)) (fromString line)).run (stream', w) := by
  unfold operatorIn
  exact bind_ok (zoom_ok h)

/-- `FromString` is passed all that was written, and then nothing. -/
theorem operatorIn_twice {text : Str} (h : '\n' ∉ text) :
    (do operatorIn keepText; operatorIn keepText).run (InputStream.new text, []) =
      .ok () (⟨[], true, true⟩, [text, []]) := by
  have hfirst : (operatorIn keepText).run (InputStream.new text, []) =
      .ok () (⟨[], true, text.isEmpty⟩, [text]) := by
    rw [operatorIn_run keepText (getline_rest h)]
    rfl
  rw [bind_ok hfirst, operatorIn_run keepText (getline_eof rfl)]
  rfl

/-! ## Both -/

theorem newline_notMem_delimeter : '\n' ∉ getDelimeter := by decide

/-- The first extraction takes more than the text of the first entity. -/
theorem not_streamsCompose {a b : Entity T D} (ha : PlainText S a) (hb : PlainText S b) :
    ¬ StreamsCompose S a b := by
  rintro ⟨text, first, second, stream, hout, hin, hfirst, -⟩
  rw [operatorOut_pair S ha.members hb.members] at hout
  obtain rfl : S.toString a ++ getDelimeter ++ (S.toString b ++ getDelimeter) = text :=
    (EStateM.Result.ok.inj hout).2
  have hnewline : '\n' ∉ S.toString a ++ getDelimeter ++ (S.toString b ++ getDelimeter) := by
    simp only [List.mem_append, not_or]
    exact ⟨⟨ha.newline, newline_notMem_delimeter⟩, hb.newline, newline_notMem_delimeter⟩
  rw [operatorIn_twice hnewline] at hin
  have htexts := (Prod.mk.inj (EStateM.Result.ok.inj hin).2).2
  obtain rfl : S.toString a ++ getDelimeter ++ (S.toString b ++ getDelimeter) = first :=
    (List.cons.inj htexts).1
  have hlonger : (S.toString a ++ getDelimeter).length <
      (S.toString a ++ getDelimeter ++ (S.toString b ++ getDelimeter)).length := by
    simp [getDelimeter]
  rcases hfirst with hwith | hwithout
  · rw [hwith] at hlonger
    exact absurd hlonger (Nat.lt_irrefl _)
  · rw [hwithout, List.length_append] at hlonger
    omega

/-- Entities of one class that stream their key. -/
def oneClass : Classes Unit Unit := ⟨fun _ => true, Entity.key⟩

def keyOnly (key : Key) : Entity Unit Unit := .mk key () () [] []

theorem not_streamsCompose_keys : ¬ StreamsCompose oneClass (keyOnly "a".toList) (keyOnly []) :=
  not_streamsCompose oneClass ⟨rfl, by decide, by decide⟩ ⟨rfl, by decide, by decide⟩

/-- Of `a:b:` the first extraction takes all. -/
theorem streams_do_not_compose :
    ¬ ∀ a b : Entity Unit Unit, PlainText oneClass a → PlainText oneClass b →
      StreamsCompose oneClass a b := by
  intro h
  obtain ⟨text, first, second, stream, hout, hin, hfirst, -⟩ :=
    h (keyOnly "a".toList) (keyOnly "b".toList) ⟨rfl, by decide, by decide⟩
      ⟨rfl, by decide, by decide⟩
  obtain rfl : "a:b:".toList = text := (EStateM.Result.ok.inj hout).2
  obtain rfl : "a:b:".toList = first :=
    (List.cons.inj (Prod.mk.inj (EStateM.Result.ok.inj hin).2).2).1
  rcases hfirst with hwith | hwithout
  · exact absurd hwith (by decide)
  · exact absurd hwithout (by decide)

end IStreamableEntity

end Azulejo
