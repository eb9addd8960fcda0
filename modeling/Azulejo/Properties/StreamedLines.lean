import Azulejo.Entities.IStreamableEntity
import Azulejo.Lib.Runs
import Azulejo.Lib.SeparatedWords
import Azulejo.Properties.StreamPairs

/-!
# Trees on the lines of a stream

`operator>>` extracts a line and `operator<<` writes none, so a program that keeps several trees on
one stream ends each with a line end. Then every extraction gets the text of one tree, in the order
in which they were written, whatever the earlier calls of `FromString` did with theirs; and the
delimiter splits it into the texts of the entities.
-/

namespace Azulejo

open Stateful LevelOrder SeparatedWords

namespace IStreamableEntity

variable {T D W : Type} (S : Classes T D)

/-! ## Writing -/

/-- Write each tree and a line end behind it. -/
def writeLines : List (Entity T D) → EStateM Exception Str Unit
  | [] => pure ()
  | e :: trees => do
    operatorOut S e
    modify fun out => out ++ ['\n']
    writeLines trees

/-- What is written for a tree. -/
def lineOf (e : Entity T D) : Str := written S (levelOrder e)

/-- The texts of the entities of a tree can be told apart on a line. -/
structure PlainTree (e : Entity T D) : Prop where
  streamable : AllStreamable S e
  delimiter : ∀ e' ∈ entities e, DELIM ∉ S.toString e'
  newline : ∀ e' ∈ entities e, '\n' ∉ S.toString e'

variable {S}

theorem operatorOut_line {e : Entity T D} (h : AllStreamable S e) (out : Str) :
    (operatorOut S e).run out = .ok () (out ++ lineOf S e) := by
  have hqueue : ([e].flatMap entities).length ≤ (entities e).length := by simp
  rcases streamQueue_run S hqueue out with ⟨-, hrun⟩ | ⟨before, e', after, key, hvisits, -, he', -⟩
  · rw [visits_eq le_rfl] at hrun
    exact hrun
  · rw [visits_eq le_rfl] at hvisits
    have hmem : e' ∈ entities e := by
      rw [← (levelOrder_perm e).mem_iff, hvisits]
      simp
    exact absurd (h e' hmem) he'

theorem writeLines_run {trees : List (Entity T D)} (h : ∀ e ∈ trees, AllStreamable S e)
    (out : Str) :
    (writeLines S trees).run out =
      .ok () (out ++ (trees.map (lineOf S)).flatMap fun line => line ++ ['\n']) := by
  induction trees generalizing out with
  | nil => exact congrArg _ (List.append_nil out).symm
  | cons e trees ih =>
    obtain ⟨he, htrees⟩ := List.forall_mem_cons.mp h
    rw [writeLines, bind_ok (operatorOut_line he out), bind_ok (EStateM.run_modify _ _), ih htrees]
    simp only [List.map_cons, List.flatMap_cons, List.append_assoc]

theorem newline_notMem_lineOf {e : Entity T D} (h : PlainTree S e) : '\n' ∉ lineOf S e := by
  intro hmem
  obtain ⟨e', he', hc⟩ := List.mem_flatMap.mp hmem
  rcases List.mem_append.mp hc with htext | hdelim
  · exact h.newline e' ((levelOrder_perm e).mem_iff.mp he') htext
  · exact absurd hdelim (by decide)

theorem written_eq_intercalate (es : List (Entity T D)) :
    written S es = [DELIM].intercalate (es.map S.toString ++ [[]]) := by
  induction es with
  | nil => rfl
  | cons e es ih =>
    rw [written_cons, ih]
    cases es with
    | nil => simp [getDelimeter]
    | cons e' es =>
      simp only [List.map_cons, List.cons_append, List.intercalate_cons_cons]
      rfl

/-- At the delimiters a line falls into the texts of the entities, in level order. -/
theorem splitOn_lineOf {e : Entity T D} (h : PlainTree S e) :
    (lineOf S e).splitOn DELIM = (levelOrder e).map S.toString ++ [[]] := by
  rw [lineOf, written_eq_intercalate]
  refine List.splitOn_intercalate DELIM ?_ (by simp)
  intro text htext
  rcases List.mem_append.mp htext with hmem | hmem
  · obtain ⟨e', he', rfl⟩ := List.mem_map.mp hmem
    exact h.delimiter e' ((levelOrder_perm e).mem_iff.mp he')
  · rw [List.mem_singleton.mp hmem]
    exact List.not_mem_nil

/-! ## Extracting -/

/-- One extraction, whose exception the caller handles. -/
def extract (s : InputStream × W) (fromString : Str → EStateM Exception W Unit) :
    InputStream × W :=
  finalState ((operatorIn fromString).run s)

/-- The calls of `FromString` on the lines, one after another; when there are no more lines, on
nothing. -/
def passLines : List Str → W → List (Str → EStateM Exception W Unit) → W
  | _, w, [] => w
  | [], w, fromString :: more => passLines [] (finalState ((fromString []).run w)) more
  | line :: lines, w, fromString :: more =>
    passLines lines (finalState ((fromString line).run w)) more

theorem extract_eq {stream stream' : InputStream} {line : Str}
    (h : getline.run stream = .ok line stream') (w : W)
    (fromString : Str → EStateM Exception W Unit) :
    extract (stream, w) fromString = (stream', finalState ((fromString line).run w)) := by
  unfold extract operatorIn
  rw [bind_ok (zoom_ok h), zoom_run]
  cases (fromString line).run w <;> rfl

theorem getline_line {line : Str} (h : '\n' ∉ line) (rest : Str) :
    getline.run (InputStream.new (line ++ '\n' :: rest)) = .ok line (InputStream.new rest) := by
  have hall : ∀ c ∈ line, (c != '\n') = true := by
    intro c hc
    rw [bne_iff_ne]
    rintro rfl
    exact h hc
  have hline : (line ++ '\n' :: rest).takeWhile (· != '\n') = line := by
    rw [List.takeWhile_append_of_pos hall]
    simp
  have hrest : (line ++ '\n' :: rest).dropWhile (· != '\n') = '\n' :: rest := by
    rw [List.dropWhile_append_of_pos hall]
    simp
  unfold getline
  rw [bind_ok (EStateM.run_get _)]
  simp only [InputStream.new, Bool.or_self, Bool.false_eq_true, if_false, hline, hrest]
  rfl

/-- Behind the last line nothing is extracted. -/
theorem getline_end {stream : InputStream} (h : stream.unread = []) :
    ∃ stream', getline.run stream = .ok [] stream' ∧ stream'.unread = [] := by
  unfold getline
  rw [bind_ok (EStateM.run_get _)]
  simp only [h, List.takeWhile_nil, List.dropWhile_nil]
  split
  · exact ⟨_, rfl, rfl⟩
  · exact ⟨_, rfl, rfl⟩

theorem extract_end {stream : InputStream} (h : stream.unread = []) (w : W)
    (fromStrings : List (Str → EStateM Exception W Unit)) :
    (Runs.run extract (stream, w) fromStrings).2 = passLines [] w fromStrings := by
  induction fromStrings generalizing stream w with
  | nil => rfl
  | cons fromString more ih =>
    obtain ⟨stream', hline, hunread⟩ := getline_end h
    rw [Runs.run, extract_eq hline]
    exact ih hunread _

theorem extract_lines {lines : List Str} (h : ∀ line ∈ lines, '\n' ∉ line) (w : W)
    (fromStrings : List (Str → EStateM Exception W Unit)) :
    (Runs.run extract (InputStream.new (lines.flatMap fun line => line ++ ['\n']), w)
      fromStrings).2 = passLines lines w fromStrings := by
  induction lines generalizing w fromStrings with
  | nil => exact extract_end rfl w fromStrings
  | cons line lines ih =>
    obtain ⟨hline, hlines⟩ := List.forall_mem_cons.mp h
    cases fromStrings with
    | nil => rfl
    | cons fromString more =>
      have htext : ((line :: lines).flatMap fun line => line ++ ['\n']) =
          line ++ '\n' :: lines.flatMap fun line => line ++ ['\n'] := by
        rw [List.flatMap_cons, List.append_assoc]
        rfl
      rw [htext, Runs.run, extract_eq (getline_line hline _)]
      exact ih hlines _ more

/-! ## Both -/

/-- Any number of trees, each written to one stream with a line end behind it, are read back: the
calls of `FromString` that any number of extractions make, also when some of them throw, get the
lines of the trees in order and then nothing, and the delimiter splits the line of each tree into
the texts of its entities in level order, with nothing behind the last. -/
theorem streamed_trees_are_read_back {trees : List (Entity T D)}
    (h : ∀ e ∈ trees, PlainTree S e) :
    ∃ text, (writeLines S trees).run [] = .ok () text ∧
      (∀ (fromStrings : List (Str → EStateM Exception W Unit)) (w : W),
        (Runs.run extract (InputStream.new text, w) fromStrings).2 =
          passLines (trees.map (lineOf S)) w fromStrings) ∧
      ∀ e ∈ trees, (lineOf S e).splitOn DELIM = (levelOrder e).map S.toString ++ [[]] := by
  refine ⟨_, writeLines_run (fun e he => (h e he).streamable) [], fun fromStrings w => ?_,
    fun e he => splitOn_lineOf (h e he)⟩
  refine extract_lines (fun line hline => ?_) w fromStrings
  obtain ⟨e, he, rfl⟩ := List.mem_map.mp hline
  exact newline_notMem_lineOf (h e he)

/-- A tree of two entities. -/
def keyAndMember : Entity Unit Unit :=
  .mk "a".toList () () [("b".toList, some (keyOnly "b".toList))] []

/-- The call for the first tree throws; the next one gets the second tree, and the last nothing. -/
theorem streamed_trees_are_read_back_firstThrows :
    ∃ text, (writeLines oneClass [keyAndMember, keyOnly "c".toList]).run [] = .ok () text ∧
      (Runs.run extract (InputStream.new text, [])
        [fun _ => throw .nullDereference, keepText, keepText]).2 = ["c:".toList, []] := by
  obtain ⟨text, hwrite, hread, -⟩ := @streamed_trees_are_read_back _ _ (List Str) oneClass
    [keyAndMember, keyOnly "c".toList] (by
      intro e he
      simp only [List.mem_cons, List.not_mem_nil, or_false] at he
      rcases he with rfl | rfl
      · exact ⟨by unfold AllStreamable; decide, by decide, by decide⟩
      · exact ⟨by unfold AllStreamable; decide, by decide, by decide⟩)
  refine ⟨text, hwrite, ?_⟩
  rw [hread]
  rfl

end IStreamableEntity

end Azulejo
