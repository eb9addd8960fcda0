import Azulejo.Entities.Entity
import Azulejo.Lib.LevelOrder

/-!
# Streaming an entity tree

`operator<<` of `IStreamableEntity` walks the tree with a queue and writes each entity's
`ToString()`. The classes that implement the interface, and their `ToString`, belong to the
program; the text written to the stream is the state. `operator>>` passes a line of its stream to
`FromString`, which is the program's too.
-/

namespace Azulejo

open Stateful LevelOrder

variable {T D : Type}

namespace IStreamableEntity

def DELIM : Char := ':'

/-- `GetDelimeter`. -/
def getDelimeter : Str := [DELIM]

/-- What the program's classes decide: which of them implement `IStreamableEntity`, and their
`ToString`. -/
structure Classes (T D : Type) where
  streamable : T → Bool
  toString : Entity T D → Str

variable (S : Classes T D)

/-- `std::dynamic_pointer_cast<IStreamableEntity>`. -/
def cast (sharedEntity : Option (Entity T D)) : Option (Entity T D) :=
  sharedEntity.filter fun e => S.streamable e.type

def nonStreamable (key : Key) : Exception :=
  .runtimeError ("Attempted to stream a non-streamable entity: ".toList ++ key)

/-- The loop over the members of `front`. -/
def pushMembers : List (Key × Option (Entity T D)) → List (Entity T D) →
    Except Exception (List (Entity T D))
  | [], que => pure que
  | (key, sharedEntity) :: members, que =>
    match cast S sharedEntity with
    | none => throw (nonStreamable key)
    | some se => pushMembers members (que ++ [se])

/-- The loop over the queue, with a bound on its steps. -/
def streamQueue : Nat → List (Entity T D) → EStateM Exception Str Unit
  | _, [] => pure ()
  | 0, _ :: _ => throw .nontermination
  | fuel + 1, front :: que => do
    let que ← lift (pushMembers S front.membersMap que)
    modify fun out => out ++ S.toString front ++ [DELIM]
    streamQueue fuel que

mutual
/-- The entity and all the entities below it, each before its members. -/
def entities : Entity T D → List (Entity T D)
  | .mk key type data membersMap ctors =>
    .mk key type data membersMap ctors :: membersEntities membersMap
def membersEntities : List (Key × Option (Entity T D)) → List (Entity T D)
  | [] => []
  | (_, none) :: members => membersEntities members
  | (_, some member) :: members => entities member ++ membersEntities members
end

/-- `operator<<`. The loop takes each entity of the tree from the queue at most once. -/
def operatorOut (source : Entity T D) : EStateM Exception Str Unit :=
  streamQueue S (entities source).length [source]

/-! ## Extraction -/

/-- A `std::istream`: the characters that were not extracted yet, and its state. -/
structure InputStream where
  unread : Str
  eofbit : Bool
  failbit : Bool
  deriving DecidableEq

/-- A stream on a text, with nothing extracted. -/
def InputStream.new (text : Str) : InputStream := ⟨text, false, false⟩

/-- `std::getline` into an empty string. A stream that is not good only gets its `failbit`. -/
def getline : EStateM Exception InputStream Str := do
  let stream : InputStream ← get
  if stream.eofbit || stream.failbit then
    set { stream with failbit := true }
    return []
  else
    let line := stream.unread.takeWhile (· != '\n')
    match stream.unread.dropWhile (· != '\n') with
    | _ :: rest => set { stream with unread := rest }
    -- the stream ends before the line does
    | [] => set (InputStream.mk [] true line.isEmpty)
    return line

/-- `operator>>`. What `FromString` does changes the state `W` of the program. -/
def operatorIn {W : Type} (fromString : Str → EStateM Exception W Unit) :
    EStateM Exception (InputStream × W) Unit := do
  let line ← zoom Prod.fst (fun p stream => (stream, p.2)) getline
  zoom Prod.snd (fun p w => (p.1, w)) (fromString line)

/-! ## The order of the queue -/

/-- The members that are not null, in key order. -/
def members (e : Entity T D) : List (Entity T D) := e.membersMap.filterMap Prod.snd

/-- All members are streamable, and none is null. -/
def MembersStreamable (e : Entity T D) : Prop :=
  ∀ p ∈ e.membersMap, ∃ m, p.2 = some m ∧ S.streamable m.type = true

instance (e : Entity T D) : Decidable (MembersStreamable S e) :=
  decidable_of_iff (∀ p ∈ e.membersMap, (p.2.any fun m => S.streamable m.type) = true) (by
    unfold MembersStreamable
    simp only [Option.any_eq_true])

theorem membersEntities_eq (ms : List (Key × Option (Entity T D))) :
    membersEntities ms = (ms.filterMap Prod.snd).flatMap entities := by
  induction ms with
  | nil => rw [membersEntities]; rfl
  | cons p ms ih =>
    obtain ⟨key, member⟩ := p
    cases member with
    | none => rw [membersEntities, ih]; rfl
    | some member => rw [membersEntities, ih]; rfl

theorem entities_eq (e : Entity T D) : entities e = e :: (members e).flatMap entities := by
  cases e with
  | mk key type data membersMap ctors =>
    rw [entities, membersEntities_eq]
    rfl

/-- The loop over the members succeeds when all are streamable, and appends them. -/
theorem pushMembers_eq {ms : List (Key × Option (Entity T D))}
    (h : ∀ p ∈ ms, ∃ m, p.2 = some m ∧ S.streamable m.type = true) (que : List (Entity T D)) :
    pushMembers S ms que = .ok (que ++ ms.filterMap Prod.snd) := by
  induction ms generalizing que with
  | nil => simp only [pushMembers, List.filterMap_nil, List.append_nil]; rfl
  | cons p ms ih =>
    obtain ⟨key, member⟩ := p
    rw [List.forall_mem_cons] at h
    obtain ⟨⟨m, hm, hstreamable⟩, hms⟩ := h
    obtain rfl : member = some m := hm
    have hcast : cast S (some m) = some m := Option.filter_some_pos hstreamable
    simp only [pushMembers, hcast]
    rw [ih hms, List.append_assoc]
    rfl

/-- Otherwise it throws, whatever is in the queue. -/
theorem pushMembers_throws {ms : List (Key × Option (Entity T D))}
    (h : ¬ ∀ p ∈ ms, ∃ m, p.2 = some m ∧ S.streamable m.type = true) (que : List (Entity T D)) :
    ∃ key, pushMembers S ms que = .error (nonStreamable key) := by
  induction ms generalizing que with
  | nil => exact absurd (by simp) h
  | cons p ms ih =>
    obtain ⟨key, member⟩ := p
    cases hcast : cast S member with
    | none =>
      refine ⟨key, ?_⟩
      simp only [pushMembers, hcast]
      rfl
    | some se =>
      obtain ⟨rfl, hstreamable⟩ := Option.filter_eq_some_iff.mp hcast
      have hms : ¬ ∀ p ∈ ms, ∃ m, p.2 = some m ∧ S.streamable m.type = true := by
        intro hms
        exact h (List.forall_mem_cons.mpr ⟨⟨se, rfl, hstreamable⟩, hms⟩)
      obtain ⟨key', hthrow⟩ := ih hms (que ++ [se])
      refine ⟨key', ?_⟩
      simp only [pushMembers, hcast]
      exact hthrow

/-- What is written for a list of entities. -/
def written (es : List (Entity T D)) : Str := es.flatMap fun e => S.toString e ++ getDelimeter

theorem written_cons (e : Entity T D) (es : List (Entity T D)) :
    written S (e :: es) = S.toString e ++ getDelimeter ++ written S es := List.flatMap_cons

/-- One turn of the loop over the queue. -/
theorem streamQueue_turn {front : Entity T D} (h : MembersStreamable S front) (fuel : Nat)
    (que : List (Entity T D)) (out : Str) :
    (streamQueue S (fuel + 1) (front :: que)).run out =
      (streamQueue S fuel (que ++ members front)).run
        (out ++ (S.toString front ++ getDelimeter)) := by
  rw [streamQueue, bind_ok (lift_ok (pushMembers_eq S h que) out), bind_ok (EStateM.run_modify _ _),
    List.append_assoc]
  rfl

theorem streamQueue_throws {front : Entity T D} (h : ¬ MembersStreamable S front) (fuel : Nat)
    (que : List (Entity T D)) (out : Str) :
    ∃ key, (streamQueue S (fuel + 1) (front :: que)).run out = .error (nonStreamable key) out := by
  obtain ⟨key, hthrow⟩ := pushMembers_throws S h que
  refine ⟨key, ?_⟩
  rw [streamQueue]
  exact bind_error (lift_error hthrow out)

/-- The loop over the queue writes the entities it visits, until it meets one with a member that
is not streamable: then it throws. -/
theorem streamQueue_run {fuel : Nat} {que : List (Entity T D)}
    (hfuel : (que.flatMap entities).length ≤ fuel) (out : Str) :
    (∀ e ∈ visits members fuel que, MembersStreamable S e) ∧
        (streamQueue S fuel que).run out = .ok () (out ++ written S (visits members fuel que)) ∨
      ∃ before e after key, visits members fuel que = before ++ e :: after ∧
        (∀ e' ∈ before, MembersStreamable S e') ∧ ¬ MembersStreamable S e ∧
        (streamQueue S fuel que).run out = .error (nonStreamable key) (out ++ written S before) := by
  induction fuel generalizing que out with
  | zero =>
    cases que with
    | nil => exact Or.inl ⟨by simp, by rw [visits_nil]; exact congrArg _ (List.append_nil out).symm⟩
    | cons front que =>
      rw [List.flatMap_cons, entities_eq] at hfuel
      simp at hfuel
  | succ fuel ih =>
    cases que with
    | nil => exact Or.inl ⟨by simp, by rw [visits_nil]; exact congrArg _ (List.append_nil out).symm⟩
    | cons front que =>
      rw [visits]
      by_cases hfront : MembersStreamable S front
      · have hrest : ((que ++ members front).flatMap entities).length ≤ fuel := by
          rw [List.flatMap_cons, entities_eq] at hfuel
          rw [List.flatMap_append]
          simp only [List.cons_append, List.length_cons, List.length_append] at hfuel ⊢
          omega
        rw [streamQueue_turn S hfront]
        rcases ih hrest (out ++ (S.toString front ++ getDelimeter)) with ⟨hall, hrun⟩ |
          ⟨before, e, after, key, hvisits, hbefore, he, hrun⟩
        · refine Or.inl ⟨List.forall_mem_cons.mpr ⟨hfront, hall⟩, ?_⟩
          simp only [hrun, written_cons, List.append_assoc]
        · refine Or.inr ⟨front :: before, e, after, key, by rw [hvisits]; rfl,
            List.forall_mem_cons.mpr ⟨hfront, hbefore⟩, he, ?_⟩
          simp only [hrun, written_cons, List.append_assoc]
      · obtain ⟨key, hrun⟩ := streamQueue_throws S hfront fuel que out
        refine Or.inr ⟨[], front, _, key, rfl, by simp, hfront, ?_⟩
        rw [hrun]
        exact congrArg _ (List.append_nil out).symm

/-! ## Trees -/

/-- The entities of a tree, level by level from the root down. No tree has more levels than
entities. -/
def levelOrder (e : Entity T D) : List (Entity T D) :=
  LevelOrder.levelOrder members (entities e).length [e]

/-- All members, at any depth, are streamable, and none is null. -/
def AllStreamable (e : Entity T D) : Prop := ∀ e' ∈ entities e, MembersStreamable S e'

theorem levelOrder_perm (e : Entity T D) : (levelOrder e).Perm (entities e) := by
  have hlength : ([e].flatMap entities).length ≤ (entities e).length := by simp
  have hperm := LevelOrder.levelOrder_perm entities_eq hlength
  rwa [List.flatMap_singleton] at hperm

/-- The loop visits a tree in level order. -/
theorem visits_eq {fuel : Nat} {e : Entity T D} (hfuel : (entities e).length ≤ fuel) :
    visits members fuel [e] = levelOrder e :=
  visits_eq_levelOrder entities_eq (by simpa using hfuel) (by simp)

end IStreamableEntity

end Azulejo
