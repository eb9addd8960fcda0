import Azulejo.DatabaseAdapters.EntitySpecs

/-!
# The bytes, the tree and the dimensions of a hierarchy blob

The constructors of `EntityHierarchyBlob` set the dimensions from the bytes; `Assign` replaces the
bytes, reads the tree from them up to the first NUL, and leaves the dimensions alone. What makes a
run of `Assign` keep the three together is stated for each call, and an induction carries it over
the run.
-/

namespace Azulejo

open Stateful

namespace EntityHierarchyBlob

variable (J : Json)

/-- How an object comes about. -/
inductive Construction where
  | default
  | tree (hierarchyTree : Ptree)
  | text (buff : List UInt8)

def construct : Construction → Except Exception IResource
  | .default => pure new
  | .tree hierarchyTree => ofTree J hierarchyTree
  | .text buff => ofText J buff

/-- The dimensions give the number of bytes, and the tree is what the bytes are read as, or both are
empty. -/
structure Consistent (r : IResource) (bytes : List UInt8) (tree : Ptree) : Prop where
  data : r.data = some bytes
  hierarchyTree : r.hierarchyTree = some tree
  size : r.size = UInt64.ofNat bytes.length
  parsed : J.read bytes = .ok tree ∨ (bytes = [] ∧ tree = LTree.empty)

/-- The representation invariant. -/
def WellFormed (r : IResource) : Prop := ∃ bytes tree, Consistent J r bytes tree

/-- The object after a call of `Assign`. -/
def afterAssign (r : IResource) (buff : Option (List UInt8)) : IResource :=
  finalState ((assignBuffer J buff).run r)

/-- Along the calls the invariant holds, and a call that throws leaves the object as it was. -/
def KeepsInvariant : IResource → List (Option (List UInt8)) → Prop
  | r, [] => WellFormed J r
  | r, buff :: buffs =>
    WellFormed J r ∧
      (∀ err r', (assignBuffer J buff).run r = .error err r' → r' = r) ∧
      KeepsInvariant (afterAssign J r buff) buffs

/-- The bytes before the first NUL. -/
def beforeNul (buff : List UInt8) : List UInt8 := buff.takeWhile (· != 0)

/-- Reading the bytes up to a NUL misses nothing. -/
def ReadWhole (buff : List UInt8) : Prop :=
  ∀ tree, J.read (beforeNul buff) = .ok tree → J.read buff = .ok tree

/-- What a constructor needs: the text of a tree is read as that tree, and a text is read as a
whole. -/
def Construction.Exact : Construction → Prop
  | .default => True
  | .tree hierarchyTree => ∀ text, J.write hierarchyTree = .ok text →
    J.read text = .ok hierarchyTree ∨ (text = [] ∧ hierarchyTree = LTree.empty)
  | .text buff => ReadWhole J buff

/-- What a call of `Assign` needs: the buffer is refused; or it has as many bytes as the dimensions
say and is read as a whole; or it is malformed and has the bytes that are there already. -/
def Harmless (r : IResource) : Option (List UInt8) → Prop
  | none => True
  | some buff =>
    buff = [] ∨
      (∃ tree, J.read (beforeNul buff) = .ok tree ∧ J.read buff = .ok tree ∧
        r.size = UInt64.ofNat buff.length) ∨
      (∃ what, J.read (beforeNul buff) = .error what) ∧ r.data = some buff

/-- Every call of the run is of that kind, on the object the calls before have left. -/
def AllHarmless : IResource → List (Option (List UInt8)) → Prop
  | _, [] => True
  | r, buff :: buffs => Harmless J r buff ∧ AllHarmless (afterAssign J r buff) buffs

/-! ## Constructors -/

variable {J}

theorem makeHierarchyTree_ok {buff : List UInt8} {tree : Ptree} :
    makeHierarchyTree J buff = .ok tree ↔ J.read (beforeNul buff) = .ok tree := by
  unfold makeHierarchyTree beforeNul
  cases J.read (buff.takeWhile (· != 0)) with
  | error what => exact iff_of_false nofun nofun
  | ok tree' =>
    show Except.ok tree' = Except.ok tree ↔ _
    rw [Except.ok.injEq, Except.ok.injEq]

theorem size_hierarchyBlob (tree : Ptree) (bytes : List UInt8) :
    (hierarchyBlob tree bytes).size = UInt64.ofNat bytes.length := by
  show (1 : UInt64) * 1 * UInt64.ofNat bytes.length = _
  rw [UInt64.one_mul, UInt64.one_mul]

theorem ofText_eq (buff : List UInt8) :
    ofText J buff = (makeHierarchyTree J buff).map fun tree => hierarchyBlob tree buff := by
  show (makeHierarchyTree J buff >>= fun tree => pure (hierarchyBlob tree buff)) = _
  cases makeHierarchyTree J buff <;> rfl

/-- An object as a constructor from bytes makes it is well-formed when its tree is what the bytes are
read as. -/
theorem wellFormed_hierarchyBlob {bytes : List UInt8} {tree : Ptree} :
    WellFormed J (hierarchyBlob tree bytes) ↔
      J.read bytes = .ok tree ∨ (bytes = [] ∧ tree = LTree.empty) := by
  constructor
  · rintro ⟨bytes', tree', ⟨⟨⟩⟩, ⟨⟩, _, hparsed⟩
    exact hparsed
  · intro h
    exact ⟨bytes, tree, rfl, rfl, size_hierarchyBlob tree bytes, h⟩

theorem wellFormed_new : WellFormed J new :=
  ⟨[], LTree.empty, rfl, rfl, rfl, Or.inr ⟨rfl, rfl⟩⟩

/-- A constructor that returns makes a well-formed object exactly when it gets what it needs. -/
theorem wellFormed_construct_iff {c : Construction} {r : IResource}
    (h : construct J c = .ok r) : WellFormed J r ↔ c.Exact J := by
  cases c with
  | default =>
    obtain rfl := Except.ok.inj h
    exact iff_of_true wellFormed_new trivial
  | tree hierarchyTree =>
    cases hwrite : J.write hierarchyTree with
    | error what =>
      simp only [construct, ofTree, hwrite] at h
      cases h
    | ok text =>
      rw [construct, ofTree_eq J hwrite] at h
      obtain rfl := Except.ok.inj h
      rw [wellFormed_hierarchyBlob]
      constructor
      · intro hread text' htext'
        obtain rfl := Except.ok.inj (hwrite.symm.trans htext')
        exact hread
      · exact fun hexact => hexact text hwrite
  | text buff =>
    rw [construct, ofText_eq] at h
    cases hmake : makeHierarchyTree J buff with
    | error err =>
      rw [hmake] at h
      cases h
    | ok tree =>
      rw [hmake] at h
      obtain rfl := Except.ok.inj h
      have hread := makeHierarchyTree_ok.mp hmake
      rw [wellFormed_hierarchyBlob]
      constructor
      · rintro (hwhole | ⟨rfl, rfl⟩) tree' hread'
        · obtain rfl := Except.ok.inj (hread.symm.trans hread')
          exact hwhole
        · exact hread'
      · exact fun hexact => Or.inl (hexact tree hread)

/-! ## One call of `Assign` -/

/-- A malformed buffer is stored before it is read. -/
theorem assign_throws {buff : List UInt8} {what : Str} (hne : buff ≠ [])
    (hread : J.read (beforeNul buff) = .error what) (r : IResource) :
    ∃ err, (assignBuffer J (some buff)).run r = .error err { r with data := some buff } :=
  ⟨_, assign_error J hne hread r⟩

/-- A buffer that is refused changes nothing. -/
theorem assign_refused {buff : Option (List UInt8)} (h : buff = none ∨ buff = some [])
    (r : IResource) : ∃ err, (assignBuffer J buff).run r = .error err r := by
  rcases h with rfl | rfl <;> exact ⟨_, rfl⟩

/-- A call on a well-formed object leaves it well-formed, and unchanged when it throws, exactly when
the buffer is harmless. -/
theorem assign_iff {r : IResource} (h : WellFormed J r) (buff : Option (List UInt8)) :
    ((∀ err r', (assignBuffer J buff).run r = .error err r' → r' = r) ∧
      WellFormed J (afterAssign J r buff)) ↔ Harmless J r buff := by
  by_cases hrefused : buff = none ∨ buff = some []
  · obtain ⟨err, hrun⟩ := @assign_refused J buff hrefused r
    refine iff_of_true ⟨?_, ?_⟩ ?_
    · intro err' r' hthrow
      rw [hrun] at hthrow
      exact (EStateM.Result.error.inj hthrow).2.symm
    · rw [afterAssign, hrun]
      exact h
    · rcases hrefused with rfl | rfl
      · exact trivial
      · exact Or.inl rfl
  rw [not_or] at hrefused
  cases buff with
  | none => exact absurd rfl hrefused.1
  | some buff =>
    have hne : buff ≠ [] := fun hnil => hrefused.2 (congrArg some hnil)
    cases hread : J.read (beforeNul buff) with
    | ok tree =>
      have hrun : (assignBuffer J (some buff)).run r = _ := assign_ok J hne hread r
      have hharmless : Harmless J r (some buff) ↔
          J.read buff = .ok tree ∧ r.size = UInt64.ofNat buff.length := by
        simp [Harmless, hne, hread]
      rw [hharmless, afterAssign, hrun]
      constructor
      · rintro ⟨-, bytes, tree', ⟨⟨⟩⟩, ⟨⟩, hsize, hparsed⟩
        exact ⟨hparsed.resolve_right fun hnil => hne hnil.1, hsize⟩
      · rintro ⟨hwhole, hsize⟩
        refine ⟨fun err r' hthrow => ?_, buff, tree, rfl, rfl, hsize, Or.inl hwhole⟩
        cases hthrow
    | error what =>
      obtain ⟨err, hrun⟩ := assign_throws hne hread r
      have hharmless : Harmless J r (some buff) ↔ r.data = some buff := by
        simp [Harmless, hne, hread]
      rw [hharmless, afterAssign, hrun]
      constructor
      · rintro ⟨hsame, -⟩
        rw [← hsame _ _ rfl]
      · intro hdata
        have hsame : { r with data := some buff } = r := by
          rw [← hdata]
        rw [hsame]
        refine ⟨fun err' r' hthrow => ?_, h⟩
        exact (EStateM.Result.error.inj hthrow).2.symm

/-! ## Runs -/

/-- From a well-formed object. -/
theorem keepsInvariant_iff {r : IResource} (h : WellFormed J r)
    (buffs : List (Option (List UInt8))) : KeepsInvariant J r buffs ↔ AllHarmless J r buffs := by
  induction buffs generalizing r with
  | nil => exact iff_of_true h trivial
  | cons buff buffs ih =>
    have hstep := assign_iff h buff
    constructor
    · rintro ⟨-, hthrow, hrest⟩
      have hafter : WellFormed J (afterAssign J r buff) := by
        cases buffs with
        | nil => exact hrest
        | cons _ _ => exact hrest.1
      exact ⟨hstep.mp ⟨hthrow, hafter⟩, (ih hafter).mp hrest⟩
    · rintro ⟨hharmless, hrest⟩
      obtain ⟨hthrow, hafter⟩ := hstep.mpr hharmless
      exact ⟨h, hthrow, (ih hafter).mpr hrest⟩

theorem KeepsInvariant.wellFormed {r : IResource} {buffs : List (Option (List UInt8))}
    (h : KeepsInvariant J r buffs) : WellFormed J r := by
  cases buffs with
  | nil => exact h
  | cons _ _ => exact h.1

variable (J) in
/-- An object that a constructor makes has the invariant along the calls. -/
def RunConsistent (c : Construction) (buffs : List (Option (List UInt8))) : Prop :=
  ∀ r, construct J c = .ok r → KeepsInvariant J r buffs

variable (J) in
/-- **When a hierarchy blob keeps its bytes, tree and dimensions together**, over every
construction and every run of `Assign`. -/
theorem runConsistent_iff (c : Construction) (buffs : List (Option (List UInt8))) :
    RunConsistent J c buffs ↔
      ∀ r, construct J c = .ok r → c.Exact J ∧ AllHarmless J r buffs := by
  constructor
  · intro h r hr
    have hkeeps := h r hr
    have hwellFormed := hkeeps.wellFormed
    exact ⟨(wellFormed_construct_iff hr).mp hwellFormed,
      (keepsInvariant_iff hwellFormed buffs).mp hkeeps⟩
  · intro h r hr
    obtain ⟨hexact, hharmless⟩ := h r hr
    exact (keepsInvariant_iff ((wellFormed_construct_iff hr).mpr hexact) buffs).mpr hharmless

/-- `Assign` on a default constructed object leaves its dimensions 0; a malformed buffer stays in an
object whose `Assign` has thrown. -/
theorem assign_breaks_invariant :
    ¬ RunConsistent (Json.ofText LTree.empty (textBytes "{}")) .default
        [some (textBytes "{}")] ∧
      ¬ RunConsistent ⟨fun _ => .ok [], fun _ => .error "expected value".toList⟩ .default
        [some (textBytes "bad_json")] := by
  constructor
  · intro h
    obtain ⟨-, -, bytes, tree, ⟨⟨⟩⟩, -, hsize, -⟩ := h new rfl
    exact absurd hsize (by decide)
  · intro h
    have hsame := (h new rfl).2.1 _ _ rfl
    cases congrArg IResource.data hsame

end EntityHierarchyBlob

end Azulejo
