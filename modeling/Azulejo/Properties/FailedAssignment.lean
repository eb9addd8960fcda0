import Azulejo.Entities.ObjectSpecs

/-!
# Assignments that fail

`operator=` takes over the key and empties the map of members before it copies the first member of
the source. When a member cannot be copied, the target has lost what it had, and keeps the copies
made before.
-/

namespace Azulejo

open AssocList Stateful

variable {T D : Type}

namespace Heap

variable {heap : Heap T D} {C : EntityClasses T D}

/-! ## Objects that can be copied -/

/-- The copy constructor of `staticType` can copy the object: the cast succeeds, no member is null,
each has a constructor, and this can copy it. -/
inductive CopiesAs (C : EntityClasses T D) (heap : Heap T D) : T → Nat → Prop
  | mk {staticType : T} {a : Nat} {object : Object T D} (found : heap[a]? = some object)
      (cast : C.derivesFrom object.type staticType = true)
      (pointers : ∀ p ∈ object.membersMap, p.2 ≠ none)
      (constructors : ∀ p ∈ object.membersMap, ∀ m ∈ p.2, ∃ t, ConstructorFor heap a m t)
      (members : ∀ p ∈ object.membersMap, ∀ m ∈ p.2, ∀ t, ConstructorFor heap a m t →
        CopiesAs C heap t m) : CopiesAs C heap staticType a

/-- `ConstructEntity` of `owner` can copy the object. -/
def CanConstruct (C : EntityClasses T D) (heap : Heap T D) (owner other : Nat) : Prop :=
  ∃ t, ConstructorFor heap owner other t ∧ CopiesAs C heap t other

/-- The loop throws nothing if `construct` does not, on the heaps that it makes. -/
theorem copyMembers_error {construct : Nat → EStateM Exception (Heap T D) Nat}
    {members : List (Key × Option Nat)} (hpointers : ∀ p ∈ members, p.2 ≠ none)
    (hgrows : ∀ m (heap₁ : Heap T D), heap₁.WellFormed → Constructs heap₁ ((construct m).run heap₁))
    (hconstruct : ∀ p ∈ members, ∀ m ∈ p.2, ∀ heap₁ : Heap T D, heap₁.WellFormed →
      heap <+: heap₁ → ∀ err heap₂, (construct m).run heap₁ = .error err heap₂ →
        err = .nontermination)
    {heap₁ : Heap T D} (hwf : heap₁.WellFormed) (hstart : heap <+: heap₁) {err : Exception}
    {heap₂ : Heap T D} (h : (copyMembers construct members).run heap₁ = .error err heap₂) :
    err = .nontermination := by
  induction members generalizing heap₁ with
  | nil => cases h
  | cons p members ih =>
    obtain ⟨key, pointer⟩ := p
    rw [List.forall_mem_cons] at hpointers hconstruct
    cases pointer with
    | none => exact absurd rfl hpointers.1
    | some m =>
      rw [copyMembers] at h
      rcases of_bind_error h with hm | ⟨copy, heap₃, hm, hrest⟩
      · exact hconstruct.1 m rfl heap₁ hwf hstart err heap₂ hm
      · have hgrown := hgrows m heap₁ hwf
        rw [hm] at hgrown
        rcases of_bind_error hrest with hmembers | ⟨copies, heap₄, -, hpure⟩
        · exact ih hpointers.2 hconstruct.2 hgrown.1 (hstart.trans hgrown.2.1) hmembers
        · cases hpure

/-- A copy of an object that can be copied is made, or never ends. -/
theorem CopiesAs.error {t : T} {a : Nat} (h : CopiesAs C heap t a) {depth : Nat}
    {heap₁ : Heap T D} (hwf : heap₁.WellFormed) (hstart : heap <+: heap₁) {err : Exception}
    {heap₂ : Heap T D} (hrun : (constructAs C depth t a).run heap₁ = .error err heap₂) :
    err = .nontermination := by
  induction h generalizing depth heap₁ err heap₂ with
  | @mk staticType a object found cast pointers constructors _ ih =>
    cases depth with
    | zero =>
      cases hrun
      rfl
    | succ depth =>
      rw [constructAs, bind_ok (deref_run (getElem?_of_isPrefix hstart found)), if_pos cast] at hrun
      rcases of_bind_error hrun with hmembers | ⟨copies, heap₃, -, hallocate⟩
      · refine copyMembers_error pointers
          (fun m _ hwf => constructEntity_constructAs C depth a m hwf) ?_ hwf hstart hmembers
        intro p hp m hm heap₃ hwf₃ hstart₃ err heap₄ hm'
        obtain ⟨t, ht⟩ := constructors p hp m hm
        rw [constructEntity_run (ht.of_isPrefix hstart₃)] at hm'
        exact ih p hp m hm t ht hwf₃ hstart₃ hm'
      · cases hallocate

/-- The loop returns only if every member was copied. -/
theorem copyMembers_ok {depth owner : Nat}
    (ih : ∀ {t : T} {m : Nat} {heap₁ : Heap T D}, heap₁.WellFormed → heap <+: heap₁ →
      m < heap.length → ∀ {copy : Nat} {heap₂ : Heap T D},
        (constructAs C depth t m).run heap₁ = .ok copy heap₂ → CopiesAs C heap t m)
    (howner : owner < heap.length) {members : List (Key × Option Nat)}
    (hpointers : ∀ p ∈ members, ∀ m ∈ p.2, m < heap.length) {heap₁ : Heap T D}
    (hwf : heap₁.WellFormed) (hstart : heap <+: heap₁) {copies : List (Key × Option Nat)}
    {heap₂ : Heap T D} (h : (copyMembers (constructEntity (constructAs C depth) owner)
      members).run heap₁ = .ok copies heap₂) :
    ∀ p ∈ members, ∃ m, p.2 = some m ∧ CanConstruct C heap owner m := by
  induction members generalizing heap₁ copies heap₂ with
  | nil => exact nofun
  | cons p members ihm =>
    obtain ⟨key, pointer⟩ := p
    rw [List.forall_mem_cons] at hpointers
    cases pointer with
    | none => cases h
    | some m =>
      rw [copyMembers] at h
      obtain ⟨copy, heap₃, hm, hrest⟩ := of_bind_ok h
      obtain ⟨more, heap₄, hmore, -⟩ := of_bind_ok hrest
      have hgrown := constructEntity_constructAs C depth owner m hwf
      rw [hm] at hgrown
      obtain ⟨t, hctor, hcopy⟩ := constructEntity_ok hm
      have hlt := hpointers.1 m rfl
      have hback : ConstructorFor heap owner m t := by
        obtain ⟨object, member, hobject, hmember, hctor⟩ := hctor
        rw [← getElem?_of_isPrefix_of_lt hstart howner] at hobject
        rw [← getElem?_of_isPrefix_of_lt hstart hlt] at hmember
        exact ⟨object, member, hobject, hmember, hctor⟩
      rw [List.forall_mem_cons]
      exact ⟨⟨m, rfl, t, hback, ih hwf hstart hlt hcopy⟩,
        ihm hpointers.2 hgrown.1 (hstart.trans hgrown.2.1) hmore⟩

/-- What was copied can be copied. -/
theorem copiesAs_of_run (hheap : heap.WellFormed) {depth : Nat} {t : T} {a : Nat}
    {heap₁ : Heap T D} (hwf : heap₁.WellFormed) (hstart : heap <+: heap₁) (ha : a < heap.length)
    {copy : Nat} {heap₂ : Heap T D} (h : (constructAs C depth t a).run heap₁ = .ok copy heap₂) :
    CopiesAs C heap t a := by
  induction depth generalizing t a heap₁ copy heap₂ with
  | zero => cases h
  | succ depth ih =>
    have hobject := List.getElem?_eq_getElem ha
    rw [constructAs, bind_ok (deref_run (getElem?_of_isPrefix hstart hobject))] at h
    split at h
    · rename_i hcast
      obtain ⟨copies, heap₃, hcopies, -⟩ := of_bind_ok h
      have hmembers := copyMembers_ok (fun hwf hstart hm _ _ hrun => ih hwf hstart hm hrun) ha
        (hheap.get hobject).pointers hwf hstart hcopies
      refine .mk hobject hcast ?_ ?_ ?_
      · intro p hp hnone
        obtain ⟨m, hm, -⟩ := hmembers p hp
        cases hm.symm.trans hnone
      · intro p hp m hm
        obtain ⟨m', hm', t', hctor, -⟩ := hmembers p hp
        obtain rfl := Option.some.inj (hm.symm.trans hm')
        exact ⟨t', hctor⟩
      · intro p hp m hm t₁ ht₁
        obtain ⟨m', hm', t', hctor, hcopies⟩ := hmembers p hp
        obtain rfl := Option.some.inj (hm.symm.trans hm')
        rw [ht₁.unique hctor]
        exact hcopies
    · cases h

/-! ## What a failed assignment leaves -/

/-- The exceptions a caller can see: not the call that never ends, and not the null pointer that is
dereferenced. -/
def Thrown (err : Exception) : Prop := err ≠ .nontermination ∧ err ≠ .nullDereference

instance (err : Exception) : Decidable (Thrown err) := inferInstanceAs (Decidable (_ ∧ _))

/-- The key and the members of the object at `target` are the same. -/
def SameKeyAndMembers (target : Nat) (heap heap' : Heap T D) : Prop :=
  heap'[target]?.map (fun object => (object.key, object.membersMap)) =
    heap[target]?.map fun object => (object.key, object.membersMap)

/-- The target has the key of the source and no members, and the first member of the source cannot
be copied. -/
def NothingLost (C : EntityClasses T D) (heap : Heap T D) (target source : Nat) : Prop :=
  ∃ object other, heap[target]? = some object ∧ heap[source]? = some other ∧
    object.key = other.key ∧ object.membersMap = [] ∧
    ∃ key m, other.membersMap.head? = some (key, some m) ∧ ¬ CanConstruct C heap source m

theorem cleared_eq_self {target : Nat} {object other : Object T D}
    (hobject : heap[target]? = some object) (hkey : object.key = other.key)
    (hmembers : object.membersMap = []) : heap.cleared target other = heap := by
  refine List.ext_getElem? fun a => ?_
  unfold cleared
  by_cases ha : target = a
  · subst ha
    rw [List.getElem?_modify_eq, hobject, ← hkey, ← hmembers]
    rfl
  · rw [List.getElem?_modify_ne _ _ ha]

theorem cleared_target {target : Nat} {object : Object T D} (hobject : heap[target]? = some object)
    (other : Object T D) : (heap.cleared target other)[target]? =
      some { object with key := other.key, membersMap := [] } := by
  unfold cleared
  rw [List.getElem?_modify_eq, hobject]
  rfl

theorem length_cleared (target : Nat) (other : Object T D) (heap : Heap T D) :
    (heap.cleared target other).length = heap.length := List.length_modify _ _ _

/-- The first member could not be copied: the target has the key of the source and no members. -/
theorem sameKeyAndMembers_of_kept {target : Nat} {object other : Object T D} {heap' : Heap T D}
    (hobject : heap[target]? = some object) (hkept : Kept (heap.cleared target other) heap') :
    SameKeyAndMembers target heap heap' ↔ object.key = other.key ∧ object.membersMap = [] := by
  obtain ⟨constructors, -, hafter⟩ := hkept target _ (cleared_target hobject other)
  unfold SameKeyAndMembers
  rw [hafter, hobject, Option.map_some, Option.map_some, Option.some.injEq, Prod.mk.injEq]
  exact and_congr eq_comm eq_comm

/-- A copy that was made stays among the members when a later one fails, and it is new. -/
theorem not_sameKeyAndMembers {target : Nat} {object : Object T D} {heap₁ heap' : Heap T D}
    {key : Key} {copy : Nat} {added : List Key} (hheap : heap.WellFormed)
    (hobject : heap[target]? = some object)
    (hassigned : Assigned target added (heap₁.modify target fun object =>
      { object with membersMap := insertSorted key (some copy) object.membersMap }) heap')
    (htarget : (heap₁[target]?).isSome) (hkey : key ∉ added) (hnew : heap.length ≤ copy) :
    ¬ SameKeyAndMembers target heap heap' := by
  intro hsame
  obtain ⟨object₁, hobject₁⟩ := Option.isSome_iff_exists.mp htarget
  obtain ⟨members, constructors, hafter, hlookup⟩ := hassigned.target
    { object₁ with membersMap := insertSorted key (some copy) object₁.membersMap }
    (by rw [List.getElem?_modify_eq, hobject₁]; rfl)
  unfold SameKeyAndMembers at hsame
  rw [hafter, hobject, Option.map_some, Option.map_some, Option.some.injEq, Prod.mk.injEq] at hsame
  have hcopy : List.lookup key members = some (some copy) :=
    (hlookup key hkey).trans (lookup_insertSorted_self key (some copy) _)
  have hmembers : members = object.membersMap := hsame.2
  rw [hmembers] at hcopy
  have hold := (hheap.get hobject).pointers _ (lookup_mem hcopy) copy rfl
  exact absurd hold (Nat.not_lt.mpr hnew)

/-- `NothingLost`, when the first entry of the source is known. -/
theorem nothingLost_iff {target source m : Nat} {object other : Object T D} {key : Key}
    {members : List (Key × Option Nat)} (hobject : heap[target]? = some object)
    (hother : heap[source]? = some other) (hentries : other.membersMap = (key, some m) :: members) :
    NothingLost C heap target source ↔ object.key = other.key ∧ object.membersMap = [] ∧
      ¬ CanConstruct C heap source m := by
  constructor
  · rintro ⟨object', other', hobject', hother', hkey, hempty, key', m', hhead, hcan⟩
    obtain rfl := Option.some.inj (hobject.symm.trans hobject')
    obtain rfl := Option.some.inj (hother.symm.trans hother')
    rw [hentries] at hhead
    obtain ⟨-, hpointer⟩ := Prod.mk.inj (Option.some.inj hhead)
    obtain rfl := Option.some.inj hpointer
    exact ⟨hkey, hempty, hcan⟩
  · rintro ⟨hkey, hempty, hcan⟩
    exact ⟨object, other, hobject, hother, hkey, hempty, key, m, by rw [hentries]; rfl, hcan⟩

/-- An assignment that throws has found both objects, and the loop over the members throws. -/
theorem copyAssign_error {depth target source : Nat} {err : Exception} {heap' : Heap T D}
    (h : (copyAssign C depth target source).run heap = .error err heap') (herr : Thrown err) :
    ∃ object other, heap[target]? = some object ∧ heap[source]? = some other ∧
      (assignMembers (constructEntity (constructAs C depth) source) target other.membersMap).run
        (heap.cleared target other) = .error err heap' := by
  have hne : target ≠ source := by
    rintro rfl
    rw [copyAssign_self] at h
    cases h
  have hnull : ∀ a : Option (Object T D), heap[target]? = a ∨ heap[source]? = a → a ≠ none := by
    rintro a ha rfl
    rw [copyAssign_none hne ha] at h
    cases h
    exact herr.2 rfl
  obtain ⟨object, hobject⟩ := Option.ne_none_iff_exists'.mp (hnull _ (Or.inl rfl))
  obtain ⟨other, hother⟩ := Option.ne_none_iff_exists'.mp (hnull _ (Or.inr rfl))
  rw [copyAssign_run hne hobject hother] at h
  rcases of_bind_error h with hmembers | ⟨u, heap₁, -, hdata⟩
  · exact ⟨object, other, hobject, hother, hmembers⟩
  · cases hdata

/-- The first member of the source was not copied. -/
theorem sameKeyAndMembers_of_first (hheap : heap.WellFormed) {depth target source m : Nat}
    {object other : Object T D} (hobject : heap[target]? = some object) {err : Exception}
    {heap' : Heap T D} (hcopy : (constructEntity (constructAs C depth) source m).run
      (heap.cleared target other) = .error err heap') (herr : Thrown err) :
    SameKeyAndMembers target heap heap' ↔ object.key = other.key ∧ object.membersMap = [] ∧
      ¬ CanConstruct C heap source m := by
  have hfirst := constructEntity_constructAs C depth source m (hheap.cleared target other)
  rw [hcopy] at hfirst
  rw [sameKeyAndMembers_of_kept hobject hfirst.2]
  constructor
  · rintro ⟨hkey, hempty⟩
    refine ⟨hkey, hempty, ?_⟩
    rintro ⟨t, hctor, hcopies⟩
    rw [cleared_eq_self hobject hkey hempty, constructEntity_run hctor] at hcopy
    exact herr.1 (hcopies.error hheap List.prefix_rfl hcopy)
  · rintro ⟨hkey, hempty, -⟩
    exact ⟨hkey, hempty⟩

/-- It was copied, and a later one was not. -/
theorem not_sameKeyAndMembers_of_later (hheap : heap.WellFormed) {depth target source m : Nat}
    {object other : Object T D} (hobject : heap[target]? = some object) {key : Key}
    {members : List (Key × Option Nat)} (hsorted : Sorted ((key, some m) :: members)) {copy : Nat}
    {heap₁ heap' : Heap T D} (hcopy : (constructEntity (constructAs C depth) source m).run
      (heap.cleared target other) = .ok copy heap₁) {err : Exception}
    (hrest : (assignMembers (constructEntity (constructAs C depth) source) target members).run
      (heap₁.modify target fun object =>
        { object with membersMap := insertSorted key (some copy) object.membersMap }) =
          .error err heap') : ¬ SameKeyAndMembers target heap heap' := by
  have hfirst := constructEntity_constructAs C depth source m (hheap.cleared target other)
  rw [hcopy] at hfirst
  obtain ⟨hwf₁, hstart, hlow, hhigh⟩ := hfirst
  rw [length_cleared] at hlow
  have hassigned := assignMembers_assigned
    (fun m _ hwf => constructEntity_constructAs C depth source m hwf) target members
    (hwf₁.modify target fun object hobject =>
      (hwf₁.get hobject).insert key (some copy) (by
        intro a ha
        cases ha
        exact hhigh))
  rw [hrest] at hassigned
  refine not_sameKeyAndMembers hheap hobject hassigned.2 ?_
    (fun hmem => absurd ((sorted_cons.mp hsorted).1 key hmem) (lt_irrefl key)) hlow
  rw [getElem?_of_isPrefix hstart (cleared_target hobject other)]
  rfl

/-- An assignment that throws has the same key and members before and after exactly if the target
had the key of the source and no members, and the first member could not be copied. -/
theorem copyAssign_error_iff (hheap : heap.WellFormed) {depth target source : Nat}
    {err : Exception} {heap' : Heap T D}
    (h : (copyAssign C depth target source).run heap = .error err heap') (herr : Thrown err) :
    SameKeyAndMembers target heap heap' ↔ NothingLost C heap target source := by
  obtain ⟨object, other, hobject, hother, hmembers⟩ := copyAssign_error h herr
  have hsource := hheap.get hother
  cases hentries : other.membersMap with
  | nil =>
    rw [hentries] at hmembers
    cases hmembers
  | cons p members =>
    obtain ⟨key, pointer⟩ := p
    rw [hentries] at hmembers
    cases pointer with
    | none =>
      cases hmembers
      exact absurd rfl herr.2
    | some m =>
      rw [nothingLost_iff hobject hother hentries]
      rw [assignMembers] at hmembers
      rcases of_bind_error hmembers with hcopy | ⟨copy, heap₁, hcopy, hrest⟩
      · exact sameKeyAndMembers_of_first hheap hobject hcopy herr
      · rw [bind_ok (update_run target _ heap₁)] at hrest
        have hsorted := hsource.members
        rw [hentries] at hsorted
        refine iff_of_false (not_sameKeyAndMembers_of_later hheap hobject hsorted hcopy hrest) ?_
        rintro ⟨hkey, hempty, hcan⟩
        rw [cleared_eq_self hobject hkey hempty] at hcopy
        obtain ⟨t, hctor, hrun⟩ := constructEntity_ok hcopy
        have hm : m < heap.length :=
          hsource.pointers (key, some m) (by rw [hentries]; exact List.mem_cons_self) m rfl
        exact hcan ⟨t, hctor, copiesAs_of_run hheap hheap List.prefix_rfl hm hrun⟩

end Heap

open Heap ObjectCall

/-- In every heap that a program reaches: when an assignment throws, at whichever member and depth,
its target has the key and the members it had before if and only if it had the key of the source and
no members, and it is the first member of the source that cannot be copied. -/
theorem failed_assignment_keeps_iff (C : EntityClasses T D) (calls : List (ObjectCall T D))
    (depth target source : Nat) (err : Exception) (heap' : Heap T D)
    (h : (copyAssign C depth target source).run (Runs.run (step C) [] calls) = .error err heap')
    (herr : Thrown err) :
    SameKeyAndMembers target (Runs.run (step C) [] calls) heap' ↔
      NothingLost C (Runs.run (step C) [] calls) target source :=
  copyAssign_error_iff (run_wellFormed C calls) h herr

/-- A copy of an entity with a member has no constructor for its member. -/
def copyWithMember : List (ObjectCall Unit Unit) :=
  [.create "s".toList () (), .create "m".toList () (), .aggregateMember 0 () (some 1),
    .copyConstruct 2 () 0]

/-- The assignment of the copy fails at its only member. -/
theorem failed_assignment_keeps_iff_noMembers :
    NothingLost oneClass
      (Runs.run (step oneClass) [] (copyWithMember ++ [.create "s".toList () ()])) 4 3 := by
  have hiff := failed_assignment_keeps_iff oneClass
    (copyWithMember ++ [.create "s".toList () ()]) 2 4 3 Entity.badFunctionCall _ rfl (by decide)
  exact hiff.mp rfl

/-- An entity that has a member of its own and another key loses both. -/
theorem failed_assignment_loses_members :
    ¬ ∀ (calls : List (ObjectCall Unit Unit)) (depth target source : Nat) (err : Exception)
      (heap' : Heap Unit Unit), (copyAssign oneClass depth target source).run
        (Runs.run (step oneClass) [] calls) = .error err heap' → Thrown err →
      SameKeyAndMembers target (Runs.run (step oneClass) [] calls) heap' := by
  intro h
  have hsame := h (copyWithMember ++ [.create "t".toList () (), .create "x".toList () (),
    .aggregateMember 4 () (some 5)]) 2 4 3 Entity.badFunctionCall _ rfl (by decide)
  unfold SameKeyAndMembers at hsame
  exact absurd hsame (by decide)

end Azulejo
