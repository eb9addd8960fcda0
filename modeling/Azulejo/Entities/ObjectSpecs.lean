import Azulejo.Entities.Objects

/-!
# What the calls on entity objects do

The runs of the operations of `Heap`. A heap is well formed if the maps of its objects are in key
order and its pointers lead to objects; every call keeps it so. Copying makes new objects and
changes nothing else, unless it fails: then an object may have got an empty constructor.
-/

namespace Azulejo

open AssocList Stateful

variable {T D : Type}

/-! ## Well-formed heaps -/

/-- The maps of an object are in key order, and its pointers are below `limit`. -/
structure Object.WellFormed (limit : Nat) (object : Object T D) : Prop where
  members : Sorted object.membersMap
  constructors : Sorted object.keyToEntityConstructorMap
  pointers : ∀ p ∈ object.membersMap, ∀ a ∈ p.2, a < limit

theorem Object.WellFormed.mono {limit limit' : Nat} {object : Object T D}
    (h : object.WellFormed limit) (hle : limit ≤ limit') : object.WellFormed limit' :=
  ⟨h.members, h.constructors, fun p hp a ha => lt_of_lt_of_le (h.pointers p hp a ha) hle⟩

/-- A new entry of the map of members. -/
theorem Object.WellFormed.insert {limit : Nat} {object : Object T D} (h : object.WellFormed limit)
    (key : Key) (pointer : Option Nat) (hpointer : ∀ a ∈ pointer, a < limit) :
    Object.WellFormed limit
      { object with membersMap := insertSorted key pointer object.membersMap } := by
  refine ⟨sorted_insertSorted h.members pointer, h.constructors, ?_⟩
  intro p hp a ha
  rcases mem_of_mem_insertSorted hp with rfl | hp
  · exact hpointer a ha
  · exact h.pointers p hp a ha

namespace Heap

def WellFormed (heap : Heap T D) : Prop :=
  ∀ object ∈ heap, object.WellFormed heap.length

theorem wellFormed_nil : WellFormed ([] : Heap T D) := nofun

variable {heap : Heap T D}

theorem WellFormed.get (h : heap.WellFormed) {address : Nat} {object : Object T D}
    (hobject : heap[address]? = some object) : object.WellFormed heap.length :=
  h object (List.mem_of_getElem? hobject)

theorem WellFormed.append (h : heap.WellFormed) {object : Object T D}
    (hobject : object.WellFormed (heap.length + 1)) : WellFormed (heap ++ [object]) := by
  intro o ho
  rw [List.length_append, List.length_singleton]
  rcases List.mem_append.mp ho with ho | ho
  · exact (h o ho).mono (Nat.le_succ _)
  · rw [List.mem_singleton.mp ho]
    exact hobject

theorem WellFormed.modify (h : heap.WellFormed) (address : Nat) {f : Object T D → Object T D}
    (hf : ∀ object, heap[address]? = some object → (f object).WellFormed heap.length) :
    WellFormed (heap.modify address f) := by
  intro o ho
  rw [List.length_modify]
  obtain ⟨a, ha⟩ := List.mem_iff_getElem?.mp ho
  by_cases heq : address = a
  · subst heq
    rw [List.getElem?_modify_eq] at ha
    obtain ⟨object, hobject, rfl⟩ := Option.map_eq_some_iff.mp ha
    exact hf object hobject
  · rw [List.getElem?_modify_ne _ _ heq] at ha
    exact h.get ha

/-! ## Runs of the operations -/

theorem deref_cases (heap : Heap T D) (address : Nat) :
    (∃ object, heap[address]? = some object ∧ (deref address).run heap = .ok object heap) ∨
      heap[address]? = none ∧ (deref address).run heap = .error .nullDereference heap := by
  unfold deref
  rw [bind_ok (EStateM.run_get heap)]
  cases hobject : heap[address]? with
  | some object => exact Or.inl ⟨object, rfl, rfl⟩
  | none => exact Or.inr ⟨rfl, rfl⟩

theorem deref_run {address : Nat} {object : Object T D} (h : heap[address]? = some object) :
    (deref address).run heap = .ok object heap := by
  rcases deref_cases heap address with ⟨object', hobject, hrun⟩ | ⟨hnone, -⟩
  · rw [h] at hobject
    cases hobject
    exact hrun
  · rw [h] at hnone
    cases hnone

theorem getKey_run {address : Nat} {object : Object T D} (h : heap[address]? = some object)
    (hkey : object.key ≠ []) : (getKey address).run heap = .ok object.key heap := by
  unfold getKey
  rw [bind_ok (deref_run h)]
  simp only [if_neg hkey]
  rfl

/-- `GetKey` returns the key of an object that has one. -/
theorem getKey_cases (heap : Heap T D) (address : Nat) :
    (∃ object, heap[address]? = some object ∧ object.key ≠ [] ∧
        (getKey address).run heap = .ok object.key heap) ∨
      (∀ object, heap[address]? = some object → object.key = []) ∧
        ∃ err, (getKey address).run heap = .error err heap := by
  rcases deref_cases heap address with ⟨object, hobject, hrun⟩ | ⟨hnone, hrun⟩
  · by_cases hkey : object.key = []
    · refine Or.inr ⟨?_, Entity.keyNotSet, ?_⟩
      · intro o ho
        rw [hobject] at ho
        cases ho
        exact hkey
      · unfold getKey
        rw [bind_ok hrun]
        simp only [if_pos hkey]
        rfl
    · exact Or.inl ⟨object, hobject, hkey, getKey_run hobject hkey⟩
  · refine Or.inr ⟨?_, .nullDereference, bind_error hrun⟩
    intro o ho
    rw [hnone] at ho
    cases ho

theorem update_run (address : Nat) (f : Object T D → Object T D) (heap : Heap T D) :
    (update address f).run heap = .ok () (heap.modify address f) := rfl

theorem allocate_run (object : Object T D) (heap : Heap T D) :
    (allocate object).run heap = .ok heap.length (heap ++ [object]) := rfl

/-! ## Copying -/

/-- The constructors are the same, but for added entries without a constructor. -/
def OnlyEmptyAdded (constructors constructors' : List (Key × Option T)) : Prop :=
  ∀ key, List.lookup key constructors' = List.lookup key constructors ∨
    List.lookup key constructors = none ∧ List.lookup key constructors' = some none

theorem OnlyEmptyAdded.refl (constructors : List (Key × Option T)) :
    OnlyEmptyAdded constructors constructors := fun _ => Or.inl rfl

theorem OnlyEmptyAdded.trans {cs cs' cs'' : List (Key × Option T)} (h : OnlyEmptyAdded cs cs')
    (h' : OnlyEmptyAdded cs' cs'') : OnlyEmptyAdded cs cs'' := by
  intro key
  rcases h key with heq | ⟨hnone, hempty⟩
  · rw [← heq]
    exact h' key
  · rcases h' key with heq' | ⟨hnone', -⟩
    · exact Or.inr ⟨hnone, heq'.trans hempty⟩
    · rw [hempty] at hnone'
      cases hnone'

theorem onlyEmptyAdded_insertSorted {key : Key} {cs : List (Key × Option T)}
    (h : List.lookup key cs = none) : OnlyEmptyAdded cs (insertSorted key none cs) := by
  intro j
  by_cases hj : j = key
  · subst hj
    exact Or.inr ⟨h, lookup_insertSorted_self _ _ _⟩
  · exact Or.inl (lookup_insertSorted_ne hj _ _)

/-- The object is as before, but for added entries without a constructor. -/
def KeptAt (object : Object T D) (heap : Heap T D) (a : Nat) : Prop :=
  ∃ constructors, OnlyEmptyAdded object.keyToEntityConstructorMap constructors ∧
    heap[a]? = some { object with keyToEntityConstructorMap := constructors }

theorem keptAt_of_eq {object : Object T D} {a : Nat} (h : heap[a]? = some object) :
    KeptAt object heap a :=
  ⟨object.keyToEntityConstructorMap, .refl _, h⟩

/-- The objects are as before, but for added entries without a constructor. -/
def Kept (heap heap' : Heap T D) : Prop :=
  ∀ (a : Nat) (object : Object T D), heap[a]? = some object → KeptAt object heap' a

theorem Kept.refl (heap : Heap T D) : Kept heap heap := fun _ _ h => keptAt_of_eq h

theorem Kept.trans {heap' heap'' : Heap T D} (h : Kept heap heap') (h' : Kept heap' heap'') :
    Kept heap heap'' := by
  intro a object hobject
  obtain ⟨constructors, hadded, ho⟩ := h a object hobject
  obtain ⟨constructors', hadded', ho'⟩ := h' a _ ho
  exact ⟨constructors', hadded.trans hadded', ho'⟩

theorem getElem?_of_isPrefix {heap' : Heap T D} (h : heap <+: heap') {a : Nat} {object : Object T D}
    (hobject : heap[a]? = some object) : heap'[a]? = some object := by
  obtain ⟨more, rfl⟩ := h
  rw [List.getElem?_append_left (List.getElem?_eq_some_iff.mp hobject).1, hobject]

/-- What stood in a heap before it grew. -/
theorem getElem?_of_isPrefix_of_lt {heap' : Heap T D} (h : heap <+: heap') {a : Nat}
    (ha : a < heap.length) : heap[a]? = heap'[a]? := by
  rw [List.getElem?_eq_getElem ha, getElem?_of_isPrefix h (List.getElem?_eq_getElem ha)]

theorem Kept.of_isPrefix {heap' : Heap T D} (h : heap <+: heap') : Kept heap heap' :=
  fun _ _ hobject => keptAt_of_eq (getElem?_of_isPrefix h hobject)

/-- How the construction of a copy ends: a new object after the others, or an exception. -/
def Constructs (heap : Heap T D) : EStateM.Result Exception (Heap T D) Nat → Prop
  | .ok copy heap' =>
    heap'.WellFormed ∧ heap <+: heap' ∧ heap.length ≤ copy ∧ copy < heap'.length
  | .error _ heap' => heap'.WellFormed ∧ Kept heap heap'

/-- How the loop over `members` ends. -/
def CopiesAll (heap : Heap T D) (members : List (Key × Option Nat)) :
    EStateM.Result Exception (Heap T D) (List (Key × Option Nat)) → Prop
  | .ok copies heap' =>
    heap'.WellFormed ∧ heap <+: heap' ∧ keys copies = keys members ∧
      ∀ p ∈ copies, ∀ a ∈ p.2, heap.length ≤ a ∧ a < heap'.length
  | .error _ heap' => heap'.WellFormed ∧ Kept heap heap'

/-- The entity at `owner` has a constructor under the key of `other`: that of `staticType`. -/
def ConstructorFor (heap : Heap T D) (owner other : Nat) (staticType : T) : Prop :=
  ∃ object member : Object T D, heap[owner]? = some object ∧ heap[other]? = some member ∧
    member.key ≠ [] ∧
    List.lookup member.key object.keyToEntityConstructorMap = some (some staticType)

theorem constructEntity_run {construct : T → Nat → EStateM Exception (Heap T D) Nat}
    {owner other : Nat} {staticType : T} (h : ConstructorFor heap owner other staticType) :
    (constructEntity construct owner other).run heap = (construct staticType other).run heap := by
  obtain ⟨object, member, hobject, hmember, hkey, hlookup⟩ := h
  unfold constructEntity
  rw [bind_ok (getKey_run hmember hkey), bind_ok (deref_run hobject), hlookup]

/-- What `ConstructEntity` has done when it returns. -/
theorem constructEntity_ok {construct : T → Nat → EStateM Exception (Heap T D) Nat}
    {owner other copy : Nat} {heap' : Heap T D}
    (h : (constructEntity construct owner other).run heap = .ok copy heap') :
    ∃ staticType, ConstructorFor heap owner other staticType ∧
      (construct staticType other).run heap = .ok copy heap' := by
  unfold constructEntity at h
  rcases getKey_cases heap other with ⟨member, hmember, hne, hkey⟩ | ⟨-, err, hkey⟩
  · rw [bind_ok hkey] at h
    rcases deref_cases heap owner with ⟨object, hobject, hderef⟩ | ⟨-, hderef⟩
    · rw [bind_ok hderef] at h
      cases hlookup : List.lookup member.key object.keyToEntityConstructorMap with
      | none =>
        rw [hlookup] at h
        cases h
      | some constructor =>
        cases constructor with
        | none =>
          rw [hlookup] at h
          cases h
        | some staticType =>
          rw [hlookup] at h
          exact ⟨staticType, ⟨object, member, hobject, hmember, hne, hlookup⟩, h⟩
    · rw [bind_error hderef] at h
      cases h
  · rw [bind_error hkey] at h
    cases h

theorem ConstructorFor.unique {owner other : Nat} {t t' : T}
    (h : ConstructorFor heap owner other t) (h' : ConstructorFor heap owner other t') : t = t' := by
  obtain ⟨object, member, hobject, hmember, -, hlookup⟩ := h
  obtain ⟨object', member', hobject', hmember', -, hlookup'⟩ := h'
  obtain rfl := Option.some.inj (hobject.symm.trans hobject')
  obtain rfl := Option.some.inj (hmember.symm.trans hmember')
  exact Option.some.inj (Option.some.inj (hlookup.symm.trans hlookup'))

theorem ConstructorFor.of_isPrefix {owner other : Nat} {t : T} {heap' : Heap T D}
    (h : ConstructorFor heap owner other t) (hstart : heap <+: heap') :
    ConstructorFor heap' owner other t := by
  obtain ⟨object, member, hobject, hmember, hrest⟩ := h
  exact ⟨object, member, getElem?_of_isPrefix hstart hobject, getElem?_of_isPrefix hstart hmember,
    hrest⟩

theorem constructEntity_constructs {construct : T → Nat → EStateM Exception (Heap T D) Nat}
    (hconstruct : ∀ t m heap, heap.WellFormed → Constructs heap ((construct t m).run heap))
    (owner other : Nat) (hheap : heap.WellFormed) :
    Constructs heap ((constructEntity construct owner other).run heap) := by
  unfold constructEntity
  rcases getKey_cases heap other with ⟨object, -, -, hkey⟩ | ⟨-, err, herr⟩
  · rw [bind_ok hkey]
    rcases deref_cases heap owner with ⟨o, ho, hderef⟩ | ⟨-, hderef⟩
    · rw [bind_ok hderef]
      cases hlookup : List.lookup object.key o.keyToEntityConstructorMap with
      | some constructor =>
        cases constructor with
        | some staticType => exact hconstruct staticType other heap hheap
        | none => exact ⟨hheap, Kept.refl heap⟩
      | none =>
        -- `operator[]` has added the key
        simp only
        rw [bind_ok (update_run owner _ heap)]
        refine ⟨hheap.modify _ ?_, ?_⟩
        · intro o' ho'
          have hwf := hheap.get ho'
          exact ⟨hwf.members, sorted_insertSorted hwf.constructors none, hwf.pointers⟩
        · intro a o' ho'
          by_cases ha : owner = a
          · subst ha
            obtain rfl := Option.some.inj (ho.symm.trans ho')
            refine ⟨_, onlyEmptyAdded_insertSorted hlookup, ?_⟩
            rw [List.getElem?_modify_eq, ho]
            rfl
          · apply keptAt_of_eq
            rw [List.getElem?_modify_ne _ _ ha, ho']
    · rw [bind_error hderef]
      exact ⟨hheap, Kept.refl heap⟩
  · rw [bind_error herr]
    exact ⟨hheap, Kept.refl heap⟩

theorem copyMembers_copiesAll {construct : Nat → EStateM Exception (Heap T D) Nat}
    (hconstruct : ∀ m heap, heap.WellFormed → Constructs heap ((construct m).run heap))
    (members : List (Key × Option Nat)) (hheap : heap.WellFormed) :
    CopiesAll heap members ((copyMembers construct members).run heap) := by
  induction members generalizing heap with
  | nil => exact ⟨hheap, List.prefix_rfl, rfl, nofun⟩
  | cons p members ih =>
    obtain ⟨key, pointer⟩ := p
    cases pointer with
    | none => exact ⟨hheap, Kept.refl heap⟩
    | some m =>
      rw [copyMembers]
      have hfirst := hconstruct m heap hheap
      cases hrun : (construct m).run heap with
      | error err heap₁ =>
        rw [hrun] at hfirst
        rw [bind_error hrun]
        exact hfirst
      | ok copy heap₁ =>
        rw [hrun] at hfirst
        obtain ⟨hwf, hstart, hlow, hhigh⟩ := hfirst
        have hrest := ih hwf
        rw [bind_ok hrun]
        cases hmembers : (copyMembers construct members).run heap₁ with
        | error err heap₂ =>
          rw [hmembers] at hrest
          rw [bind_error hmembers]
          exact ⟨hrest.1, (Kept.of_isPrefix hstart).trans hrest.2⟩
        | ok copies heap₂ =>
          rw [hmembers] at hrest
          obtain ⟨hwf₂, hstart₂, hkeys, hcopies⟩ := hrest
          rw [bind_ok hmembers]
          refine ⟨hwf₂, hstart.trans hstart₂, by rw [keys_cons, keys_cons, hkeys], ?_⟩
          intro p hp a ha
          rcases List.mem_cons.mp hp with rfl | hp
          · cases ha
            exact ⟨hlow, lt_of_lt_of_le hhigh hstart₂.length_le⟩
          · obtain ⟨hle, hlt⟩ := hcopies p hp a ha
            exact ⟨le_trans hstart.length_le hle, hlt⟩

/-- Copying makes new objects after the others; when it throws, nothing but constructors has
changed. -/
theorem constructAs_constructs (C : EntityClasses T D) (depth : Nat) (staticType : T)
    (other : Nat) (hheap : heap.WellFormed) :
    Constructs heap ((constructAs C depth staticType other).run heap) := by
  induction depth generalizing staticType other heap with
  | zero => exact ⟨hheap, Kept.refl heap⟩
  | succ depth ih =>
    rw [constructAs]
    rcases deref_cases heap other with ⟨object, hobject, hderef⟩ | ⟨-, hderef⟩
    · rw [bind_ok hderef]
      split
      · have hmembers := copyMembers_copiesAll (fun m _ hwf => constructEntity_constructs
          (fun t m _ hwf => ih t m hwf) other m hwf) object.membersMap hheap
        cases hrun : (copyMembers (constructEntity (constructAs C depth) other)
            object.membersMap).run heap with
        | error err heap₁ =>
          rw [hrun] at hmembers
          rw [bind_error hrun]
          exact hmembers
        | ok copies heap₁ =>
          rw [hrun] at hmembers
          obtain ⟨hwf, hstart, hkeys, hcopies⟩ := hmembers
          rw [bind_ok hrun, allocate_run]
          refine ⟨hwf.append ⟨?_, List.Pairwise.nil, ?_⟩, hstart.trans (List.prefix_append _ _),
            hstart.length_le, ?_⟩
          · show (keys copies).Pairwise (· < ·)
            rw [hkeys]
            exact (hheap.get hobject).members
          · intro p hp a ha
            exact Nat.lt_succ_of_lt (hcopies p hp a ha).2
          · rw [List.length_append, List.length_singleton]
            exact Nat.lt_succ_self _
      · exact ⟨hheap, Kept.refl heap⟩
    · rw [bind_error hderef]
      exact ⟨hheap, Kept.refl heap⟩

theorem constructEntity_constructAs (C : EntityClasses T D) (depth owner other : Nat)
    (hheap : heap.WellFormed) :
    Constructs heap ((constructEntity (constructAs C depth) owner other).run heap) :=
  constructEntity_constructs (fun t m _ hwf => constructAs_constructs C depth t m hwf) owner other
    hheap

/-! ### Assignment -/

/-- The loop of `operator=` adds members to `target`, under the given keys, and changes nothing else
but constructors. -/
structure Assigned (target : Nat) (added : List Key) (heap heap' : Heap T D) : Prop where
  others : ∀ (a : Nat) (object : Object T D), a ≠ target → heap[a]? = some object →
    KeptAt object heap' a
  target : ∀ object : Object T D, heap[target]? = some object →
    ∃ members constructors, heap'[target]? = some { object with
      membersMap := members, keyToEntityConstructorMap := constructors } ∧
      ∀ key, key ∉ added → List.lookup key members = List.lookup key object.membersMap

theorem Assigned.of_kept {target : Nat} {heap' : Heap T D} (h : Kept heap heap')
    (added : List Key) : Assigned target added heap heap' := by
  refine ⟨fun a object _ hobject => h a object hobject, fun object hobject => ?_⟩
  obtain ⟨constructors, -, hc⟩ := h target object hobject
  exact ⟨object.membersMap, constructors, hc, fun _ _ => rfl⟩

theorem Assigned.trans {target : Nat} {added : List Key} {heap' heap'' : Heap T D}
    (h : Assigned target added heap heap') (h' : Assigned target added heap' heap'') :
    Assigned target added heap heap'' := by
  constructor
  · intro a object ha hobject
    obtain ⟨constructors, hadded, ho⟩ := h.others a object ha hobject
    obtain ⟨constructors', hadded', ho'⟩ := h'.others a _ ha ho
    exact ⟨constructors', hadded.trans hadded', ho'⟩
  · intro object hobject
    obtain ⟨members, constructors, ho, hlookup⟩ := h.target object hobject
    obtain ⟨members', constructors', ho', hlookup'⟩ := h'.target _ ho
    exact ⟨members', constructors', ho', fun key hkey => (hlookup' key hkey).trans
      (hlookup key hkey)⟩

theorem Assigned.mono {target : Nat} {added added' : List Key} {heap' : Heap T D}
    (h : Assigned target added heap heap') (hsub : added ⊆ added') :
    Assigned target added' heap heap' := by
  refine ⟨h.others, fun object hobject => ?_⟩
  obtain ⟨members, constructors, ho, hlookup⟩ := h.target object hobject
  exact ⟨members, constructors, ho, fun key hkey => hlookup key fun hmem => hkey (hsub hmem)⟩

theorem assigned_insert (target : Nat) (key : Key) (pointer : Option Nat) (heap : Heap T D) :
    Assigned target [key] heap (heap.modify target fun object =>
      { object with membersMap := insertSorted key pointer object.membersMap }) := by
  constructor
  · intro a object ha hobject
    apply keptAt_of_eq
    rw [List.getElem?_modify_ne _ _ (Ne.symm ha)]
    exact hobject
  · intro object hobject
    rw [List.getElem?_modify_eq, hobject]
    refine ⟨_, _, rfl, fun j hj => ?_⟩
    exact lookup_insertSorted_ne (fun h => hj (List.mem_singleton.mpr h)) _ _

theorem assignMembers_assigned {construct : Nat → EStateM Exception (Heap T D) Nat}
    (hconstruct : ∀ m heap, heap.WellFormed → Constructs heap ((construct m).run heap))
    (target : Nat) (members : List (Key × Option Nat)) (hheap : heap.WellFormed) :
    WellFormed (finalState ((assignMembers construct target members).run heap)) ∧
      Assigned target (keys members) heap
        (finalState ((assignMembers construct target members).run heap)) := by
  induction members generalizing heap with
  | nil => exact ⟨hheap, Assigned.of_kept (Kept.refl heap) _⟩
  | cons p members ih =>
    obtain ⟨key, pointer⟩ := p
    cases pointer with
    | none => exact ⟨hheap, Assigned.of_kept (Kept.refl heap) _⟩
    | some m =>
      rw [assignMembers]
      have hfirst := hconstruct m heap hheap
      cases hrun : (construct m).run heap with
      | error err heap₁ =>
        rw [hrun] at hfirst
        rw [bind_error hrun]
        exact ⟨hfirst.1, Assigned.of_kept hfirst.2 _⟩
      | ok copy heap₁ =>
        rw [hrun] at hfirst
        obtain ⟨hwf, hstart, -, hhigh⟩ := hfirst
        rw [bind_ok hrun, bind_ok (update_run target _ heap₁)]
        obtain ⟨hwf', hassigned⟩ := ih (hwf.modify target fun object hobject =>
          (hwf.get hobject).insert key (some copy) (by
            intro a ha
            cases ha
            exact hhigh))
        refine ⟨hwf', ?_⟩
        have hinsert := (assigned_insert target key (some copy) heap₁).mono
          (List.cons_subset_cons key (List.nil_subset (keys members)))
        exact (Assigned.of_kept (Kept.of_isPrefix hstart) _).trans
          (hinsert.trans (hassigned.mono (List.subset_cons_self key (keys members))))

/-- `operator=` before its loop: the target has the key of the source and no members. -/
def cleared (target : Nat) (other : Object T D) (heap : Heap T D) : Heap T D :=
  heap.modify target fun object => { object with key := other.key, membersMap := [] }

theorem WellFormed.cleared (h : heap.WellFormed) (target : Nat) (other : Object T D) :
    (Heap.cleared target other heap).WellFormed :=
  h.modify _ fun _ hobject => ⟨List.Pairwise.nil, (h.get hobject).constructors, nofun⟩

variable {C : EntityClasses T D}

/-- An assignment between two objects is the loop, on the cleared target, and the data. -/
theorem copyAssign_run {depth target source : Nat} {object other : Object T D}
    (hne : target ≠ source) (htarget : heap[target]? = some object)
    (hsource : heap[source]? = some other) :
    (copyAssign C depth target source).run heap =
      (do assignMembers (constructEntity (constructAs C depth) source) target other.membersMap
          update target fun object =>
            { object with data := C.slice object.type other.type other.data } :
        EStateM Exception (Heap T D) Unit).run (heap.cleared target other) := by
  unfold copyAssign
  rw [if_neg hne, bind_ok (deref_run hsource), bind_ok (deref_run htarget),
    bind_ok (update_run target _ heap), bind_ok (update_run target _ _), List.modify_modify_eq]
  rfl

theorem copyAssign_self (depth target : Nat) (heap : Heap T D) :
    (copyAssign C depth target target).run heap = .ok () heap := by
  unfold copyAssign
  rw [if_pos rfl]
  rfl

/-- An assignment with a pointer to no object. -/
theorem copyAssign_none {depth target source : Nat} (hne : target ≠ source)
    (h : heap[target]? = none ∨ heap[source]? = none) :
    (copyAssign C depth target source).run heap = .error .nullDereference heap := by
  unfold copyAssign
  rw [if_neg hne]
  rcases deref_cases heap source with ⟨other, hother, hsource⟩ | ⟨-, hsource⟩
  · rw [bind_ok hsource]
    rcases deref_cases heap target with ⟨object, hobject, -⟩ | ⟨-, htarget⟩
    · rcases h with h | h
      · rw [h] at hobject
        cases hobject
      · rw [h] at hother
        cases hother
    · exact bind_error htarget
  · exact bind_error hsource

theorem copyAssign_wellFormed (C : EntityClasses T D) (depth target source : Nat)
    (hheap : heap.WellFormed) :
    WellFormed (finalState ((copyAssign C depth target source).run heap)) := by
  by_cases hne : target = source
  · rw [hne, copyAssign_self]
    exact hheap
  cases htarget : heap[target]? with
  | none =>
    rw [copyAssign_none hne (Or.inl htarget)]
    exact hheap
  | some object =>
    cases hsource : heap[source]? with
    | none =>
      rw [copyAssign_none hne (Or.inr hsource)]
      exact hheap
    | some other =>
      rw [copyAssign_run hne htarget hsource]
      obtain ⟨hwf, -⟩ := assignMembers_assigned
        (fun m _ hwf => constructEntity_constructAs C depth source m hwf) target other.membersMap
        (hheap.cleared target other)
      cases hrun : (assignMembers (constructEntity (constructAs C depth) source) target
          other.membersMap).run (heap.cleared target other) with
      | error err heap' =>
        rw [hrun] at hwf
        rw [bind_error hrun]
        exact hwf
      | ok u heap' =>
        rw [hrun] at hwf
        rw [bind_ok hrun, update_run]
        refine WellFormed.modify hwf _ fun o ho => ?_
        have h := WellFormed.get hwf ho
        exact ⟨h.members, h.constructors, h.pointers⟩

/-! ### The other calls -/

theorem setKey_cases (heap : Heap T D) (key : Key) (address : Nat) :
    (setKey key address).run heap =
        .ok () (heap.modify address fun object => { object with key := key }) ∨
      ∃ err, (setKey key address).run heap = .error err heap := by
  unfold setKey
  rcases deref_cases heap address with ⟨object, -, hderef⟩ | ⟨-, hderef⟩
  · rw [bind_ok hderef]
    exact Or.inl rfl
  · exact Or.inr ⟨_, bind_error hderef⟩

theorem aggregateKey_cases (heap : Heap T D) (key : Key) (owner : Nat) :
    (∃ object, heap[owner]? = some object ∧ key ∉ keys object.membersMap ∧
        (aggregateKey key owner).run heap = .ok () (heap.modify owner fun object =>
          { object with membersMap := insertSorted key none object.membersMap })) ∨
      ∃ err, (aggregateKey key owner).run heap = .error err heap := by
  unfold aggregateKey
  rcases deref_cases heap owner with ⟨object, hobject, hderef⟩ | ⟨-, hderef⟩
  · rw [bind_ok hderef]
    cases hlookup : List.lookup key object.membersMap with
    | some pointer => exact Or.inr ⟨_, rfl⟩
    | none => exact Or.inl ⟨object, hobject, lookup_none.mp hlookup, rfl⟩
  · exact Or.inr ⟨_, bind_error hderef⟩

theorem aggregateMember_cases (heap : Heap T D) (staticType : T) (sharedObj : Option Nat)
    (owner : Nat) :
    (∃ m member object, sharedObj = some m ∧ heap[m]? = some member ∧
        heap[owner]? = some object ∧ member.key ≠ [] ∧ member.key ∉ keys object.membersMap ∧
        (aggregateMember staticType sharedObj owner).run heap =
          .ok () (heap.modify owner fun object => { object with
            membersMap := insertSorted member.key (some m) object.membersMap
            keyToEntityConstructorMap := registerEntityConstructor staticType member.key
              object.keyToEntityConstructorMap })) ∨
      ∃ err, (aggregateMember staticType sharedObj owner).run heap = .error err heap := by
  cases sharedObj with
  | none => exact Or.inr ⟨_, rfl⟩
  | some m =>
    unfold aggregateMember
    rcases getKey_cases heap m with ⟨member, hmember, hne, hkey⟩ | ⟨-, err, hkey⟩
    · rw [bind_ok hkey]
      rcases deref_cases heap owner with ⟨object, hobject, hderef⟩ | ⟨-, hderef⟩
      · rw [bind_ok hderef]
        cases hlookup : List.lookup member.key object.membersMap with
        | some pointer => exact Or.inr ⟨_, rfl⟩
        | none => exact Or.inl ⟨m, member, object, rfl, hmember, hobject, hne,
            lookup_none.mp hlookup, rfl⟩
      · exact Or.inr ⟨_, bind_error hderef⟩
    · exact Or.inr ⟨err, bind_error hkey⟩

theorem removeKey_cases (heap : Heap T D) (key : Key) (owner : Nat) :
    (∃ object, heap[owner]? = some object ∧ key ∈ keys object.membersMap ∧
        (removeKey key owner).run heap = .ok () (heap.modify owner fun object =>
          { object with membersMap := object.membersMap.filter fun p => p.1 ≠ key })) ∨
      (∀ object, heap[owner]? = some object → key ∉ keys object.membersMap) ∧
        ∃ err, (removeKey key owner).run heap = .error err heap := by
  unfold removeKey
  rcases deref_cases heap owner with ⟨object, hobject, hderef⟩ | ⟨hnone, hderef⟩
  · rw [bind_ok hderef]
    cases hlookup : List.lookup key object.membersMap with
    | some pointer => exact Or.inl ⟨object, hobject, lookup_some_mem_keys hlookup, rfl⟩
    | none =>
      refine Or.inr ⟨?_, _, rfl⟩
      intro o ho
      rw [hobject] at ho
      cases ho
      exact lookup_none.mp hlookup
  · refine Or.inr ⟨?_, _, bind_error hderef⟩
    intro o ho
    rw [hnone] at ho
    cases ho

/-- `RemoveMember` of a pointer to an object with a key is `RemoveMember` of that key. -/
theorem removeMember_cases (heap : Heap T D) (sharedObj : Option Nat) (owner : Nat) :
    (∃ m member, sharedObj = some m ∧ heap[m]? = some member ∧ member.key ≠ [] ∧
        (removeMember sharedObj owner).run heap = (removeKey member.key owner).run heap) ∨
      (∀ m ∈ sharedObj, ∀ member, heap[m]? = some member → member.key = []) ∧
        ∃ err, (removeMember sharedObj owner).run heap = .error err heap := by
  cases sharedObj with
  | none => exact Or.inr ⟨nofun, _, rfl⟩
  | some m =>
    unfold removeMember
    rcases getKey_cases heap m with ⟨member, hmember, hne, hkey⟩ | ⟨hempty, err, hkey⟩
    · exact Or.inl ⟨m, member, rfl, hmember, hne, bind_ok hkey⟩
    · refine Or.inr ⟨?_, err, bind_error hkey⟩
      intro m' hm'
      obtain rfl : m = m' := Option.some.inj hm'
      exact hempty

theorem sorted_registerEntityConstructor (staticType : T) (key : Key)
    {constructors : List (Key × Option T)} (h : Sorted constructors) :
    Sorted (registerEntityConstructor staticType key constructors) := by
  unfold registerEntityConstructor
  split
  · exact h
  · exact sorted_insertSorted h _

/-! ### Every operation keeps the heap well formed -/

theorem setKey_wellFormed (key : Key) (address : Nat) (hheap : heap.WellFormed) :
    WellFormed (finalState ((setKey key address).run heap)) := by
  rcases setKey_cases heap key address with hrun | ⟨err, hrun⟩
  · rw [hrun]
    refine hheap.modify _ fun o ho => ?_
    have h := hheap.get ho
    exact ⟨h.members, h.constructors, h.pointers⟩
  · rw [hrun]
    exact hheap

theorem aggregateKey_wellFormed (key : Key) (owner : Nat) (hheap : heap.WellFormed) :
    WellFormed (finalState ((aggregateKey key owner).run heap)) := by
  rcases aggregateKey_cases heap key owner with ⟨object, -, -, hrun⟩ | ⟨err, hrun⟩
  · rw [hrun]
    exact hheap.modify _ fun o ho => (hheap.get ho).insert key none nofun
  · rw [hrun]
    exact hheap

theorem aggregateMember_wellFormed (staticType : T) (sharedObj : Option Nat) (owner : Nat)
    (hheap : heap.WellFormed) :
    WellFormed (finalState ((aggregateMember staticType sharedObj owner).run heap)) := by
  rcases aggregateMember_cases heap staticType sharedObj owner with
    ⟨m, member, object, -, hmember, -, -, -, hrun⟩ | ⟨err, hrun⟩
  · rw [hrun]
    refine hheap.modify _ fun o ho => ?_
    have h := (hheap.get ho).insert member.key (some m) (by
      intro a ha
      cases ha
      exact (List.getElem?_eq_some_iff.mp hmember).1)
    exact ⟨h.members, sorted_registerEntityConstructor staticType member.key h.constructors,
      h.pointers⟩
  · rw [hrun]
    exact hheap

theorem removeKey_wellFormed (key : Key) (owner : Nat) (hheap : heap.WellFormed) :
    WellFormed (finalState ((removeKey key owner).run heap)) := by
  rcases removeKey_cases heap key owner with ⟨object, -, -, hrun⟩ | ⟨-, err, hrun⟩
  · rw [hrun]
    refine hheap.modify _ fun o ho => ?_
    have h := hheap.get ho
    exact ⟨sorted_filter h.members _, h.constructors,
      fun p hp => h.pointers p (List.mem_filter.mp hp).1⟩
  · rw [hrun]
    exact hheap

theorem removeMember_wellFormed (sharedObj : Option Nat) (owner : Nat) (hheap : heap.WellFormed) :
    WellFormed (finalState ((removeMember sharedObj owner).run heap)) := by
  rcases removeMember_cases heap sharedObj owner with ⟨m, member, -, -, -, hrun⟩ | ⟨-, err, hrun⟩
  · rw [hrun]
    exact removeKey_wellFormed member.key owner hheap
  · rw [hrun]
    exact hheap

theorem constructAs_wellFormed (C : EntityClasses T D) (depth : Nat) (staticType : T)
    (other : Nat) (hheap : heap.WellFormed) :
    WellFormed (finalState ((constructAs C depth staticType other).run heap)) := by
  have hconstructs := constructAs_constructs C depth staticType other hheap
  cases hrun : (constructAs C depth staticType other).run heap with
  | ok copy heap' =>
    rw [hrun] at hconstructs
    exact hconstructs.1
  | error err heap' =>
    rw [hrun] at hconstructs
    exact hconstructs.1

end Heap

namespace ObjectCall

open Heap

theorem step_wellFormed (C : EntityClasses T D) {heap : Heap T D} (hheap : heap.WellFormed)
    (c : ObjectCall T D) : (step C heap c).WellFormed := by
  unfold step
  cases c with
  | create key type data =>
    exact hheap.append ⟨List.Pairwise.nil, List.Pairwise.nil, nofun⟩
  | setKey address key => exact setKey_wellFormed key address hheap
  | aggregateKey owner key => exact aggregateKey_wellFormed key owner hheap
  | aggregateMember owner staticType sharedObj =>
    exact aggregateMember_wellFormed staticType sharedObj owner hheap
  | removeKey owner key => exact removeKey_wellFormed key owner hheap
  | removeMember owner sharedObj => exact removeMember_wellFormed sharedObj owner hheap
  | copyConstruct depth staticType source =>
    rw [call, finalState_bind_pure]
    exact constructAs_wellFormed C depth staticType source hheap
  | copyAssign depth target source => exact copyAssign_wellFormed C depth target source hheap

/-- The heaps that a program reaches are well formed. -/
theorem run_wellFormed (C : EntityClasses T D) (calls : List (ObjectCall T D)) :
    WellFormed (Runs.run (step C) [] calls) :=
  Runs.invariant_of_forall WellFormed (fun _ c h => step_wellFormed C h c) wellFormed_nil calls

end ObjectCall

end Azulejo
