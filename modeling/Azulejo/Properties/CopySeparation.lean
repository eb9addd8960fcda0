import Azulejo.Entities.ObjectTrees

/-!
# Copies share nothing with what was there

An object holds its members by shared pointers, and copying it copies what is below it. No object
below a copy was there before, and nothing that was there holds one that is new. What the program
does afterwards on one side is not seen on the other, until it changes an object of that side.
-/

namespace Azulejo

open AssocList Stateful

variable {T D : Type}

namespace Heap

variable {heap heap' heap'' : Heap T D} {region owners held : Nat → Prop} {limit : Nat}

/-! ## Regions of the heap -/

/-- The objects of a region are as before, but for added entries without a constructor. -/
def KeptIn (region : Nat → Prop) (heap heap' : Heap T D) : Prop :=
  ∀ (a : Nat) (object : Object T D), region a → heap[a]? = some object → KeptAt object heap' a

theorem Kept.keptIn (h : Kept heap heap') (region : Nat → Prop) : KeptIn region heap heap' :=
  fun a object _ hobject => h a object hobject

theorem KeptIn.trans (h : KeptIn region heap heap') (h' : KeptIn region heap' heap'') :
    KeptIn region heap heap'' := by
  intro a object ha hobject
  obtain ⟨constructors, hadded, ho⟩ := h a object ha hobject
  obtain ⟨constructors', hadded', ho'⟩ := h' a _ ha ho
  exact ⟨constructors', hadded.trans hadded', ho'⟩

theorem keptIn_modify {address : Nat} (h : ¬ region address) (f : Object T D → Object T D)
    (heap : Heap T D) : KeptIn region heap (heap.modify address f) := by
  intro a object ha hobject
  have hne : address ≠ a := fun heq => h (heq ▸ ha)
  apply keptAt_of_eq
  rw [List.getElem?_modify_ne _ _ hne, hobject]

/-- What the objects of `owners` hold is in `held`. -/
def HoldsOnly (owners held : Nat → Prop) (heap : Heap T D) : Prop :=
  ∀ a b, owners a → heap.Holds a b → held b

theorem HoldsOnly.atOrBelow (h : heap.HoldsOnly region region) {a b : Nat} (ha : region a)
    (hb : AtOrBelow heap a b) : region b := by
  induction hb with
  | refl => exact ha
  | tail _ hholds ih => exact h _ _ ih hholds

theorem holdsOnly_atOrBelow (heap : Heap T D) (a : Nat) :
    heap.HoldsOnly (AtOrBelow heap a) (AtOrBelow heap a) :=
  fun _ _ ha hholds => ha.tail hholds

theorem lt_of_holds (hheap : heap.WellFormed) {a b : Nat} (h : heap.Holds a b) :
    b < heap.length := by
  obtain ⟨object, hobject, key, hmem⟩ := h
  exact (hheap.get hobject).pointers (key, some b) hmem b rfl

theorem lt_of_atOrBelow (hheap : heap.WellFormed) {a b : Nat} (ha : a < heap.length)
    (h : AtOrBelow heap a b) : b < heap.length :=
  @HoldsOnly.atOrBelow _ _ _ (fun x => x < heap.length) (fun _ _ _ => lt_of_holds hheap) _ _ ha h

theorem KeptIn.holds_iff (h : KeptIn region heap heap') {a b : Nat} (ha : region a)
    (hlt : a < heap.length) : heap'.Holds a b ↔ heap.Holds a b := by
  have hobject := List.getElem?_eq_getElem hlt
  obtain ⟨constructors, -, hobject'⟩ := h a _ ha hobject
  constructor
  · rintro ⟨object, ho, hmem⟩
    obtain rfl := Option.some.inj (hobject'.symm.trans ho)
    exact ⟨_, hobject, hmem⟩
  · rintro ⟨object, ho, hmem⟩
    obtain rfl := Option.some.inj (hobject.symm.trans ho)
    exact ⟨_, hobject', hmem⟩

/-- What stands below the objects of a region that is closed stays the same with them. -/
theorem KeptIn.atOrBelow_iff (h : KeptIn region heap heap') (hclosed : heap.HoldsOnly region region)
    (hlt : ∀ a, region a → a < heap.length) {a b : Nat} (ha : region a) :
    AtOrBelow heap' a b ↔ AtOrBelow heap a b := by
  constructor
  · intro hb
    induction hb with
    | refl => exact .refl
    | tail _ hholds ih =>
      have hregion := hclosed.atOrBelow ha ih
      exact ih.tail ((h.holds_iff hregion (hlt _ hregion)).mp hholds)
  · intro hb
    induction hb with
    | refl => exact .refl
    | tail hbelow hholds ih =>
      have hregion := hclosed.atOrBelow ha hbelow
      exact ih.tail ((h.holds_iff hregion (hlt _ hregion)).mpr hholds)

/-! ## What the operations leave alone -/

variable (C : EntityClasses T D)

theorem removeKey_keptIn (key : Key) {owner : Nat} (h : ¬ region owner) :
    KeptIn region heap (finalState ((removeKey key owner).run heap)) := by
  rcases removeKey_cases heap key owner with ⟨object, -, -, hrun⟩ | ⟨-, err, hrun⟩
  · rw [hrun]
    exact keptIn_modify h _ heap
  · rw [hrun]
    exact (Kept.refl heap).keptIn region

theorem constructAs_kept (hheap : heap.WellFormed) (depth : Nat) (staticType : T) (source : Nat) :
    Kept heap (finalState ((constructAs C depth staticType source).run heap)) := by
  have h := constructAs_constructs C depth staticType source hheap
  cases hrun : (constructAs C depth staticType source).run heap with
  | ok copy heap' =>
    rw [hrun] at h
    exact Kept.of_isPrefix h.2.1
  | error err heap' =>
    rw [hrun] at h
    exact h.2

theorem copyAssign_keptIn (hheap : heap.WellFormed) (depth : Nat) {target : Nat} (source : Nat)
    (h : ¬ region target) :
    KeptIn region heap (finalState ((copyAssign C depth target source).run heap)) := by
  have hsame : KeptIn region heap heap := (Kept.refl heap).keptIn region
  by_cases hne : target = source
  · rw [hne, copyAssign_self]
    exact hsame
  cases htarget : heap[target]? with
  | none =>
    rw [copyAssign_none hne (Or.inl htarget)]
    exact hsame
  | some object =>
    cases hsource : heap[source]? with
    | none =>
      rw [copyAssign_none hne (Or.inr hsource)]
      exact hsame
    | some other =>
      rw [copyAssign_run hne htarget hsource]
      obtain ⟨-, hassigned⟩ := assignMembers_assigned
        (fun m _ hwf => constructEntity_constructAs C depth source m hwf) target other.membersMap
        (hheap.cleared target other)
      have hloop := (keptIn_modify h _ heap).trans fun a o ha ho =>
        hassigned.others a o (fun heq => h (heq ▸ ha)) ho
      cases hrun : (assignMembers (constructEntity (constructAs C depth) source) target
          other.membersMap).run (heap.cleared target other) with
      | error err heap' =>
        rw [hrun] at hloop
        rw [bind_error hrun]
        exact hloop
      | ok u heap' =>
        rw [hrun] at hloop
        rw [bind_ok hrun, update_run]
        exact hloop.trans (keptIn_modify h _ heap')

/-! ## What is new holds what is new -/

theorem holdsOnly_modify {address : Nat} {f : Object T D → Object T D}
    (hf : ∀ object, heap[address]? = some object → owners address →
      ∀ key b, (key, some b) ∈ (f object).membersMap →
        (key, some b) ∈ object.membersMap ∨ held b)
    (h : heap.HoldsOnly owners held) : HoldsOnly owners held (heap.modify address f) := by
  rintro a b ha ⟨object, hobject, key, hmem⟩
  by_cases heq : address = a
  · subst heq
    rw [List.getElem?_modify_eq] at hobject
    obtain ⟨object', hobject', rfl⟩ := Option.map_eq_some_iff.mp hobject
    rcases hf object' hobject' ha key b hmem with hold | hnew
    · exact h address b ha ⟨object', hobject', key, hold⟩
    · exact hnew
  · rw [List.getElem?_modify_ne _ _ heq] at hobject
    exact h a b ha ⟨object, hobject, key, hmem⟩

theorem constructEntity_holdsOnly {construct : T → Nat → EStateM Exception (Heap T D) Nat}
    {owner other : Nat} (h : heap.HoldsOnly owners held)
    (hconstruct : ∀ t, HoldsOnly owners held (finalState ((construct t other).run heap))) :
    HoldsOnly owners held
      (finalState ((constructEntity construct owner other).run heap)) := by
  unfold constructEntity
  rcases getKey_cases heap other with ⟨object, -, -, hkey⟩ | ⟨-, err, herr⟩
  · rw [bind_ok hkey]
    rcases deref_cases heap owner with ⟨o, -, hderef⟩ | ⟨-, hderef⟩
    · rw [bind_ok hderef]
      cases List.lookup object.key o.keyToEntityConstructorMap with
      | some constructor =>
        cases constructor with
        | some staticType => exact hconstruct staticType
        | none => exact h
      | none =>
        simp only
        rw [bind_ok (update_run owner _ heap)]
        exact holdsOnly_modify (fun _ _ _ _ _ hmem => Or.inl hmem) h
    · rw [bind_error hderef]
      exact h
  · rw [bind_error herr]
    exact h

/-- What the loop of the copy constructor needs of the construction of a member. -/
def ConstructsApart (owners : Nat → Prop) (limit : Nat)
    (construct : Nat → EStateM Exception (Heap T D) Nat) : Prop :=
  ∀ m (heap : Heap T D), heap.WellFormed → limit ≤ heap.length →
    heap.HoldsOnly owners (fun b => limit ≤ b) → Constructs heap ((construct m).run heap) ∧
      HoldsOnly owners (fun b => limit ≤ b) (finalState ((construct m).run heap))

theorem copyMembers_holdsOnly {construct : Nat → EStateM Exception (Heap T D) Nat}
    (hconstruct : ConstructsApart owners limit construct) (members : List (Key × Option Nat))
    (hheap : heap.WellFormed) (hlimit : limit ≤ heap.length)
    (h : heap.HoldsOnly owners (fun b => limit ≤ b)) :
    HoldsOnly owners (fun b => limit ≤ b)
      (finalState ((copyMembers construct members).run heap)) := by
  induction members generalizing heap with
  | nil => exact h
  | cons p members ih =>
    obtain ⟨key, pointer⟩ := p
    cases pointer with
    | none => exact h
    | some m =>
      rw [copyMembers]
      obtain ⟨hfirst, hholds⟩ := hconstruct m heap hheap hlimit h
      cases hrun : (construct m).run heap with
      | error err heap₁ =>
        rw [hrun] at hholds
        rw [bind_error hrun]
        exact hholds
      | ok copy heap₁ =>
        rw [hrun] at hfirst hholds
        obtain ⟨hwf, hstart, -, -⟩ := hfirst
        have hrest := ih hwf (le_trans hlimit hstart.length_le) hholds
        rw [bind_ok hrun]
        cases hmembers : (copyMembers construct members).run heap₁ with
        | error err heap₂ =>
          rw [hmembers] at hrest
          rw [bind_error hmembers]
          exact hrest
        | ok copies heap₂ =>
          rw [hmembers] at hrest
          rw [bind_ok hmembers]
          exact hrest

theorem holdsOnly_allocate (h : heap.HoldsOnly owners held) {object : Object T D}
    (hobject : ∀ p ∈ object.membersMap, ∀ b ∈ p.2, held b) :
    HoldsOnly owners held (heap ++ [object]) := by
  rintro a b ha ⟨o, ho, key, hmem⟩
  by_cases hlt : a < heap.length
  · rw [List.getElem?_append_left hlt] at ho
    exact h a b ha ⟨o, ho, key, hmem⟩
  · rw [List.getElem?_append_right (Nat.not_lt.mp hlt)] at ho
    obtain rfl := List.mem_singleton.mp (List.mem_of_getElem? ho)
    exact hobject (key, some b) hmem b rfl

/-- A copy holds new objects only, and so does what is made for it; also when it fails. -/
theorem constructAs_holdsOnly (depth : Nat) (staticType : T) (other : Nat)
    (hheap : heap.WellFormed) (hlimit : limit ≤ heap.length)
    (h : heap.HoldsOnly owners (fun b => limit ≤ b)) :
    HoldsOnly owners (fun b => limit ≤ b)
      (finalState ((constructAs C depth staticType other).run heap)) := by
  induction depth generalizing staticType other heap with
  | zero => exact h
  | succ depth ih =>
    rw [constructAs]
    rcases deref_cases heap other with ⟨object, -, hderef⟩ | ⟨-, hderef⟩
    · rw [bind_ok hderef]
      split
      · have hconstruct : ConstructsApart owners limit
            (constructEntity (constructAs C depth) other) := fun m heap hheap hlimit h =>
          ⟨constructEntity_constructAs C depth other m hheap,
            constructEntity_holdsOnly h fun t => ih t m hheap hlimit h⟩
        have hmembers := copyMembers_holdsOnly hconstruct object.membersMap hheap hlimit h
        have hcopies := copyMembers_copiesAll (fun m _ hwf =>
          constructEntity_constructAs C depth other m hwf) object.membersMap hheap
        cases hrun : (copyMembers (constructEntity (constructAs C depth) other)
            object.membersMap).run heap with
        | error err heap₁ =>
          rw [hrun] at hmembers
          rw [bind_error hrun]
          exact hmembers
        | ok copies heap₁ =>
          rw [hrun] at hmembers hcopies
          rw [bind_ok hrun, allocate_run]
          exact holdsOnly_allocate hmembers fun p hp b hb =>
            le_trans hlimit (hcopies.2.2.2 p hp b hb).1
      · exact h
    · rw [bind_error hderef]
      exact h

theorem assignMembers_holdsOnly {construct : Nat → EStateM Exception (Heap T D) Nat}
    (hconstruct : ConstructsApart owners limit construct) (target : Nat)
    (members : List (Key × Option Nat)) (hheap : heap.WellFormed) (hlimit : limit ≤ heap.length)
    (h : heap.HoldsOnly owners (fun b => limit ≤ b)) :
    HoldsOnly owners (fun b => limit ≤ b)
      (finalState ((assignMembers construct target members).run heap)) := by
  induction members generalizing heap with
  | nil => exact h
  | cons p members ih =>
    obtain ⟨key, pointer⟩ := p
    cases pointer with
    | none => exact h
    | some m =>
      rw [assignMembers]
      obtain ⟨hfirst, hholds⟩ := hconstruct m heap hheap hlimit h
      cases hrun : (construct m).run heap with
      | error err heap₁ =>
        rw [hrun] at hholds
        rw [bind_error hrun]
        exact hholds
      | ok copy heap₁ =>
        rw [hrun] at hfirst hholds
        obtain ⟨hwf, hstart, hlow, hhigh⟩ := hfirst
        rw [bind_ok hrun, bind_ok (update_run target _ heap₁)]
        refine ih (hwf.modify target fun object hobject =>
          (hwf.get hobject).insert key (some copy) ?_) ?_ ?_
        · intro a ha
          cases ha
          exact hhigh
        · rw [List.length_modify]
          exact le_trans hlimit hstart.length_le
        · refine holdsOnly_modify (fun object _ _ k b hmem => ?_) hholds
          rcases mem_of_mem_insertSorted hmem with heq | hmem
          · cases heq
            exact Or.inr (le_trans hlimit hlow)
          · exact Or.inl hmem

theorem holdsOnly_cleared (target : Nat) (other : Object T D) :
    HoldsOnly (fun a => a = target ∨ heap.length ≤ a) held (heap.cleared target other) := by
  rintro a b ha ⟨object, hobject, key, hmem⟩
  have hlt := (List.getElem?_eq_some_iff.mp hobject).1
  rw [Heap.cleared, List.length_modify] at hlt
  rcases ha with rfl | ha
  · rw [Heap.cleared, List.getElem?_modify_eq] at hobject
    obtain ⟨object', -, rfl⟩ := Option.map_eq_some_iff.mp hobject
    cases hmem
  · exact absurd hlt (Nat.not_lt.mpr ha)

theorem Assigned.length_le {target : Nat} {added : List Key}
    (h : Assigned target added heap heap') : heap.length ≤ heap'.length := by
  refine Nat.le_of_not_lt fun hlt => ?_
  obtain ⟨object, hobject⟩ : ∃ object, heap[heap'.length]? = some object :=
    ⟨_, List.getElem?_eq_getElem hlt⟩
  by_cases heq : heap'.length = target
  · rw [heq] at hobject
    obtain ⟨members, constructors, ho, -⟩ := h.target _ hobject
    rw [← heq] at ho
    exact absurd (List.getElem?_eq_some_iff.mp ho).1 (lt_irrefl _)
  · obtain ⟨constructors, -, ho⟩ := h.others _ _ heq hobject
    exact absurd (List.getElem?_eq_some_iff.mp ho).1 (lt_irrefl _)

/-- Whether an assignment returns or throws, the target holds new objects only. -/
theorem copyAssign_holdsOnly (hheap : heap.WellFormed) (depth : Nat) {target source : Nat}
    (hne : target ≠ source) (htarget : target < heap.length) (hsource : source < heap.length) :
    HoldsOnly (fun a => a = target ∨ heap.length ≤ a) (fun b => heap.length ≤ b)
        (finalState ((copyAssign C depth target source).run heap)) ∧
      heap.length ≤ (finalState ((copyAssign C depth target source).run heap)).length := by
  have hother := List.getElem?_eq_getElem hsource
  rw [copyAssign_run hne (List.getElem?_eq_getElem htarget) hother]
  have hlimit : heap.length ≤ (heap.cleared target heap[source]).length := by
    rw [Heap.cleared, List.length_modify]
  have hconstruct : ConstructsApart (fun a => a = target ∨ heap.length ≤ a) heap.length
      (constructEntity (constructAs C depth) source) := fun m heap hheap hlimit h =>
    ⟨constructEntity_constructAs C depth source m hheap,
      constructEntity_holdsOnly h fun t => constructAs_holdsOnly C depth t m hheap hlimit h⟩
  have hloop := assignMembers_holdsOnly hconstruct target heap[source].membersMap
    (hheap.cleared target heap[source]) hlimit (holdsOnly_cleared target heap[source])
  obtain ⟨-, hassigned⟩ := assignMembers_assigned
    (fun m _ hwf => constructEntity_constructAs C depth source m hwf) target
    heap[source].membersMap (hheap.cleared target heap[source])
  have hlength := le_trans hlimit hassigned.length_le
  cases hrun : (assignMembers (constructEntity (constructAs C depth) source) target
      heap[source].membersMap).run (heap.cleared target heap[source]) with
  | error err heap' =>
    rw [hrun] at hloop hlength
    rw [bind_error hrun]
    exact ⟨hloop, hlength⟩
  | ok u heap' =>
    rw [hrun] at hloop hlength
    rw [bind_ok hrun, update_run]
    refine ⟨holdsOnly_modify (fun _ _ _ _ _ hmem => Or.inl hmem) hloop, ?_⟩
    rw [finalState, List.length_modify]
    exact hlength

end Heap

/-! ## What the calls leave alone -/

namespace ObjectCall

open Heap

/-- The object that a call is made to change. Copying makes new objects. -/
def changed : ObjectCall T D → Option Nat
  | create _ _ _ => none
  | setKey address _ => some address
  | aggregateKey owner _ => some owner
  | aggregateMember owner _ _ => some owner
  | removeKey owner _ => some owner
  | removeMember owner _ => some owner
  | copyConstruct _ _ _ => none
  | copyAssign _ target _ => some target

variable (C : EntityClasses T D) {heap : Heap T D} {region : Nat → Prop}

/-- A call leaves a region as it is if it is not made to change an object there. -/
theorem step_keptIn (hheap : heap.WellFormed) (c : ObjectCall T D)
    (h : ∀ a ∈ c.changed, ¬ region a) : KeptIn region heap (step C heap c) := by
  unfold step
  cases c with
  | create key type data =>
    exact (Kept.of_isPrefix (List.prefix_append heap _)).keptIn region
  | setKey address key =>
    rcases setKey_cases heap key address with hrun | ⟨err, hrun⟩
    · rw [call, hrun]
      exact keptIn_modify (h address rfl) _ heap
    · rw [call, hrun]
      exact (Kept.refl heap).keptIn region
  | aggregateKey owner key =>
    rcases aggregateKey_cases heap key owner with ⟨object, -, -, hrun⟩ | ⟨err, hrun⟩
    · rw [call, hrun]
      exact keptIn_modify (h owner rfl) _ heap
    · rw [call, hrun]
      exact (Kept.refl heap).keptIn region
  | aggregateMember owner staticType sharedObj =>
    rcases aggregateMember_cases heap staticType sharedObj owner with
      ⟨m, member, object, -, -, -, -, -, hrun⟩ | ⟨err, hrun⟩
    · rw [call, hrun]
      exact keptIn_modify (h owner rfl) _ heap
    · rw [call, hrun]
      exact (Kept.refl heap).keptIn region
  | removeKey owner key => exact removeKey_keptIn key (h owner rfl)
  | removeMember owner sharedObj =>
    rcases removeMember_cases heap sharedObj owner with ⟨m, member, -, -, -, hrun⟩ | ⟨-, err, hrun⟩
    · rw [call, hrun]
      exact removeKey_keptIn member.key (h owner rfl)
    · rw [call, hrun]
      exact (Kept.refl heap).keptIn region
  | copyConstruct depth staticType source =>
    rw [call, finalState_bind_pure]
    exact (constructAs_kept C hheap depth staticType source).keptIn region
  | copyAssign depth target source => exact copyAssign_keptIn C hheap depth source (h target rfl)

/-- A run leaves a region as it is if no call of it is made to change an object there. -/
theorem run_keptIn (hheap : heap.WellFormed) (calls : List (ObjectCall T D))
    (h : ∀ c ∈ calls, ∀ a ∈ c.changed, ¬ region a) :
    KeptIn region heap (Runs.run (step C) heap calls) := by
  induction calls generalizing heap with
  | nil => exact (Kept.refl heap).keptIn region
  | cons c calls ih =>
    have hfirst := step_keptIn C hheap c (h c List.mem_cons_self)
    exact hfirst.trans (ih (step_wellFormed C hheap c) fun d hd => h d (List.mem_cons_of_mem c hd))

end ObjectCall

open Heap ObjectCall

/-! ## Copies -/

/-- The objects `mine` hold no others, and stay as they are through every run of calls that change
none of them; so does what stands below each of them. -/
structure Separate (C : EntityClasses T D) (heap : Heap T D) (mine : Nat → Prop) : Prop where
  closed : heap.HoldsOnly mine mine
  stays : ∀ calls : List (ObjectCall T D), (∀ c ∈ calls, ∀ a ∈ c.changed, ¬ mine a) →
    KeptIn mine heap (Runs.run (step C) heap calls) ∧
      ∀ a b, mine a → (AtOrBelow (Runs.run (step C) heap calls) a b ↔ AtOrBelow heap a b)

theorem separate_of_closed (C : EntityClasses T D) {heap : Heap T D} (hheap : heap.WellFormed)
    {mine : Nat → Prop} (hclosed : heap.HoldsOnly mine mine)
    (hlt : ∀ a, mine a → a < heap.length) : Separate C heap mine := by
  refine ⟨hclosed, fun calls hcalls => ?_⟩
  have hkept := run_keptIn C hheap calls hcalls
  exact ⟨hkept, fun a b ha => hkept.atOrBelow_iff hclosed hlt ha⟩

/-- The objects that hold something are there. -/
theorem Heap.holdsOnly_new {heap : Heap T D} (held : Nat → Prop) :
    heap.HoldsOnly (fun a => heap.length ≤ a) held := by
  rintro a b ha ⟨object, hobject, -⟩
  exact absurd (List.getElem?_eq_some_iff.mp hobject).1 (Nat.not_lt.mpr ha)

/-- When the copy constructor returns, all that is at or below the copy is new, and what was there
holds nothing new. -/
theorem Heap.constructAs_apart (C : EntityClasses T D) {heap heap' : Heap T D}
    (hheap : heap.WellFormed) {depth source copy : Nat} {staticType : T}
    (h : (constructAs C depth staticType source).run heap = .ok copy heap') :
    (heap'.WellFormed ∧ heap <+: heap' ∧ copy < heap'.length) ∧
      (∀ b, AtOrBelow heap' copy b → heap.length ≤ b) ∧
      heap'.HoldsOnly (fun a => a < heap.length) (fun a => a < heap.length) := by
  have hconstructs := constructAs_constructs C depth staticType source hheap
  have hnew := constructAs_holdsOnly C depth staticType source hheap le_rfl (holdsOnly_new _)
  rw [h] at hconstructs hnew
  obtain ⟨hwf, hstart, hlow, hhigh⟩ := hconstructs
  refine ⟨⟨hwf, hstart, hhigh⟩, fun b hb => HoldsOnly.atOrBelow hnew hlow hb, ?_⟩
  intro a b ha hholds
  have hkept := (Kept.of_isPrefix hstart).keptIn fun _ => True
  exact lt_of_holds hheap ((hkept.holds_iff trivial ha).mp hholds)

/-- In every heap that a program reaches: when the copy constructor returns, at whatever depth, the
objects that were there are as before and what stands below the copy is new. The copy and what was
there are separate: in every run of later calls, the copy and all that is below it stay as they are
while no call changes an object below the copy, and the objects that were there stay as they are
while no call changes one of them. (A copy made from one of them that fails can add an entry
without a constructor to it.) -/
theorem copies_are_separate (C : EntityClasses T D) (before : List (ObjectCall T D))
    {depth source copy : Nat} {staticType : T} {heap' : Heap T D}
    (h : (constructAs C depth staticType source).run (Runs.run (step C) [] before) =
      .ok copy heap') :
    Runs.run (step C) [] before <+: heap' ∧
      (∀ b, AtOrBelow heap' copy b → (Runs.run (step C) [] before).length ≤ b) ∧
      Separate C heap' (AtOrBelow heap' copy) ∧
      Separate C heap' (fun a => a < (Runs.run (step C) [] before).length) := by
  generalize hheap : Runs.run (step C) [] before = heap at h ⊢
  have hwf : heap.WellFormed := hheap ▸ run_wellFormed C before
  obtain ⟨⟨hwf', hstart, hhigh⟩, hnew, hold⟩ := constructAs_apart C hwf h
  refine ⟨hstart, hnew, ?_, ?_⟩
  · exact separate_of_closed C hwf' (holdsOnly_atOrBelow heap' copy)
      fun a ha => lt_of_atOrBelow hwf' hhigh ha
  · exact separate_of_closed C hwf' hold fun a ha => lt_of_lt_of_le ha hstart.length_le

/-- An entity with a member. -/
def oneMember : List (ObjectCall Unit Unit) :=
  [.create "s".toList () (), .create "m".toList () (), .aggregateMember 0 () (some 1)]

/-- The member of the copy is a new object. -/
theorem copies_are_separate_oneMember :
    ∃ heap', (constructAs oneClass 2 () 0).run (Runs.run (step oneClass) [] oneMember) =
        .ok 3 heap' ∧ ∀ b, AtOrBelow heap' 3 b → 2 ≤ b := by
  refine ⟨_, rfl, ?_⟩
  exact (@copies_are_separate _ _ oneClass oneMember 2 0 3 () _ rfl).2.1

/-- In every heap that a program reaches: an assignment between two objects, whether it returns or
throws at some member, changes no other object that was there, and what stands below its target
afterwards is new. In every run of later calls, the target and all below it stay as they are while
no call changes an object at or below it, and so do the objects that were there and do not stand
above the target, while no call changes one of them. -/
theorem assigned_members_are_separate (C : EntityClasses T D) (before : List (ObjectCall T D))
    {heap heap' : Heap T D} (hheap : Runs.run (step C) [] before = heap) {depth target source : Nat}
    (hne : target ≠ source) (htarget : target < heap.length) (hsource : source < heap.length)
    (h : step C heap (.copyAssign depth target source) = heap') :
    KeptIn (fun a => a ≠ target) heap heap' ∧
      (∀ b, AtOrBelow heap' target b → b = target ∨ heap.length ≤ b) ∧
      Separate C heap' (AtOrBelow heap' target) ∧
      Separate C heap' (fun a => a < heap.length ∧ ¬ AtOrBelow heap' a target) := by
  have hwf : heap.WellFormed := hheap ▸ run_wellFormed C before
  have hwf' : heap'.WellFormed := h ▸ step_wellFormed C hwf _
  have hkept : KeptIn (fun a => a ≠ target) heap heap' :=
    h ▸ step_keptIn C hwf _ fun a ha => by
      cases ha
      exact fun hne => hne rfl
  obtain ⟨hnew, hlength⟩ := copyAssign_holdsOnly C hwf depth hne htarget hsource
  rw [show finalState ((copyAssign C depth target source).run heap) = heap' from h] at hnew hlength
  refine ⟨hkept, fun b hb => ?_, ?_, ?_⟩
  · exact HoldsOnly.atOrBelow (fun a b ha hholds => Or.inr (hnew a b ha hholds)) (Or.inl rfl) hb
  · exact separate_of_closed C hwf' (holdsOnly_atOrBelow heap' target)
      fun a ha => lt_of_atOrBelow hwf' (lt_of_lt_of_le htarget hlength) ha
  · refine separate_of_closed C hwf' ?_ fun a ha => lt_of_lt_of_le ha.1 hlength
    rintro a b ⟨ha, hnot⟩ hholds
    have hne : a ≠ target := fun heq => hnot (heq ▸ .refl)
    refine ⟨lt_of_holds hwf ((hkept.holds_iff hne ha).mp hholds), fun hb => hnot ?_⟩
    exact hb.head hholds

/-- The member of the source is loaded, and the one after it is not. -/
def secondNotLoaded : List (ObjectCall Unit Unit) :=
  oneMember ++ [.aggregateKey 0 "n".toList, .create "t".toList () ()]

/-- The assignment throws; the target holds a copy of the first member, and not the member. -/
theorem assigned_members_are_separate_notLoaded :
    (step oneClass (Runs.run (step oneClass) [] secondNotLoaded) (.copyAssign 2 2 0)).Holds 2 3 ∧
      ¬ AtOrBelow (step oneClass (Runs.run (step oneClass) [] secondNotLoaded)
        (.copyAssign 2 2 0)) 2 1 := by
  obtain ⟨-, hbelow, -, -⟩ := @assigned_members_are_separate _ _ oneClass secondNotLoaded _ _ rfl
    2 2 0 (by decide) (by decide) (by decide) rfl
  refine ⟨⟨_, rfl, "m".toList, List.mem_cons_self⟩, fun hmember => ?_⟩
  rcases hbelow 1 hmember with htarget | hnew
  · exact absurd htarget (by decide)
  · exact absurd hnew (by decide)

end Azulejo
