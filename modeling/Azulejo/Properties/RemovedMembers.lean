import Azulejo.Entities.ObjectSpecs

/-!
# Removing a member by its pointer

`RemoveMember` of a pointer goes by the key the object has at that time. The entry that holds the
object is under the key the object had when it was aggregated, and `SetKey` may have been called
since: the entry that is erased is then that of another object, or there is none.
-/

namespace Azulejo

open AssocList Stateful

variable {T D : Type}

namespace Heap

variable {heap : Heap T D}

/-- `RemoveMember` of the pointer throws and changes nothing, or erases exactly the entry that holds
the pointer. -/
def RemovesEntryOf (heap : Heap T D) (sharedObj : Option Nat) (owner : Nat) : Prop :=
  match (removeMember sharedObj owner).run heap with
  | .error _ heap' => heap' = heap
  | .ok _ heap' => ∃ m, sharedObj = some m ∧ heap' = heap.modify owner fun object =>
      { object with membersMap := object.membersMap.filter fun p => p.2 ≠ some m }

/-- If the key of the object is in use, the entry under it is the one that holds the object, and no
other does. -/
def HeldUnderOwnKey (heap : Heap T D) (sharedObj : Option Nat) (owner : Nat) : Prop :=
  ∀ m ∈ sharedObj, ∀ member object, heap[m]? = some member → heap[owner]? = some object →
    member.key ≠ [] → member.key ∈ keys object.membersMap →
      ∀ p ∈ object.membersMap, p.2 = some m ↔ p.1 = member.key

theorem filter_eq_filter_iff {α : Type} {p q : α → Bool} {l : List α} :
    l.filter p = l.filter q ↔ ∀ a ∈ l, p a = q a := by
  refine ⟨fun h a ha => ?_, List.filter_congr⟩
  have hmem : a ∈ l.filter p ↔ a ∈ l.filter q := by rw [h]
  rw [List.mem_filter, List.mem_filter] at hmem
  exact Bool.eq_iff_iff.mpr ⟨fun hp => (hmem.mp ⟨ha, hp⟩).2, fun hq => (hmem.mpr ⟨ha, hq⟩).2⟩

theorem modify_eq_modify_iff {address : Nat} {object : Object T D}
    (h : heap[address]? = some object) (f g : Object T D → Object T D) :
    heap.modify address f = heap.modify address g ↔ f object = g object := by
  constructor
  · intro heq
    have hget : (heap.modify address f)[address]? = (heap.modify address g)[address]? := by rw [heq]
    rw [List.getElem?_modify_eq, List.getElem?_modify_eq, h] at hget
    exact Option.some.inj hget
  · intro heq
    refine List.ext_getElem? fun a => ?_
    by_cases ha : address = a
    · subst ha
      rw [List.getElem?_modify_eq, List.getElem?_modify_eq, h]
      exact congrArg some heq
    · rw [List.getElem?_modify_ne _ _ ha, List.getElem?_modify_ne _ _ ha]

/-- The pointer is right exactly if the key is. -/
theorem removesEntryOf_iff (heap : Heap T D) (sharedObj : Option Nat) (owner : Nat) :
    RemovesEntryOf heap sharedObj owner ↔ HeldUnderOwnKey heap sharedObj owner := by
  unfold RemovesEntryOf HeldUnderOwnKey
  rcases removeMember_cases heap sharedObj owner with ⟨m, member, rfl, hmember, hne, hremove⟩ |
      ⟨hempty, err, hrun⟩
  · rw [hremove]
    rcases removeKey_cases heap member.key owner with ⟨object, hobject, hused, hrun⟩ |
        ⟨hfree, err, hrun⟩
    · simp only [hrun]
      have herased := modify_eq_modify_iff hobject
        (fun object => { object with
          membersMap := object.membersMap.filter fun p => p.1 ≠ member.key })
        (fun object => { object with
          membersMap := object.membersMap.filter fun p => p.2 ≠ some m })
      have hfilter : (∀ p ∈ object.membersMap,
            decide (p.1 ≠ member.key) = decide (p.2 ≠ some m)) ↔
          ∀ p ∈ object.membersMap, p.2 = some m ↔ p.1 = member.key := by
        refine forall_congr' fun p => forall_congr' fun _ => ?_
        rw [decide_eq_decide, ne_eq, ne_eq, not_iff_not]
        exact iff_comm
      rw [Object.mk.injEq, filter_eq_filter_iff, hfilter] at herased
      constructor
      · rintro ⟨m', hm', heq⟩ m'' hm'' member' object' hmember' hobject' - -
        obtain rfl := Option.some.inj hm'
        obtain rfl : m = m'' := Option.some.inj hm''
        obtain rfl := Option.some.inj (hmember.symm.trans hmember')
        obtain rfl := Option.some.inj (hobject.symm.trans hobject')
        exact (herased.mp heq).2.2.2.1
      · intro hheld
        exact ⟨m, rfl, herased.mpr ⟨rfl, rfl, rfl,
          hheld m rfl member object hmember hobject hne hused, rfl⟩⟩
    · simp only [hrun]
      refine iff_of_true trivial ?_
      intro m' hm' member' object' hmember' hobject' _ hused
      obtain rfl : m = m' := Option.some.inj hm'
      obtain rfl := Option.some.inj (hmember.symm.trans hmember')
      exact absurd hused (hfree object' hobject')
  · rw [hrun]
    refine iff_of_true rfl ?_
    intro m hm member object hmember _ hne _
    exact absurd (hempty m hm member hmember) hne

/-! ## Runs that keep the keys of members -/

/-- An object that is held has the key it is held under. -/
def Keyed (heap : Heap T D) : Prop :=
  ∀ (owner : Nat) (object : Object T D), heap[owner]? = some object →
    ∀ p ∈ object.membersMap, ∀ m ∈ p.2, ∀ member : Object T D, heap[m]? = some member →
      member.key = p.1

/-- No entity holds the object. -/
def Unheld (heap : Heap T D) (address : Nat) : Prop :=
  ∀ object ∈ heap, ∀ p ∈ object.membersMap, p.2 ≠ some address

/-- A change of one object that leaves its key. -/
theorem Keyed.modify (h : heap.Keyed) {address : Nat} {f : Object T D → Object T D}
    (hkey : ∀ object, (f object).key = object.key)
    (hmembers : ∀ object : Object T D, heap[address]? = some object → ∀ p ∈ (f object).membersMap,
      p ∈ object.membersMap ∨ ∀ m ∈ p.2, ∀ member : Object T D, heap[m]? = some member →
        member.key = p.1) :
    Keyed (heap.modify address f) := by
  have hkeys : ∀ (m : Nat) (member : Object T D), (heap.modify address f)[m]? = some member →
      ∃ member' : Object T D, heap[m]? = some member' ∧ member'.key = member.key := by
    intro m member hmember
    by_cases hm : address = m
    · subst hm
      rw [List.getElem?_modify_eq] at hmember
      obtain ⟨member', hmember', rfl⟩ := Option.map_eq_some_iff.mp hmember
      exact ⟨member', hmember', (hkey member').symm⟩
    · rw [List.getElem?_modify_ne _ _ hm] at hmember
      exact ⟨member, hmember, rfl⟩
  intro owner object hobject p hp m hm member hmember
  obtain ⟨member', hmember', heq⟩ := hkeys m member hmember
  rw [← heq]
  by_cases howner : address = owner
  · subst howner
    rw [List.getElem?_modify_eq] at hobject
    obtain ⟨object', hobject', rfl⟩ := Option.map_eq_some_iff.mp hobject
    rcases hmembers object' hobject' p hp with hold | hnew
    · exact h address object' hobject' p hold m hm member' hmember'
    · exact hnew m hm member' hmember'
  · rw [List.getElem?_modify_ne _ _ howner] at hobject
    exact h owner object hobject p hp m hm member' hmember'

theorem Keyed.removeKey (h : heap.Keyed) (key : Key) (owner : Nat) :
    Keyed (finalState ((removeKey key owner).run heap)) := by
  rcases removeKey_cases heap key owner with ⟨object, -, -, hrun⟩ | ⟨-, err, hrun⟩
  · rw [hrun]
    exact h.modify (fun _ => rfl) fun o _ p hp => Or.inl (List.mem_filter.mp hp).1
  · rw [hrun]
    exact h

/-- `SetKey` of an object that nobody holds. -/
theorem Keyed.setKey (h : heap.Keyed) {address : Nat} (hunheld : heap.Unheld address) (key : Key) :
    Keyed (heap.modify address fun object => { object with key := key }) := by
  have hsame : ∀ (owner : Nat) (object : Object T D),
      (heap.modify address fun object => { object with key := key })[owner]? = some object →
        ∃ object' : Object T D, heap[owner]? = some object' ∧
          object'.membersMap = object.membersMap := by
    intro owner object hobject
    by_cases howner : address = owner
    · subst howner
      rw [List.getElem?_modify_eq] at hobject
      obtain ⟨object', hobject', rfl⟩ := Option.map_eq_some_iff.mp hobject
      exact ⟨object', hobject', rfl⟩
    · rw [List.getElem?_modify_ne _ _ howner] at hobject
      exact ⟨object, hobject, rfl⟩
  intro owner object hobject p hp m hm member hmember
  obtain ⟨object', hobject', hmembers⟩ := hsame owner object hobject
  rw [← hmembers] at hp
  have hne : address ≠ m := by
    rintro rfl
    exact hunheld object' (List.mem_of_getElem? hobject') p hp hm
  rw [List.getElem?_modify_ne _ _ hne] at hmember
  exact h owner object' hobject' p hp m hm member hmember

/-- A new object holds nothing, and nothing holds it. -/
theorem Keyed.create (h : heap.Keyed) (hheap : heap.WellFormed) (key : Key) (type : T) (data : D) :
    Keyed (heap ++ [⟨key, type, data, [], []⟩]) := by
  intro owner object hobject p hp m hm member hmember
  have howner : owner < heap.length := by
    by_contra hge
    rw [List.getElem?_append_right (Nat.not_lt.mp hge)] at hobject
    obtain rfl := List.mem_singleton.mp (List.mem_of_getElem? hobject)
    cases hp
  rw [List.getElem?_append_left howner] at hobject
  rw [List.getElem?_append_left ((hheap.get hobject).pointers p hp m hm)] at hmember
  exact h owner object hobject p hp m hm member hmember

/-- In such a heap a pointer that is held is held under its own key. -/
theorem Keyed.removesEntryOf (h : heap.Keyed) (hheap : heap.WellFormed) {owner m : Nat}
    {object : Object T D} (hobject : heap[owner]? = some object) {key : Key}
    (hheld : (key, some m) ∈ object.membersMap) : RemovesEntryOf heap (some m) owner := by
  rw [removesEntryOf_iff]
  intro m' hm' member object' hmember hobject' _ _ p hp
  obtain rfl : m = m' := Option.some.inj hm'
  obtain rfl : object = object' := Option.some.inj (hobject.symm.trans hobject')
  have hkey : member.key = key := h owner object hobject (key, some m) hheld m rfl member hmember
  constructor
  · intro hp₂
    exact (h owner object hobject p hp m hp₂ member hmember).symm
  · intro hp₁
    -- one entry under a key
    have hlookup := lookup_of_nodup (hheap.get hobject).members.nodup hheld
    have hsame : p = (key, p.2) := Prod.ext (hp₁.trans hkey) rfl
    rw [hsame] at hp
    rw [lookup_of_nodup (hheap.get hobject).members.nodup hp] at hlookup
    exact Option.some.inj hlookup

end Heap

namespace ObjectCall

open Heap

/-- `SetKey` is called on an object that no entity holds, and no entity is copied. -/
def KeysStay (heap : Heap T D) : ObjectCall T D → Prop
  | setKey address _ => heap.Unheld address
  | copyConstruct _ _ _ => False
  | copyAssign _ _ _ => False
  | _ => True

theorem step_keyed (C : EntityClasses T D) {heap : Heap T D} (hheap : heap.WellFormed)
    (h : heap.Keyed) {c : ObjectCall T D} (hc : KeysStay heap c) : (step C heap c).Keyed := by
  unfold step
  cases c with
  | create key type data => exact h.create hheap key type data
  | setKey address key =>
    rcases setKey_cases heap key address with hrun | ⟨err, hrun⟩
    · rw [call, hrun]
      exact h.setKey hc key
    · rw [call, hrun]
      exact h
  | aggregateKey owner key =>
    rcases aggregateKey_cases heap key owner with ⟨object, -, -, hrun⟩ | ⟨err, hrun⟩
    · rw [call, hrun]
      refine h.modify (fun _ => rfl) fun o _ p hp => ?_
      rcases mem_of_mem_insertSorted hp with rfl | hp
      · refine Or.inr fun m hm => ?_
        cases hm
      · exact Or.inl hp
    · rw [call, hrun]
      exact h
  | aggregateMember owner staticType sharedObj =>
    rcases aggregateMember_cases heap staticType sharedObj owner with
      ⟨m, member, object, -, hmember, -, -, -, hrun⟩ | ⟨err, hrun⟩
    · rw [call, hrun]
      refine h.modify (fun _ => rfl) fun o _ p hp => ?_
      rcases mem_of_mem_insertSorted hp with rfl | hp
      · refine Or.inr fun m' hm' member' hmember' => ?_
        cases hm'
        rw [hmember] at hmember'
        cases hmember'
        rfl
      · exact Or.inl hp
    · rw [call, hrun]
      exact h
  | removeKey owner key => exact h.removeKey key owner
  | removeMember owner sharedObj =>
    rcases removeMember_cases heap sharedObj owner with ⟨m, member, -, -, -, hrun⟩ | ⟨-, err, hrun⟩
    · rw [call, hrun]
      exact h.removeKey member.key owner
    · rw [call, hrun]
      exact h
  | copyConstruct depth staticType source => exact absurd hc id
  | copyAssign depth target source => exact absurd hc id

theorem run_keyed (C : EntityClasses T D) {calls : List (ObjectCall T D)}
    (hcalls : Runs.Meets (step C) KeysStay [] calls) :
    (Runs.run (step C) [] calls).Keyed := by
  have hinv := Runs.invariant (fun heap : Heap T D => heap.WellFormed ∧ heap.Keyed)
    (fun heap c h hc => ⟨step_wellFormed C h.1 c, step_keyed C h.1 h.2 hc⟩)
    ⟨wellFormed_nil, nofun⟩ hcalls
  exact hinv.2

end ObjectCall

open Heap ObjectCall

/-- In every heap that a program reaches, `RemoveMember` of a pointer throws and changes nothing, or
erases exactly the entry that holds the pointer, if and only if the key that the object has is not
in use or its entry, and no other, holds the object. If `SetKey` was called on objects only while no
entity held them, this is so for every pointer that the entity holds. -/
theorem removeMember_by_pointer_iff (C : EntityClasses T D) :
    (∀ (calls : List (ObjectCall T D)) (sharedObj : Option Nat) (owner : Nat),
      RemovesEntryOf (Runs.run (step C) [] calls) sharedObj owner ↔
        HeldUnderOwnKey (Runs.run (step C) [] calls) sharedObj owner) ∧
    ∀ calls : List (ObjectCall T D), Runs.Meets (step C) KeysStay [] calls →
      ∀ (owner m : Nat) (object : Object T D) (key : Key),
        (Runs.run (step C) [] calls)[owner]? = some object → (key, some m) ∈ object.membersMap →
          RemovesEntryOf (Runs.run (step C) [] calls) (some m) owner := by
  refine ⟨fun calls sharedObj owner => removesEntryOf_iff _ sharedObj owner, ?_⟩
  intro calls hcalls owner m object key hobject hheld
  exact (run_keyed C hcalls).removesEntryOf (run_wellFormed C calls) hobject hheld

/-- An entity with the members `a` and `b`. -/
def twoMembers : List (ObjectCall Unit Unit) :=
  [.create "s".toList () (), .create "a".toList () (), .create "b".toList () (),
    .aggregateMember 0 () (some 1), .aggregateMember 0 () (some 2)]

theorem removeMember_by_pointer_iff_twoMembers :
    RemovesEntryOf (Runs.run (step oneClass) [] twoMembers) (some 1) 0 :=
  (removeMember_by_pointer_iff oneClass).2 twoMembers
    ⟨trivial, trivial, trivial, trivial, trivial, trivial⟩ 0 1 _ "a".toList rfl
    List.mem_cons_self

/-- The member `a` gets the key `b`: removing it by its pointer erases the other member. -/
theorem removeMember_erases_other :
    ¬ ∀ (calls : List (ObjectCall Unit Unit)) (sharedObj : Option Nat) (owner : Nat),
      RemovesEntryOf (Runs.run (step oneClass) [] calls) sharedObj owner := by
  intro h
  obtain ⟨m, hm, herased⟩ := h (twoMembers ++ [.setKey 1 "b".toList]) (some 1) 0
  obtain rfl : 1 = m := Option.some.inj hm
  have hleft := congrArg (List.map fun object => keys object.membersMap) herased
  exact absurd hleft (by decide)

end Azulejo
