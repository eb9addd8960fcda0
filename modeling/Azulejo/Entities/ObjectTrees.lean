import Azulejo.Entities.ObjectSpecs

/-!
# The trees that objects stand for

`Represents heap region e a`: the object at `a`, with what is below it, is the finite entity tree
`e`, and all of it lies in `region`. A tree stays what it is when the heap changes elsewhere. On
objects that are a tree the copy constructor on the heap makes, in new objects, the tree that the
copy constructor on trees makes.
-/

namespace Azulejo

open AssocList Stateful

variable {T D : Type}

mutual
/-- The number of levels of an entity tree. -/
def Entity.height : Entity T D → Nat
  | .mk _ _ _ membersMap _ => Entity.membersHeight membersMap + 1
def Entity.membersHeight : List (Key × Option (Entity T D)) → Nat
  | [] => 0
  | (_, none) :: members => Entity.membersHeight members
  | (_, some m) :: members => max m.height (Entity.membersHeight members)
end

theorem Entity.height_eq (e : Entity T D) : e.height = Entity.membersHeight e.membersMap + 1 := by
  cases e
  rw [Entity.height]
  rfl

theorem Entity.height_le_of_mem {key : Key} {m : Entity T D}
    {members : List (Key × Option (Entity T D))} (h : (key, some m) ∈ members) :
    m.height ≤ Entity.membersHeight members := by
  induction members with
  | nil => cases h
  | cons p members ih =>
    obtain ⟨k, pointer⟩ := p
    rcases List.mem_cons.mp h with heq | hmem
    · cases heq
      rw [Entity.membersHeight]
      exact Nat.le_max_left _ _
    · cases pointer with
      | none =>
        rw [Entity.membersHeight]
        exact ih hmem
      | some m' =>
        rw [Entity.membersHeight]
        exact le_trans (ih hmem) (Nat.le_max_right _ _)

theorem Entity.height_lt_of_mem {key : Key} {m e : Entity T D}
    (h : (key, some m) ∈ e.membersMap) : m.height < e.height := by
  rw [Entity.height_eq e]
  exact Nat.lt_succ_of_le (Entity.height_le_of_mem h)

mutual
theorem Entity.height_bare : ∀ e : Entity T D, e.bare.height = e.height
  | .mk _ _ _ membersMap _ => by
    rw [Entity.bare, Entity.height, Entity.height, Entity.membersHeight_bareMembers membersMap]
theorem Entity.membersHeight_bareMembers : ∀ members : List (Key × Option (Entity T D)),
    Entity.membersHeight (Entity.bareMembers members) = Entity.membersHeight members
  | [] => by rw [Entity.bareMembers]
  | (_, none) :: members => by
    rw [Entity.bareMembers, Entity.membersHeight, Entity.membersHeight,
      Entity.membersHeight_bareMembers members]
  | (_, some m) :: members => by
    rw [Entity.bareMembers, Entity.membersHeight, Entity.membersHeight, Entity.height_bare m,
      Entity.membersHeight_bareMembers members]
end

mutual
/-- A copy has the levels of the tree it was made of. -/
theorem Entity.height_of_constructAs {C : EntityClasses T D} : ∀ {e c : Entity T D} {t : T},
    Entity.constructAs C t e = .ok c → c.height = e.height
  | .mk key type data membersMap ctors, c, t, h => by
    obtain ⟨-, members, hmembers, rfl⟩ := Entity.constructAs_eq_ok.mp h
    rw [Entity.height, Entity.height, Entity.membersHeight_of_copyMembers hmembers]
    rfl
theorem Entity.membersHeight_of_copyMembers {C : EntityClasses T D} {ctors : List (Key × T)} :
    ∀ {members copies : List (Key × Option (Entity T D))},
      Entity.copyMembers C ctors members = .ok copies →
        Entity.membersHeight copies = Entity.membersHeight members
  | [], _, h => by
    cases h
    rfl
  | (_, none) :: _, _, h => by cases h
  | (_, some m) :: members, _, h => by
    obtain ⟨-, t, m', members', -, hm', hmembers', rfl⟩ := Entity.copyMembers_cons_eq_ok.mp h
    rw [Entity.membersHeight, Entity.membersHeight, Entity.height_of_constructAs hm',
      Entity.membersHeight_of_copyMembers hmembers']
end

/-- The constructors of an object that are not empty functions. -/
def Object.constructors (object : Object T D) : List (Key × T) :=
  object.keyToEntityConstructorMap.filterMap fun p => p.2.map fun t => (p.1, t)

theorem Object.lookup_constructors {object : Object T D}
    (hnodup : (keys object.keyToEntityConstructorMap).Nodup) (key : Key) :
    List.lookup key object.constructors =
      (List.lookup key object.keyToEntityConstructorMap).join :=
  lookup_filterMap hnodup key

/-- The object is the entity, but for its members. -/
structure Object.Fits (object : Object T D) (e : Entity T D) : Prop where
  key : object.key = e.key
  type : object.type = e.type
  data : object.data = e.data
  constructors : object.constructors = e.keyToEntityConstructorMap
  nodup : (keys object.keyToEntityConstructorMap).Nodup

namespace Heap

mutual
/-- The object at an address is the root of the tree, which lies in `region`. -/
def Represents (heap : Heap T D) (region : Nat → Prop) : Entity T D → Nat → Prop
  | .mk key type data membersMap ctors, a => region a ∧ ∃ object : Object T D,
      heap[a]? = some object ∧ object.Fits (.mk key type data membersMap ctors) ∧
        RepresentsAll heap region membersMap object.membersMap
def RepresentsAll (heap : Heap T D) (region : Nat → Prop) :
    List (Key × Option (Entity T D)) → List (Key × Option Nat) → Prop
  | [], pointers => pointers = []
  | (key, none) :: members, pointers =>
    ∃ rest, pointers = (key, none) :: rest ∧ RepresentsAll heap region members rest
  | (key, some m) :: members, pointers =>
    ∃ a rest, pointers = (key, some a) :: rest ∧ Represents heap region m a ∧
      RepresentsAll heap region members rest
end

variable {heap heap' : Heap T D} {region region' : Nat → Prop}

theorem represents_iff {e : Entity T D} {a : Nat} :
    Represents heap region e a ↔ region a ∧ ∃ object : Object T D, heap[a]? = some object ∧
      object.Fits e ∧ RepresentsAll heap region e.membersMap object.membersMap := by
  cases e
  rw [Represents]
  rfl

mutual
/-- The tree is the same in a heap that has the same objects there. -/
theorem Represents.transport (h : ∀ (x : Nat) (object : Object T D), region x →
    heap[x]? = some object → region' x ∧ heap'[x]? = some object) :
    ∀ {e : Entity T D} {a : Nat}, Represents heap region e a → Represents heap' region' e a
  | .mk key type data membersMap ctors, a, he => by
    rw [Represents] at he ⊢
    obtain ⟨ha, object, hobject, hfits, hmembers⟩ := he
    obtain ⟨ha', hobject'⟩ := h a object ha hobject
    exact ⟨ha', object, hobject', hfits, RepresentsAll.transport h hmembers⟩
theorem RepresentsAll.transport (h : ∀ (x : Nat) (object : Object T D), region x →
    heap[x]? = some object → region' x ∧ heap'[x]? = some object) :
    ∀ {members : List (Key × Option (Entity T D))} {pointers : List (Key × Option Nat)},
      RepresentsAll heap region members pointers → RepresentsAll heap' region' members pointers
  | [], _, hmembers => by
    rw [RepresentsAll] at hmembers ⊢
    exact hmembers
  | (key, none) :: members, _, hmembers => by
    rw [RepresentsAll] at hmembers ⊢
    obtain ⟨rest, rfl, hrest⟩ := hmembers
    exact ⟨rest, rfl, RepresentsAll.transport h hrest⟩
  | (key, some m) :: members, _, hmembers => by
    rw [RepresentsAll] at hmembers ⊢
    obtain ⟨a, rest, rfl, hm, hrest⟩ := hmembers
    exact ⟨a, rest, rfl, Represents.transport h hm, RepresentsAll.transport h hrest⟩
end

theorem representsAll_nil {members : List (Key × Option (Entity T D))}
    (h : RepresentsAll heap region members []) : members = [] := by
  match members with
  | [] => rfl
  | (_, none) :: _ =>
    rw [RepresentsAll] at h
    obtain ⟨rest, hrest, -⟩ := h
    cases hrest
  | (_, some _) :: _ =>
    rw [RepresentsAll] at h
    obtain ⟨a, rest, hrest, -⟩ := h
    cases hrest

/-- The members that a list of pointers with at least one entry stands for. -/
theorem representsAll_cons {members : List (Key × Option (Entity T D))} {key : Key}
    {pointer : Option Nat} {pointers : List (Key × Option Nat)}
    (h : RepresentsAll heap region members ((key, pointer) :: pointers)) :
    ∃ member rest, members = (key, member) :: rest ∧ RepresentsAll heap region rest pointers ∧
      (∀ a ∈ pointer, ∃ m, member = some m ∧ Represents heap region m a) ∧
      (pointer = none → member = none) := by
  match members with
  | [] =>
    rw [RepresentsAll] at h
    cases h
  | (k, none) :: members =>
    rw [RepresentsAll] at h
    obtain ⟨rest, heq, hrest⟩ := h
    cases heq
    exact ⟨none, members, rfl, hrest, nofun, fun _ => rfl⟩
  | (k, some m) :: members =>
    rw [RepresentsAll] at h
    obtain ⟨a, rest, heq, hm, hrest⟩ := h
    cases heq
    refine ⟨some m, members, rfl, hrest, fun a' ha' => ?_, nofun⟩
    cases ha'
    exact ⟨m, rfl, hm⟩

mutual
/-- An object is the root of one tree. -/
theorem Represents.unique : ∀ {e e' : Entity T D} {a : Nat}, Represents heap region e a →
    Represents heap region' e' a → e = e'
  | .mk key type data membersMap ctors, .mk key' type' data' membersMap' ctors', a, h, h' => by
    obtain ⟨-, object, hobject, hfits, hmembers⟩ := represents_iff.mp h
    obtain ⟨-, object', hobject', hfits', hmembers'⟩ := represents_iff.mp h'
    obtain rfl := Option.some.inj (hobject.symm.trans hobject')
    obtain rfl : key = key' := hfits.key.symm.trans hfits'.key
    obtain rfl : type = type' := hfits.type.symm.trans hfits'.type
    obtain rfl : data = data' := hfits.data.symm.trans hfits'.data
    obtain rfl : ctors = ctors' := hfits.constructors.symm.trans hfits'.constructors
    have hsame : membersMap = membersMap' := RepresentsAll.unique hmembers hmembers'
    rw [hsame]
theorem RepresentsAll.unique : ∀ {members members' : List (Key × Option (Entity T D))}
    {pointers : List (Key × Option Nat)}, RepresentsAll heap region members pointers →
      RepresentsAll heap region' members' pointers → members = members'
  | [], members', _, h, h' => by
    rw [RepresentsAll] at h
    subst h
    exact (representsAll_nil h').symm
  | (key, none) :: members, members', _, h, h' => by
    rw [RepresentsAll] at h
    obtain ⟨rest, rfl, hrest⟩ := h
    obtain ⟨member, rest', rfl, hrest', -, hnone⟩ := representsAll_cons h'
    rw [hnone rfl, RepresentsAll.unique hrest hrest']
  | (key, some m) :: members, members', _, h, h' => by
    rw [RepresentsAll] at h
    obtain ⟨a, rest, rfl, hm, hrest⟩ := h
    obtain ⟨member, rest', rfl, hrest', hsome, -⟩ := representsAll_cons h'
    obtain ⟨m', rfl, hm'⟩ := hsome a rfl
    rw [Represents.unique hm hm', RepresentsAll.unique hrest hrest']
end

theorem RepresentsAll.keys_eq {members : List (Key × Option (Entity T D))}
    {pointers : List (Key × Option Nat)} (h : RepresentsAll heap region members pointers) :
    keys pointers = keys members := by
  induction pointers generalizing members with
  | nil =>
    rw [representsAll_nil h]
    rfl
  | cons p pointers ih =>
    obtain ⟨member, rest, rfl, hrest, -⟩ := representsAll_cons h
    rw [keys_cons, keys_cons, ih hrest]

theorem RepresentsAll.concat {members : List (Key × Option (Entity T D))}
    {pointers : List (Key × Option Nat)} (h : RepresentsAll heap region members pointers)
    (key : Key) {m : Entity T D} {a : Nat} (hm : Represents heap region m a) :
    RepresentsAll heap region (members ++ [(key, some m)]) (pointers ++ [(key, some a)]) := by
  induction members generalizing pointers with
  | nil =>
    rw [RepresentsAll] at h
    subst h
    refine ⟨a, [], rfl, hm, ?_⟩
    rw [RepresentsAll]
  | cons p members ih =>
    obtain ⟨k, pointer⟩ := p
    cases pointer with
    | none =>
      rw [RepresentsAll] at h
      obtain ⟨rest, rfl, hrest⟩ := h
      exact ⟨_, rfl, ih hrest⟩
    | some m' =>
      rw [RepresentsAll] at h
      obtain ⟨a', rest, rfl, hm', hrest⟩ := h
      exact ⟨a', _, rfl, hm', ih hrest⟩

/-! ## What is below an object -/

/-- The object at `a` holds the one at `b`. -/
def Holds (heap : Heap T D) (a b : Nat) : Prop :=
  ∃ object : Object T D, heap[a]? = some object ∧ ∃ key, (key, some b) ∈ object.membersMap

/-- `b` is `a`, or stands below it. -/
def AtOrBelow (heap : Heap T D) : Nat → Nat → Prop := Relation.ReflTransGen heap.Holds

theorem RepresentsAll.exists_of_mem {members : List (Key × Option (Entity T D))}
    {pointers : List (Key × Option Nat)} (h : RepresentsAll heap region members pointers)
    {key : Key} {a : Nat} (ha : (key, some a) ∈ pointers) :
    ∃ m, (key, some m) ∈ members ∧ Represents heap region m a := by
  induction pointers generalizing members with
  | nil => cases ha
  | cons p pointers ih =>
    obtain ⟨k, pointer⟩ := p
    obtain ⟨member, rest, rfl, hrest, hsome, -⟩ := representsAll_cons h
    rcases List.mem_cons.mp ha with heq | ha
    · obtain ⟨rfl, rfl⟩ := Prod.mk.inj heq
      obtain ⟨m, rfl, hm⟩ := hsome a rfl
      exact ⟨m, List.mem_cons_self, hm⟩
    · obtain ⟨m, hmem, hm⟩ := ih hrest ha
      exact ⟨m, List.mem_cons_of_mem _ hmem, hm⟩

/-- What the root of a tree holds is the root of a smaller one. -/
theorem Represents.exists_of_holds {e : Entity T D} {a b : Nat} (h : Represents heap region e a)
    (hb : heap.Holds a b) :
    ∃ m, Represents heap region m b ∧ m.height < e.height ∧ (e.Typed → m.Typed) := by
  obtain ⟨-, object, hobject, -, hmembers⟩ := represents_iff.mp h
  obtain ⟨object', hobject', key, hkey⟩ := hb
  obtain rfl := Option.some.inj (hobject.symm.trans hobject')
  obtain ⟨m, hmem, hm⟩ := hmembers.exists_of_mem hkey
  refine ⟨m, hm, Entity.height_lt_of_mem hmem, fun htyped => ?_⟩
  rw [Entity.typed_eq, Entity.membersTyped_iff] at htyped
  obtain ⟨m', hm', -, -, htypedm⟩ := htyped (key, some m) hmem
  obtain rfl := Option.some.inj hm'
  exact htypedm

/-- What is below the root of a tree is the root of a part of it. -/
theorem Represents.exists_of_atOrBelow {e : Entity T D} {a b : Nat}
    (h : Represents heap region e a) (hb : AtOrBelow heap a b) :
    ∃ e', Represents heap region e' b ∧ e'.height ≤ e.height ∧ (e.Typed → e'.Typed) := by
  induction hb with
  | refl => exact ⟨e, h, le_rfl, id⟩
  | tail _ hholds ih =>
    obtain ⟨e', he', hheight, htyped⟩ := ih
    obtain ⟨m, hm, hlt, htypedm⟩ := he'.exists_of_holds hholds
    exact ⟨m, hm, le_trans (le_of_lt hlt) hheight, fun h => htypedm (htyped h)⟩

/-- The root of a tree is not below itself. -/
theorem Represents.not_atOrBelow_of_holds {e : Entity T D} {a b : Nat}
    (h : Represents heap region e a) (hb : heap.Holds a b) : ¬ AtOrBelow heap b a := by
  intro hback
  obtain ⟨m, hm, hlt, -⟩ := h.exists_of_holds hb
  obtain ⟨e', he', hle, -⟩ := hm.exists_of_atOrBelow hback
  rw [he'.unique h] at hle
  exact absurd hlt (Nat.not_lt.mpr hle)

/-! ## Copies of trees -/

variable {C : EntityClasses T D}

theorem Represents.of_isPrefix {e : Entity T D} {a : Nat} (h : Represents heap region e a)
    (hstart : heap <+: heap') (hregion : ∀ x, region x → region' x) :
    Represents heap' region' e a :=
  h.transport fun x _ hx hobject => ⟨hregion x hx, getElem?_of_isPrefix hstart hobject⟩

theorem RepresentsAll.of_isPrefix {members : List (Key × Option (Entity T D))}
    {pointers : List (Key × Option Nat)} (h : RepresentsAll heap region members pointers)
    (hstart : heap <+: heap') (hregion : ∀ x, region x → region' x) :
    RepresentsAll heap' region' members pointers :=
  h.transport fun x _ hx hobject => ⟨hregion x hx, getElem?_of_isPrefix hstart hobject⟩

/-- The constructor for a member on the heap is the one of the tree. -/
theorem constructorFor_iff {owner a : Nat} {object : Object T D} {e m : Entity T D}
    (hobject : heap[owner]? = some object) (hfits : object.Fits e)
    (hm : Represents heap region m a) {t : T} :
    ConstructorFor heap owner a t ↔
      m.key ≠ [] ∧ List.lookup m.key e.keyToEntityConstructorMap = some t := by
  obtain ⟨-, member, hmember, hfitsm, -⟩ := represents_iff.mp hm
  rw [← hfits.constructors, Object.lookup_constructors hfits.nodup, Option.join_eq_some_iff,
    ← hfitsm.key]
  constructor
  · rintro ⟨object', member', hobject', hmember', hrest⟩
    obtain rfl := Option.some.inj (hobject.symm.trans hobject')
    obtain rfl := Option.some.inj (hmember.symm.trans hmember')
    exact hrest
  · exact fun hrest => ⟨object, member, hobject, hmember, hrest⟩

mutual
/-- What the copy constructor makes of a tree of objects: new objects, which are the copy of the
tree. -/
theorem Represents.constructAs : ∀ {e : Entity T D} {a depth copy : Nat} {t : T}
    {heap heap' : Heap T D}, Represents heap region e a →
      (constructAs C depth t a).run heap = .ok copy heap' →
        ∃ c, Entity.constructAs C t e = .ok c ∧ heap <+: heap' ∧
          Represents heap' (fun x => heap.length ≤ x) c copy
  | .mk key type data membersMap ctors, a, 0, copy, t, heap, heap', _, hrun => by cases hrun
  | .mk key type data membersMap ctors, a, depth + 1, copy, t, heap, heap', h, hrun => by
    rw [Represents] at h
    obtain ⟨-, object, hobject, hfits, hmembers⟩ := h
    rw [Heap.constructAs, bind_ok (deref_run hobject)] at hrun
    split at hrun
    · rename_i hcast
      obtain ⟨copies, heap₁, hcopies, hallocate⟩ := of_bind_ok hrun
      obtain ⟨cs, hcs, hstart, hall⟩ := RepresentsAll.copyMembers hobject hfits hmembers hcopies
      cases hallocate
      refine ⟨.mk key t (C.slice t type data) cs [], ?_, hstart.trans (List.prefix_append _ _), ?_⟩
      · rw [Entity.constructAs_eq_ok]
        exact ⟨hfits.type ▸ hcast, cs, hcs, rfl⟩
      · rw [Represents]
        refine ⟨hstart.length_le, _, List.getElem?_concat_length, ⟨hfits.key, rfl, ?_, rfl,
          List.nodup_nil⟩, hall.of_isPrefix (List.prefix_append _ _) fun _ => id⟩
        rw [hfits.type, hfits.data]
        rfl
    · cases hrun
theorem RepresentsAll.copyMembers : ∀ {members : List (Key × Option (Entity T D))}
    {pointers copies : List (Key × Option Nat)} {depth owner : Nat} {heap heap' : Heap T D}
    {object : Object T D} {e : Entity T D}, heap[owner]? = some object → object.Fits e →
      RepresentsAll heap region members pointers →
      (copyMembers (constructEntity (constructAs C depth) owner) pointers).run heap =
        .ok copies heap' →
      ∃ cs, Entity.copyMembers C e.keyToEntityConstructorMap members = .ok cs ∧ heap <+: heap' ∧
        RepresentsAll heap' (fun x => heap.length ≤ x) cs copies
  | [], _, _, _, _, _, _, _, _, _, _, h, hrun => by
    rw [RepresentsAll] at h
    subst h
    cases hrun
    refine ⟨[], rfl, List.prefix_rfl, ?_⟩
    rw [RepresentsAll]
  | (key, none) :: members, _, _, _, _, _, _, _, _, _, _, h, hrun => by
    rw [RepresentsAll] at h
    obtain ⟨rest, rfl, -⟩ := h
    cases hrun
  | (key, some m) :: members, _, copies, depth, owner, heap, heap', object, e, hobject, hfits, h,
      hrun => by
    rw [RepresentsAll] at h
    obtain ⟨a, rest, rfl, hm, hrest⟩ := h
    rw [Heap.copyMembers] at hrun
    obtain ⟨copy, heap₁, hcopy, hrun⟩ := of_bind_ok hrun
    obtain ⟨more, heap₂, hmore, hpure⟩ := of_bind_ok hrun
    cases hpure
    obtain ⟨t, hctor, hconstruct⟩ := constructEntity_ok hcopy
    obtain ⟨c, hc, hstart, hrep⟩ := Represents.constructAs hm hconstruct
    obtain ⟨cs, hcs, hstart', hall⟩ := RepresentsAll.copyMembers
      (getElem?_of_isPrefix hstart hobject) hfits (hrest.of_isPrefix hstart fun _ => id) hmore
    obtain ⟨hkey, hlookup⟩ := (constructorFor_iff hobject hfits hm).mp hctor
    refine ⟨(key, some c) :: cs, Entity.copyMembers_cons_eq_ok.mpr
      ⟨hkey, t, c, cs, hlookup, hc, hcs, rfl⟩, hstart.trans hstart', ?_⟩
    rw [RepresentsAll]
    exact ⟨copy, more, rfl, hrep.of_isPrefix hstart' fun _ => id,
      hall.transport fun x _ hx hobject => ⟨le_trans hstart.length_le hx, hobject⟩⟩
end

mutual
/-- A copy of a tree returns when the depth suffices and the tree can be copied. -/
theorem Represents.exists_constructAs : ∀ {e c : Entity T D} {a depth : Nat} {t : T}
    {heap : Heap T D}, Represents heap region e a → Entity.constructAs C t e = .ok c →
      e.height ≤ depth → ∃ copy heap', (constructAs C depth t a).run heap = .ok copy heap'
  | .mk key type data membersMap ctors, c, a, 0, t, heap, _, _, hdepth => by
    rw [Entity.height] at hdepth
    exact absurd hdepth (Nat.not_succ_le_zero _)
  | .mk key type data membersMap ctors, c, a, depth + 1, t, heap, h, hc, hdepth => by
    rw [Represents] at h
    obtain ⟨-, object, hobject, hfits, hmembers⟩ := h
    obtain ⟨hcast, cs, hcs, -⟩ := Entity.constructAs_eq_ok.mp hc
    rw [Entity.height] at hdepth
    obtain ⟨copies, heap', hcopies⟩ := RepresentsAll.exists_copyMembers hobject hfits hmembers hcs
      (Nat.le_of_succ_le_succ hdepth)
    have hcast' : C.derivesFrom object.type t = true := hfits.type ▸ hcast
    rw [Heap.constructAs, bind_ok (deref_run hobject), if_pos hcast', bind_ok hcopies, allocate_run]
    exact ⟨_, _, rfl⟩
theorem RepresentsAll.exists_copyMembers : ∀ {members cs : List (Key × Option (Entity T D))}
    {pointers : List (Key × Option Nat)} {depth owner : Nat} {heap : Heap T D}
    {object : Object T D} {e : Entity T D}, heap[owner]? = some object → object.Fits e →
      RepresentsAll heap region members pointers →
      Entity.copyMembers C e.keyToEntityConstructorMap members = .ok cs →
      Entity.membersHeight members ≤ depth →
      ∃ copies heap', (copyMembers (constructEntity (constructAs C depth) owner)
        pointers).run heap = .ok copies heap'
  | [], _, _, _, _, heap, _, _, _, _, h, _, _ => by
    rw [RepresentsAll] at h
    subst h
    exact ⟨[], heap, rfl⟩
  | (key, none) :: members, _, _, _, _, _, _, _, _, _, _, hcs, _ => by cases hcs
  | (key, some m) :: members, cs, _, depth, owner, heap, object, e, hobject, hfits, h, hcs,
      hdepth => by
    rw [RepresentsAll] at h
    obtain ⟨a, rest, rfl, hm, hrest⟩ := h
    obtain ⟨hkey, t, c, cs', hlookup, hc, hcs', rfl⟩ := Entity.copyMembers_cons_eq_ok.mp hcs
    rw [Entity.membersHeight, Nat.max_le] at hdepth
    have hctor := (constructorFor_iff hobject hfits hm).mpr ⟨hkey, hlookup⟩
    obtain ⟨copy, heap₁, hcopy⟩ := Represents.exists_constructAs hm hc hdepth.1
    obtain ⟨-, -, hstart, -⟩ := hm.constructAs hcopy
    obtain ⟨more, heap₂, hmore⟩ := RepresentsAll.exists_copyMembers
      (getElem?_of_isPrefix hstart hobject) hfits (hrest.of_isPrefix hstart fun _ => id) hcs'
      hdepth.2
    refine ⟨(key, some copy) :: more, heap₂, ?_⟩
    rw [Heap.copyMembers, bind_ok ((constructEntity_run hctor).trans hcopy), bind_ok hmore]
    rfl
end

end Heap

end Azulejo
