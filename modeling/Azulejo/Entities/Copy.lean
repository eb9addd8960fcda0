import Azulejo.Entities.Entity

/-!
# Copying entities

The copy constructor of `Entity` copies each member with the constructor registered under the
member's key, which makes an object of the static type it was registered for. The copy has no
constructors of its own, and assignment keeps those of the object that is assigned to. `Typed` says
of an entity that its members, at every depth, have constructors of their own dynamic types; these
are the entities that are copied without loss (`copiesWithoutLoss_iff`).
-/

namespace Azulejo

open AssocList

/-- The classes of entities. `derivesFrom t s` is whether an object of class `t` can be cast to
`s`. `slice s t` is what the copy constructor of `s` copies of the data of an object of class `t`;
a class copies all of its own data. -/
structure EntityClasses (T D : Type) where
  derivesFrom : T → T → Bool
  derivesFrom_self : ∀ t, derivesFrom t t = true
  slice : T → T → D → D
  slice_self : ∀ t d, slice t t d = d

namespace Entity

variable {T D : Type}

/-- What the call of an empty `std::function` throws. -/
def badFunctionCall : Exception := .exception "bad_function_call".toList

/-- What `dynamic_cast` of a reference throws. -/
def badCast : Exception := .exception "std::bad_cast".toList

variable (C : EntityClasses T D)

mutual
/-- `std::make_unique<T>(dynamic_cast<const T &>(other))`, `T` being `staticType`: the copy
constructor of a class copies its base class `Entity` and the data of the class. -/
def constructAs (staticType : T) : Entity T D → Except Exception (Entity T D)
  | mk key type data membersMap ctors =>
    if C.derivesFrom type staticType then do
      let members ← copyMembers ctors membersMap
      pure (mk key staticType (C.slice staticType type data) members [])
    else throw badCast
/-- The loop of the copy constructor of `Entity` with its `ConstructEntity`. A key without a
constructor gets an empty one, which throws when it is called. -/
def copyMembers (ctors : List (Key × T)) :
    List (Key × Option (Entity T D)) → Except Exception (List (Key × Option (Entity T D)))
  | [] => pure []
  | (_, none) :: _ => throw .nullDereference
  | (key, some m) :: members => do
    let memberKey ← m.getKey
    match List.lookup memberKey ctors with
    | none => throw badFunctionCall
    | some staticType => do
      let m' ← constructAs staticType m
      let members' ← copyMembers ctors members
      pure ((key, some m') :: members')
end

/-- The copy constructor of the entity's own class. -/
def copyConstruct (e : Entity T D) : Except Exception (Entity T D) := constructAs C e.type e

/-- `operator=`, for two objects: what `target` is when it returns. -/
def copyAssign (target e : Entity T D) : Except Exception (Entity T D) := do
  let members ← copyMembers C e.keyToEntityConstructorMap e.membersMap
  pure (mk e.key target.type (C.slice target.type e.type e.data) members
    target.keyToEntityConstructorMap)

/-! ## What a copy should be -/

mutual
/-- The entity without the constructors: the keys, the dynamic types and the data at every
position. -/
def bare : Entity T D → Entity T D
  | mk key type data membersMap _ => mk key type data (bareMembers membersMap) []
def bareMembers : List (Key × Option (Entity T D)) → List (Key × Option (Entity T D))
  | [] => []
  | (key, none) :: members => (key, none) :: bareMembers members
  | (key, some m) :: members => (key, some (bare m)) :: bareMembers members
end

/-- The same keys, dynamic types and data at every position, and the same null pointers. -/
def SameTree (e e' : Entity T D) : Prop := e.bare = e'.bare

/-- The entity can be copied, by construction and into any object of its class, and every copy is
the same tree. -/
def CopiesWithoutLoss (e : Entity T D) : Prop :=
  (∃ c, e.copyConstruct C = .ok c ∧ SameTree c e) ∧
    ∀ target : Entity T D, target.type = e.type →
      ∃ c, copyAssign C target e = .ok c ∧ SameTree c e

mutual
/-- Every member is there, and its constructor is the one of its dynamic type; so on for the
members of the members. -/
def Typed : Entity T D → Prop
  | mk _ _ _ membersMap ctors => MembersTyped (fun key => List.lookup key ctors) membersMap
def MembersTyped (constructor : Key → Option T) : List (Key × Option (Entity T D)) → Prop
  | [] => True
  | (_, none) :: _ => False
  | (_, some m) :: members =>
    (m.key ≠ [] ∧ constructor m.key = some m.type ∧ Typed m) ∧ MembersTyped constructor members
end

mutual
/-- Every member is there, and its constructor takes objects of its dynamic type; so on for the
members of the members. -/
def CanCopy : Entity T D → Prop
  | mk _ _ _ membersMap ctors => MembersCanCopy (fun key => List.lookup key ctors) membersMap
def MembersCanCopy (constructor : Key → Option T) : List (Key × Option (Entity T D)) → Prop
  | [] => True
  | (_, none) :: _ => False
  | (_, some m) :: members =>
    (m.key ≠ [] ∧ (∃ staticType, constructor m.key = some staticType ∧
      C.derivesFrom m.type staticType = true) ∧ CanCopy m) ∧ MembersCanCopy constructor members
end

/-- The constructor registered under a key. -/
def constructorOf (e : Entity T D) (key : Key) : Option T :=
  List.lookup key e.keyToEntityConstructorMap

theorem typed_eq (e : Entity T D) : e.Typed = MembersTyped e.constructorOf e.membersMap := by
  cases e
  rw [Typed]
  rfl

theorem bare_eq (e : Entity T D) : e.bare = mk e.key e.type e.data (bareMembers e.membersMap) [] := by
  cases e
  rw [bare]
  rfl

/-- `AggregateMember` adds a constructor only under a key that has none. -/
theorem constructorOf_withMember (staticType : T) (k : Key) (m e : Entity T D) (key : Key) :
    (withMember staticType k m e).constructorOf key =
      (e.constructorOf key).or (if key = k then some staticType else none) := by
  obtain ⟨ekey, type, data, members, ctors⟩ := e
  simp only [withMember, setMembersMap, registerEntityConstructor, constructorOf,
    keyToEntityConstructorMap_mk]
  cases hlookup : List.lookup k ctors with
  | some t =>
    by_cases hkey : key = k
    · simp only [hkey, hlookup, if_true, keyToEntityConstructorMap_mk, Option.or_some]
      rfl
    · simp only [hkey, if_false, keyToEntityConstructorMap_mk, Option.or_none]
  | none =>
    by_cases hkey : key = k
    · simp only [hkey, hlookup, if_true, keyToEntityConstructorMap_mk, lookup_insertSorted_self,
        Option.none_or]
    · simp only [hkey, if_false, keyToEntityConstructorMap_mk, lookup_insertSorted_ne hkey,
        Option.or_none]

/-- The condition on the members, one by one. -/
theorem membersTyped_iff {constructor : Key → Option T}
    {members : List (Key × Option (Entity T D))} :
    MembersTyped constructor members ↔ ∀ p ∈ members, ∃ m, p.2 = some m ∧
      m.key ≠ [] ∧ constructor m.key = some m.type ∧ m.Typed := by
  induction members with
  | nil => simp [MembersTyped]
  | cons p members ih =>
    obtain ⟨key, pointer⟩ := p
    cases pointer with
    | none => simp [MembersTyped]
    | some m => simp [MembersTyped, ih]

/-! ## Copies without loss -/

variable {C}

theorem getKey_eq_ok {m : Entity T D} {key : Key} : m.getKey = .ok key ↔ m.key ≠ [] ∧ key = m.key := by
  unfold getKey
  by_cases h : m.key = []
  · rw [if_pos h]
    exact ⟨nofun, fun hkey => absurd h hkey.1⟩
  · rw [if_neg h]
    constructor
    · intro hok
      cases hok
      exact ⟨h, rfl⟩
    · rintro ⟨-, rfl⟩
      rfl

theorem bind_eq_ok {ε α β : Type} {x : Except ε α} {f : α → Except ε β} {b : β} :
    (x >>= f) = .ok b ↔ ∃ a, x = .ok a ∧ f a = .ok b := by
  cases x with
  | error e => exact ⟨nofun, fun ⟨_, h, _⟩ => nomatch h⟩
  | ok a =>
    constructor
    · intro h
      exact ⟨a, rfl, h⟩
    · rintro ⟨_, ⟨rfl⟩, h⟩
      exact h

/-- What `ConstructEntity` and the rest of the loop have done when the loop returns. -/
theorem copyMembers_cons_eq_ok {ctors : List (Key × T)} {key : Key} {m : Entity T D}
    {members copies : List (Key × Option (Entity T D))} :
    copyMembers C ctors ((key, some m) :: members) = .ok copies ↔
      m.key ≠ [] ∧ ∃ staticType m' members', List.lookup m.key ctors = some staticType ∧
        constructAs C staticType m = .ok m' ∧ copyMembers C ctors members = .ok members' ∧
        copies = (key, some m') :: members' := by
  rw [copyMembers, bind_eq_ok]
  constructor
  · rintro ⟨memberKey, hkey, hrest⟩
    obtain ⟨hne, rfl⟩ := getKey_eq_ok.mp hkey
    cases hlookup : List.lookup m.key ctors with
    | none =>
      rw [hlookup] at hrest
      cases hrest
    | some staticType =>
      rw [hlookup] at hrest
      obtain ⟨m', hm', hrest⟩ := bind_eq_ok.mp hrest
      obtain ⟨members', hmembers', hrest⟩ := bind_eq_ok.mp hrest
      cases hrest
      exact ⟨hne, staticType, m', members', rfl, hm', hmembers', rfl⟩
  · rintro ⟨hne, staticType, m', members', hlookup, hm', hmembers', rfl⟩
    refine ⟨m.key, getKey_eq_ok.mpr ⟨hne, rfl⟩, ?_⟩
    rw [hlookup]
    exact bind_eq_ok.mpr ⟨m', hm', bind_eq_ok.mpr ⟨members', hmembers', rfl⟩⟩

/-- Without constructors there is nothing to copy, or the copy fails. -/
theorem copyMembers_nil_eq_ok {members copies : List (Key × Option (Entity T D))} :
    copyMembers C [] members = .ok copies ↔ members = [] ∧ copies = [] := by
  match members with
  | [] =>
    rw [copyMembers]
    exact ⟨fun h => ⟨rfl, (Except.ok.inj h).symm⟩, fun h => by rw [h.2]; rfl⟩
  | (_, none) :: _ => exact ⟨nofun, nofun⟩
  | (_, some _) :: _ =>
    rw [copyMembers_cons_eq_ok]
    exact ⟨fun ⟨_, _, _, _, hlookup, _⟩ => (nomatch hlookup), nofun⟩

theorem constructAs_eq_ok {staticType : T} {e c : Entity T D} :
    constructAs C staticType e = .ok c ↔ C.derivesFrom e.type staticType = true ∧
      ∃ members, copyMembers C e.keyToEntityConstructorMap e.membersMap = .ok members ∧
        c = mk e.key staticType (C.slice staticType e.type e.data) members [] := by
  obtain ⟨key, type, data, membersMap, ctors⟩ := e
  rw [constructAs]
  by_cases hcast : C.derivesFrom type staticType = true
  · rw [if_pos hcast, bind_eq_ok]
    constructor
    · rintro ⟨members, hmembers, ⟨rfl⟩⟩
      exact ⟨hcast, members, hmembers, rfl⟩
    · rintro ⟨-, members, hmembers, rfl⟩
      exact ⟨members, hmembers, rfl⟩
  · rw [if_neg hcast]
    exact ⟨nofun, fun h => absurd h.1 hcast⟩

mutual
/-- The copy constructor of a class returns for the objects that can be cast to it and whose
members can be copied. -/
theorem exists_constructAs_iff : ∀ (e : Entity T D) (staticType : T),
    (∃ c, constructAs C staticType e = .ok c) ↔
      C.derivesFrom e.type staticType = true ∧ e.CanCopy C
  | mk key type data membersMap ctors, staticType => by
    have hmembers := exists_copyMembers_iff membersMap ctors
    rw [CanCopy, ← hmembers]
    constructor
    · rintro ⟨c, hc⟩
      obtain ⟨hcast, members, hmembers, -⟩ := constructAs_eq_ok.mp hc
      exact ⟨hcast, members, hmembers⟩
    · rintro ⟨hcast, members, hmembers⟩
      exact ⟨_, constructAs_eq_ok.mpr ⟨hcast, members, hmembers, rfl⟩⟩
theorem exists_copyMembers_iff : ∀ (members : List (Key × Option (Entity T D)))
    (ctors : List (Key × T)),
    (∃ copies, copyMembers C ctors members = .ok copies) ↔
      MembersCanCopy C (fun key => List.lookup key ctors) members
  | [], _ => by
    rw [copyMembers, MembersCanCopy]
    exact ⟨fun _ => trivial, fun _ => ⟨[], rfl⟩⟩
  | (_, none) :: _, _ => by
    rw [copyMembers, MembersCanCopy]
    exact ⟨nofun, False.elim⟩
  | (key, some m) :: members, ctors => by
    rw [MembersCanCopy, ← exists_copyMembers_iff members ctors]
    constructor
    · rintro ⟨copies, hcopies⟩
      obtain ⟨hne, staticType, m', members', hlookup, hm', hmembers', -⟩ :=
        copyMembers_cons_eq_ok.mp hcopies
      obtain ⟨hcast, hcan⟩ := (exists_constructAs_iff m staticType).mp ⟨m', hm'⟩
      exact ⟨⟨hne, ⟨staticType, hlookup, hcast⟩, hcan⟩, members', hmembers'⟩
    · rintro ⟨⟨hne, ⟨staticType, hlookup, hcast⟩, hcan⟩, members', hmembers'⟩
      obtain ⟨m', hm'⟩ := (exists_constructAs_iff m staticType).mpr ⟨hcast, hcan⟩
      exact ⟨_, copyMembers_cons_eq_ok.mpr
        ⟨hne, staticType, m', members', hlookup, hm', hmembers', rfl⟩⟩
end

mutual
/-- A copy has no constructors, at any depth. -/
theorem bare_of_constructAs : ∀ (e : Entity T D) {staticType : T} {c : Entity T D},
    constructAs C staticType e = .ok c → c.bare = c
  | mk key type data membersMap ctors, staticType, c, h => by
    obtain ⟨-, members, hmembers, rfl⟩ := constructAs_eq_ok.mp h
    rw [bare, bareMembers_of_copyMembers membersMap hmembers]
theorem bareMembers_of_copyMembers : ∀ (members : List (Key × Option (Entity T D)))
    {ctors : List (Key × T)} {copies : List (Key × Option (Entity T D))},
    copyMembers C ctors members = .ok copies → bareMembers copies = copies
  | [], _, _, h => by
    cases h
    rw [bareMembers]
  | (_, none) :: _, _, _, h => by cases h
  | (_, some m) :: members, _, _, h => by
    obtain ⟨-, staticType, m', members', -, hm', hmembers', rfl⟩ := copyMembers_cons_eq_ok.mp h
    rw [bareMembers, bare_of_constructAs m hm', bareMembers_of_copyMembers members hmembers']
end

mutual
/-- A copy of the static type `staticType` is the same tree exactly when that is the dynamic type
and the members are copied so. -/
theorem constructAs_eq_bare : ∀ (e : Entity T D) (staticType : T),
    constructAs C staticType e = .ok e.bare ↔ staticType = e.type ∧ e.Typed
  | mk key type data membersMap ctors, staticType => by
    rw [constructAs_eq_ok, bare, typed_eq]
    constructor
    · rintro ⟨-, members, hmembers, heq⟩
      injection heq with _ htype _ hbare
      subst hbare
      exact ⟨htype.symm, (copyMembers_eq_bare membersMap ctors).mp hmembers⟩
    · rintro ⟨rfl, htyped⟩
      refine ⟨C.derivesFrom_self _, _, (copyMembers_eq_bare membersMap ctors).mpr htyped, ?_⟩
      show mk key staticType data _ [] = mk key staticType (C.slice staticType staticType data) _ []
      rw [C.slice_self]
theorem copyMembers_eq_bare : ∀ (members : List (Key × Option (Entity T D)))
    (ctors : List (Key × T)),
    copyMembers C ctors members = .ok (bareMembers members) ↔
      MembersTyped (fun key => List.lookup key ctors) members
  | [], _ => by
    rw [copyMembers, bareMembers, MembersTyped]
    exact ⟨fun _ => trivial, fun _ => rfl⟩
  | (_, none) :: _, _ => by
    rw [copyMembers, MembersTyped]
    exact ⟨nofun, False.elim⟩
  | (key, some m) :: members, ctors => by
    rw [copyMembers_cons_eq_ok, bareMembers, MembersTyped, ← copyMembers_eq_bare members ctors]
    constructor
    · rintro ⟨hne, staticType, m', members', hlookup, hm', hmembers', heq⟩
      injection heq with hhead htail
      injection hhead with _ hm
      injection hm with hm
      subst hm htail
      obtain ⟨rfl, htyped⟩ := (constructAs_eq_bare m staticType).mp hm'
      exact ⟨⟨hne, hlookup, htyped⟩, hmembers'⟩
    · rintro ⟨⟨hne, hlookup, htyped⟩, hmembers'⟩
      exact ⟨hne, m.type, m.bare, bareMembers members, hlookup,
        (constructAs_eq_bare m m.type).mpr ⟨rfl, htyped⟩, hmembers', rfl⟩
end

/-- A copy that is the tree `e` has its key, and was made by the constructor of its class. -/
theorem of_constructAs_eq_bare {staticType : T} {e e' : Entity T D}
    (h : constructAs C staticType e' = .ok e.bare) : e'.key = e.key ∧ staticType = e.type := by
  obtain ⟨-, members, -, hbare⟩ := constructAs_eq_ok.mp h
  rw [bare_eq] at hbare
  injection hbare with hkey htype
  exact ⟨hkey.symm, htype.symm⟩

/-- What assignment makes of an object of the same class. -/
theorem copyAssign_eq_ok {target e c : Entity T D} :
    copyAssign C target e = .ok c ↔
      ∃ members, copyMembers C e.keyToEntityConstructorMap e.membersMap = .ok members ∧
        c = mk e.key target.type (C.slice target.type e.type e.data) members
          target.keyToEntityConstructorMap := by
  rw [copyAssign, bind_eq_ok]
  constructor
  · rintro ⟨members, hmembers, ⟨rfl⟩⟩
    exact ⟨members, hmembers, rfl⟩
  · rintro ⟨members, hmembers, rfl⟩
    exact ⟨members, hmembers, rfl⟩

/-- The copy constructor of an entity whose members have constructors of their own types. -/
theorem copyConstruct_of_typed {e : Entity T D} (h : e.Typed) :
    e.copyConstruct C = .ok e.bare :=
  (constructAs_eq_bare e e.type).mpr ⟨rfl, h⟩

theorem copyAssign_of_typed {target e : Entity T D} (h : e.Typed) (htarget : target.type = e.type) :
    copyAssign C target e = .ok (mk e.key e.type e.data (bareMembers e.membersMap)
      target.keyToEntityConstructorMap) := by
  rw [typed_eq] at h
  rw [copyAssign_eq_ok]
  refine ⟨_, (copyMembers_eq_bare e.membersMap _).mpr h, ?_⟩
  rw [htarget, C.slice_self]

mutual
theorem bare_bare : ∀ e : Entity T D, e.bare.bare = e.bare
  | mk _ _ _ membersMap _ => by rw [bare, bare, bareMembers_bareMembers membersMap]
theorem bareMembers_bareMembers : ∀ members : List (Key × Option (Entity T D)),
    bareMembers (bareMembers members) = bareMembers members
  | [] => by rw [bareMembers, bareMembers]
  | (_, none) :: members => by
    rw [bareMembers, bareMembers, bareMembers_bareMembers members]
  | (_, some m) :: members => by
    rw [bareMembers, bareMembers, bare_bare m, bareMembers_bareMembers members]
end

theorem bareMembers_eq_map (members : List (Key × Option (Entity T D))) :
    bareMembers members = members.map fun p => (p.1, p.2.map bare) := by
  induction members with
  | nil => rw [bareMembers, List.map_nil]
  | cons p members ih =>
    obtain ⟨key, pointer⟩ := p
    cases pointer <;> rw [bareMembers, ih] <;> rfl

theorem bareMembers_eq_nil {members : List (Key × Option (Entity T D))} :
    bareMembers members = [] ↔ members = [] := by
  rw [bareMembers_eq_map, List.map_eq_nil_iff]

theorem bareMembers_append (members more : List (Key × Option (Entity T D))) :
    bareMembers (members ++ more) = bareMembers members ++ bareMembers more := by
  rw [bareMembers_eq_map, bareMembers_eq_map, bareMembers_eq_map, List.map_append]

theorem keys_bareMembers (members : List (Key × Option (Entity T D))) :
    keys (bareMembers members) = keys members := by
  rw [bareMembers_eq_map, keys, List.map_map]
  rfl

/-- The copy constructor makes the same tree exactly of the entities whose members, at every
depth, have constructors of their own dynamic types. -/
theorem copyConstruct_same_iff {e : Entity T D} :
    (∃ c, e.copyConstruct C = .ok c ∧ SameTree c e) ↔ e.Typed := by
  constructor
  · rintro ⟨c, hc, hsame⟩
    have hbare : c = e.bare := (bare_of_constructAs e hc).symm.trans hsame
    rw [hbare] at hc
    exact ((constructAs_eq_bare e e.type).mp hc).2
  · intro h
    exact ⟨e.bare, copyConstruct_of_typed h, bare_bare e⟩

theorem copiesWithoutLoss_iff {e : Entity T D} : e.CopiesWithoutLoss C ↔ e.Typed := by
  constructor
  · intro h
    exact copyConstruct_same_iff.mp h.1
  · intro h
    refine ⟨copyConstruct_same_iff.mpr h, fun target htarget => ?_⟩
    refine ⟨_, copyAssign_of_typed h htarget, ?_⟩
    rw [SameTree, bare, bareMembers_bareMembers, bare_eq]

end Entity

end Azulejo
