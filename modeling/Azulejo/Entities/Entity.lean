import Azulejo.Basic
import Azulejo.Lib.LabelledTree
import Mathlib.Data.List.Lex
import Mathlib.Data.Char

/-!
# Entities and the entity registry

An `Entity` owns its members through a map from keys to shared pointers; a null pointer is
a placeholder for a member that is loaded when it is first asked for. `T` stands for the
dynamic types of entities and `D` for the data a derived class adds.
-/

namespace Azulejo

open AssocList

/-- An `Entity` with its dynamic type and the data of its own class. `membersMap` lists
`membersMap_` in key order, a null pointer being `none`; `keyToEntityConstructorMap` has for
each key the static type whose copy constructor was registered under it. -/
inductive Entity (T D : Type) where
  | mk (key : Key) (type : T) (data : D) (membersMap : List (Key × Option (Entity T D)))
      (keyToEntityConstructorMap : List (Key × T))

namespace Entity

variable {T D : Type}

/-- `key_`, which is empty until it is set. -/
def key : Entity T D → Key
  | mk k _ _ _ _ => k

def type : Entity T D → T
  | mk _ t _ _ _ => t

def data : Entity T D → D
  | mk _ _ d _ _ => d

def membersMap : Entity T D → List (Key × Option (Entity T D))
  | mk _ _ _ ms _ => ms

def keyToEntityConstructorMap : Entity T D → List (Key × T)
  | mk _ _ _ _ cs => cs

@[simp] theorem key_mk (k : Key) (t : T) (d : D) (ms : List (Key × Option (Entity T D)))
    (cs : List (Key × T)) : (mk k t d ms cs).key = k := rfl
@[simp] theorem membersMap_mk (k : Key) (t : T) (d : D) (ms : List (Key × Option (Entity T D)))
    (cs : List (Key × T)) : (mk k t d ms cs).membersMap = ms := rfl
@[simp] theorem keyToEntityConstructorMap_mk (k : Key) (t : T) (d : D)
    (ms : List (Key × Option (Entity T D))) (cs : List (Key × T)) :
    (mk k t d ms cs).keyToEntityConstructorMap = cs := rfl

def setData (e : Entity T D) (d : D) : Entity T D :=
  mk e.key e.type d e.membersMap e.keyToEntityConstructorMap

def setMembersMap (e : Entity T D) (ms : List (Key × Option (Entity T D))) : Entity T D :=
  mk e.key e.type e.data ms e.keyToEntityConstructorMap

def keyNotSet : Exception := .runtimeError "Entity key has not been set when getting key".toList

/-- `GetKey`. -/
def getKey (e : Entity T D) : Except Exception Key :=
  if e.key = [] then throw keyNotSet else pure e.key

/-- `SetKey`. -/
def setKey (k : Key) (e : Entity T D) : Entity T D :=
  mk k e.type e.data e.membersMap e.keyToEntityConstructorMap

def keyInUse (key : Key) : Exception :=
  .runtimeError ("Cannot aggregate entity using key=".toList ++ key ++
    " because this key is already in use.".toList)

/-- `AggregateMember(key)`: a placeholder for a member to be loaded later. -/
def aggregateKey (key : Key) (e : Entity T D) : Except Exception (Entity T D) :=
  match List.lookup key e.membersMap with
  | some _ => throw (keyInUse key)
  | none => pure (e.setMembersMap (insertSorted key none e.membersMap))

/-- `RegisterEntityConstructor<T>(key)`: `std::map::insert` keeps an existing entry. -/
def registerEntityConstructor (staticType : T) (key : Key) (e : Entity T D) : Entity T D :=
  match List.lookup key e.keyToEntityConstructorMap with
  | some _ => e
  | none => mk e.key e.type e.data e.membersMap
      (insertSorted key staticType e.keyToEntityConstructorMap)

/-- `AggregateMember<T>(sharedObj)`, `T` being `staticType`. -/
def aggregateMember (staticType : T) (sharedObj : Option (Entity T D)) (e : Entity T D) :
    Except Exception (Entity T D) :=
  match sharedObj with
  | none => throw (.runtimeError "Entity is nullptr when aggregating entity".toList)
  | some m => do
    let key ← m.getKey
    match List.lookup key e.membersMap with
    | some _ => throw (keyInUse key)
    | none =>
      pure (registerEntityConstructor staticType key
        (e.setMembersMap (insertSorted key (some m) e.membersMap)))

def keyNotInUse (key : Key) : Exception :=
  .runtimeError ("Cannot remove entity using key=".toList ++ key ++
    " because this key is not in use.".toList)

/-- `RemoveMember(key)`. -/
def removeKey (key : Key) (e : Entity T D) : Except Exception (Entity T D) :=
  match List.lookup key e.membersMap with
  | none => throw (keyNotInUse key)
  | some _ => pure (e.setMembersMap (e.membersMap.filter fun p => p.1 ≠ key))

/-- `RemoveMember(sharedObj)`, which goes by the key that the object has. -/
def removeMember (sharedObj : Option (Entity T D)) (e : Entity T D) :
    Except Exception (Entity T D) :=
  match sharedObj with
  | none => throw (.runtimeError "Entity is nullptr when removing entity".toList)
  | some m => do
    let key ← m.getKey
    e.removeKey key

/-- The entity with a new member, as `aggregateMember` leaves it. -/
def withMember (staticType : T) (key : Key) (m : Entity T D) (e : Entity T D) : Entity T D :=
  registerEntityConstructor staticType key
    (e.setMembersMap (insertSorted key (some m) e.membersMap))

theorem registerEntityConstructor_setMembersMap (staticType : T) (k : Key) (e : Entity T D)
    (ms : List (Key × Option (Entity T D))) :
    (registerEntityConstructor staticType k e).setMembersMap ms =
      registerEntityConstructor staticType k (e.setMembersMap ms) := by
  obtain ⟨key, type, data, members, ctors⟩ := e
  simp only [registerEntityConstructor, setMembersMap, keyToEntityConstructorMap_mk]
  split <;> rfl

@[simp] theorem membersMap_registerEntityConstructor (staticType : T) (k : Key)
    (e : Entity T D) : (registerEntityConstructor staticType k e).membersMap = e.membersMap := by
  unfold registerEntityConstructor
  split <;> rfl

@[simp] theorem key_registerEntityConstructor (staticType : T) (k : Key) (e : Entity T D) :
    (registerEntityConstructor staticType k e).key = e.key := by
  unfold registerEntityConstructor
  split <;> rfl

@[simp] theorem membersMap_setMembersMap (e : Entity T D)
    (ms : List (Key × Option (Entity T D))) : (e.setMembersMap ms).membersMap = ms := rfl

@[simp] theorem key_setMembersMap (e : Entity T D) (ms : List (Key × Option (Entity T D))) :
    (e.setMembersMap ms).key = e.key := rfl

@[simp] theorem membersMap_setData (e : Entity T D) (d : D) :
    (e.setData d).membersMap = e.membersMap := rfl

@[simp] theorem key_setData (e : Entity T D) (d : D) : (e.setData d).key = e.key := rfl

@[simp] theorem membersMap_withMember (staticType : T) (k : Key) (m e : Entity T D) :
    (withMember staticType k m e).membersMap = insertSorted k (some m) e.membersMap := by
  simp [withMember]

@[simp] theorem key_withMember (staticType : T) (k : Key) (m e : Entity T D) :
    (withMember staticType k m e).key = e.key := by
  simp [withMember]

theorem type_withMember (staticType : T) (k : Key) (m e : Entity T D) :
    (withMember staticType k m e).type = e.type := by
  unfold withMember registerEntityConstructor
  split <;> rfl

theorem data_withMember (staticType : T) (k : Key) (m e : Entity T D) :
    (withMember staticType k m e).data = e.data := by
  unfold withMember registerEntityConstructor
  split <;> rfl

/-- Replacing a member just added is adding the new one. -/
theorem withMember_setIn {staticType : T} {k : Key} {e : Entity T D}
    (h : k ∉ keys e.membersMap) (m m' : Entity T D) :
    (withMember staticType k m e).setMembersMap
        (setIn k (some m') (withMember staticType k m e).membersMap) =
      withMember staticType k m' e := by
  rw [membersMap_withMember, setIn_insertSorted h]
  unfold withMember
  rw [registerEntityConstructor_setMembersMap]
  rfl

/-- `AggregateMember<T>` returns when the key can be used and is free. -/
theorem aggregateMember_eq_ok {staticType : T} {m e e' : Entity T D} :
    e.aggregateMember staticType (some m) = .ok e' ↔
      m.key ≠ [] ∧ m.key ∉ keys e.membersMap ∧ e' = withMember staticType m.key m e := by
  have hlookup : List.lookup m.key e.membersMap = none ↔ m.key ∉ keys e.membersMap := lookup_none
  by_cases hkey : m.key = []
  · have hthrow : e.aggregateMember staticType (some m) =
        .error keyNotSet := by
      simp only [aggregateMember, getKey, hkey, if_true]
      rfl
    simp [hthrow, hkey]
  · have hget : m.getKey = .ok m.key := by
      simp only [getKey, hkey, if_false]
      rfl
    simp only [aggregateMember, hget]
    show (match List.lookup m.key e.membersMap with
      | some _ => throw (keyInUse m.key)
      | none => pure (withMember staticType m.key m e)) = Except.ok e' ↔ _
    cases hl : List.lookup m.key e.membersMap with
    | none =>
      have hfree := hlookup.mp hl
      constructor
      · intro h
        cases h
        exact ⟨hkey, hfree, rfl⟩
      · rintro ⟨_, _, rfl⟩
        rfl
    | some p =>
      have hused : ¬ m.key ∉ keys e.membersMap := by
        rw [← hlookup, hl]
        simp
      constructor
      · intro h
        cases h
      · rintro ⟨_, h, _⟩
        exact absurd h hused

theorem removeKey_eq_ok {key : Key} {e e' : Entity T D} (h : e.removeKey key = .ok e') :
    e' = e.setMembersMap (e.membersMap.filter fun p => p.1 ≠ key) := by
  unfold removeKey at h
  cases hlookup : List.lookup key e.membersMap with
  | none =>
    rw [hlookup] at h
    cases h
  | some pointer =>
    rw [hlookup] at h
    cases h
    rfl

/-- What `RemoveMember` of an object leaves. -/
theorem removeMember_eq_ok {sharedObj : Option (Entity T D)} {e e' : Entity T D}
    (h : e.removeMember sharedObj = .ok e') :
    ∃ key, e' = e.setMembersMap (e.membersMap.filter fun p => p.1 ≠ key) := by
  cases sharedObj with
  | none => cases h
  | some m =>
    unfold removeMember getKey at h
    by_cases hkey : m.key = []
    · simp only [hkey, if_true] at h
      cases h
    · simp only [hkey, if_false] at h
      exact ⟨m.key, removeKey_eq_ok h⟩

/-- Aggregating keeps the members in key order. -/
theorem sorted_aggregateMember {staticType : T} {sharedObj : Option (Entity T D)}
    {e e' : Entity T D} (hsorted : Sorted e.membersMap)
    (h : e.aggregateMember staticType sharedObj = .ok e') : Sorted e'.membersMap := by
  cases sharedObj with
  | none => cases h
  | some m =>
    obtain ⟨_, _, rfl⟩ := aggregateMember_eq_ok.mp h
    rw [membersMap_withMember]
    exact sorted_insertSorted hsorted (some m)

theorem sorted_aggregateKey {key : Key} {e e' : Entity T D} (hsorted : Sorted e.membersMap)
    (h : e.aggregateKey key = .ok e') : Sorted e'.membersMap := by
  unfold aggregateKey at h
  cases hlookup : List.lookup key e.membersMap with
  | some pointer =>
    rw [hlookup] at h
    cases h
  | none =>
    rw [hlookup] at h
    cases h
    rw [membersMap_setMembersMap]
    exact sorted_insertSorted hsorted none

mutual
/-- The keys of an entity tree: the key each entity carries, and the keys its members are
kept under. -/
def keyTree : Entity T D → LTree Key (Option Key)
  | mk key _ _ membersMap _ => .node (some key) (keyTrees membersMap)
def keyTrees : List (Key × Option (Entity T D)) → List (Key × LTree Key (Option Key))
  | [] => []
  | (key, none) :: members => (key, .node none []) :: keyTrees members
  | (key, some m) :: members => (key, keyTree m) :: keyTrees members
end

theorem keyTree_eq (e : Entity T D) : e.keyTree = .node (some e.key) (keyTrees e.membersMap) := by
  cases e
  simp [keyTree]

/-- `GetAggregatedMemberKeys<I>()`: the keys of the members whose dynamic type implements
`I`. A null pointer fails the cast. -/
def getAggregatedMemberKeys (implements : T → Bool) (e : Entity T D) : List Key :=
  e.membersMap.filterMap fun p => p.2.bind fun m => if implements m.type then some p.1 else none

end Entity

/-- `EntityRegistry<EntityStorageType>`: for each registered key the entity its constructor
function makes. -/
structure EntityRegistry (T D : Type) where
  keyToEntityMap : Key → Option (Entity T D)

namespace EntityRegistry

variable {T D : Type}

/-- `HasRegisteredKey`. -/
def hasRegisteredKey (r : EntityRegistry T D) (key : Key) : Bool := (r.keyToEntityMap key).isSome

/-- `GenerateEntity`. -/
def generateEntity (r : EntityRegistry T D) (key : Key) : Except Exception (Entity T D) :=
  match r.keyToEntityMap key with
  | none => throw (.runtimeError ("Key=".toList ++ key ++
      " is not registered with the EntityRegistry".toList))
  | some e => pure (e.setKey key)

end EntityRegistry

end Azulejo
