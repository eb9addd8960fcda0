import Azulejo.Entities.Copy
import Azulejo.Lib.Runs
import Mathlib.Logic.Relation

/-!
# Entity objects that are shared

An entity holds its members by shared pointers, so an object can be held by several others, have
its key changed while it is held, and be assigned to while it stands below the object that is
copied. Here the objects are cells of a heap and a pointer is a position in it. No object is taken
away: a program that uses one holds it, and what nobody holds cannot be seen.

`operator[]` on the map of constructors adds an empty `std::function` for a key that has none; it
stays there, and `insert` does not replace it.
-/

namespace Azulejo

open AssocList Stateful

/-- An entity object: its members are pointers, and a constructor may be an empty function. -/
structure Object (T D : Type) where
  key : Key
  type : T
  data : D
  membersMap : List (Key × Option Nat)
  keyToEntityConstructorMap : List (Key × Option T)

/-- The objects made so far. -/
abbrev Heap (T D : Type) := List (Object T D)

namespace Heap

variable {T D : Type}

/-! ## Operations -/

/-- The object at an address. -/
def deref (address : Nat) : EStateM Exception (Heap T D) (Object T D) := do
  let heap ← get
  match heap[address]? with
  | some object => pure object
  | none => throw .nullDereference

/-- Change the object at an address. -/
def update (address : Nat) (f : Object T D → Object T D) : EStateM Exception (Heap T D) Unit :=
  modify fun heap => heap.modify address f

/-- A new object. -/
def allocate (object : Object T D) : EStateM Exception (Heap T D) Nat := do
  let heap ← get
  set (heap ++ [object])
  pure heap.length

/-- `GetKey`. -/
def getKey (address : Nat) : EStateM Exception (Heap T D) Key := do
  let object ← deref address
  if object.key = [] then throw Entity.keyNotSet
  pure object.key

/-- `SetKey`. -/
def setKey (key : Key) (address : Nat) : EStateM Exception (Heap T D) Unit := do
  let _ ← deref address
  update address fun object => { object with key := key }

/-- `AggregateMember(key)`. -/
def aggregateKey (key : Key) (owner : Nat) : EStateM Exception (Heap T D) Unit := do
  let object ← deref owner
  match List.lookup key object.membersMap with
  | some _ => throw (Entity.keyInUse key)
  | none => update owner fun object =>
      { object with membersMap := insertSorted key none object.membersMap }

/-- `RegisterEntityConstructor<T>(key)` on the map of constructors. -/
def registerEntityConstructor (staticType : T) (key : Key) (constructors : List (Key × Option T)) :
    List (Key × Option T) :=
  match List.lookup key constructors with
  | some _ => constructors
  | none => insertSorted key (some staticType) constructors

/-- `AggregateMember<T>(sharedObj)`, `T` being `staticType`. -/
def aggregateMember (staticType : T) (sharedObj : Option Nat) (owner : Nat) :
    EStateM Exception (Heap T D) Unit :=
  match sharedObj with
  | none => throw (.runtimeError "Entity is nullptr when aggregating entity".toList)
  | some m => do
    let key ← getKey m
    let object ← deref owner
    match List.lookup key object.membersMap with
    | some _ => throw (Entity.keyInUse key)
    | none => update owner fun object => { object with
        membersMap := insertSorted key (some m) object.membersMap
        keyToEntityConstructorMap :=
          registerEntityConstructor staticType key object.keyToEntityConstructorMap }

/-- `RemoveMember(key)`. -/
def removeKey (key : Key) (owner : Nat) : EStateM Exception (Heap T D) Unit := do
  let object ← deref owner
  match List.lookup key object.membersMap with
  | none => throw (Entity.keyNotInUse key)
  | some _ => update owner fun object =>
      { object with membersMap := object.membersMap.filter fun p => p.1 ≠ key }

/-- `RemoveMember(sharedObj)`: the entry is looked up by the key the object has now. -/
def removeMember (sharedObj : Option Nat) (owner : Nat) : EStateM Exception (Heap T D) Unit :=
  match sharedObj with
  | none => throw (.runtimeError "Entity is nullptr when removing entity".toList)
  | some m => do
    let key ← getKey m
    removeKey key owner

/-! ### Copying -/

/-- `ConstructEntity`: `construct` calls the constructor of a class. -/
def constructEntity (construct : T → Nat → EStateM Exception (Heap T D) Nat) (owner other : Nat) :
    EStateM Exception (Heap T D) Nat := do
  let key ← getKey other
  let object ← deref owner
  match List.lookup key object.keyToEntityConstructorMap with
  | some (some staticType) => construct staticType other
  | some none => throw Entity.badFunctionCall
  | none => do
    update owner fun object => { object with
      keyToEntityConstructorMap := insertSorted key none object.keyToEntityConstructorMap }
    throw Entity.badFunctionCall

/-- The loop of the copy constructor; `construct` is `ConstructEntity` of the object copied. -/
def copyMembers (construct : Nat → EStateM Exception (Heap T D) Nat) :
    List (Key × Option Nat) → EStateM Exception (Heap T D) (List (Key × Option Nat))
  | [] => pure []
  | (_, none) :: _ => throw .nullDereference
  | (key, some m) :: members => do
    let copy ← construct m
    let copies ← copyMembers construct members
    pure ((key, some copy) :: copies)

variable (C : EntityClasses T D)

/-- `std::make_unique<T>(dynamic_cast<const T &>(other))`, `T` being `staticType`. The first
argument bounds the depth of the recursion, which goes on for ever below an object that holds
itself. -/
def constructAs : Nat → T → Nat → EStateM Exception (Heap T D) Nat
  | 0, _, _ => throw .nontermination
  | depth + 1, staticType, other => do
    let object ← deref other
    if C.derivesFrom object.type staticType then do
      let members ← copyMembers (constructEntity (constructAs depth) other) object.membersMap
      allocate ⟨object.key, staticType, C.slice staticType object.type object.data, members, []⟩
    else throw Entity.badCast

/-- The loop of `operator=`: an entry is added after its member was copied. -/
def assignMembers (construct : Nat → EStateM Exception (Heap T D) Nat) (target : Nat) :
    List (Key × Option Nat) → EStateM Exception (Heap T D) Unit
  | [] => pure ()
  | (_, none) :: _ => throw .nullDereference
  | (key, some m) :: members => do
    let copy ← construct m
    update target fun object =>
      { object with membersMap := insertSorted key (some copy) object.membersMap }
    assignMembers construct target members

/-- `target = source`: `Entity::operator=`, and then the data of the class of `target`. -/
def copyAssign (depth : Nat) (target source : Nat) : EStateM Exception (Heap T D) Unit :=
  if target = source then pure ()
  else do
    let other ← deref source
    let _ ← deref target
    update target fun object => { object with key := other.key }
    update target fun object => { object with membersMap := [] }
    assignMembers (constructEntity (constructAs C depth) source) target other.membersMap
    update target fun object => { object with data := C.slice object.type other.type other.data }

end Heap

/-! ## Calls from outside -/

/-- What a program does with entity objects. -/
inductive ObjectCall (T D : Type) where
  | create (key : Key) (type : T) (data : D)
  | setKey (address : Nat) (key : Key)
  | aggregateKey (owner : Nat) (key : Key)
  | aggregateMember (owner : Nat) (staticType : T) (sharedObj : Option Nat)
  | removeKey (owner : Nat) (key : Key)
  | removeMember (owner : Nat) (sharedObj : Option Nat)
  | copyConstruct (depth : Nat) (staticType : T) (source : Nat)
  | copyAssign (depth : Nat) (target source : Nat)

namespace ObjectCall

variable {T D : Type} (C : EntityClasses T D)

def call : ObjectCall T D → EStateM Exception (Heap T D) Unit
  | create key type data => do
    let _ ← Heap.allocate ⟨key, type, data, [], []⟩
    pure ()
  | setKey address key => Heap.setKey key address
  | aggregateKey owner key => Heap.aggregateKey key owner
  | aggregateMember owner staticType sharedObj => Heap.aggregateMember staticType sharedObj owner
  | removeKey owner key => Heap.removeKey key owner
  | removeMember owner sharedObj => Heap.removeMember sharedObj owner
  | copyConstruct depth staticType source => do
    let _ ← Heap.constructAs C depth staticType source
    pure ()
  | copyAssign depth target source => Heap.copyAssign C depth target source

/-- One call, whose exception the caller handles. -/
def step (heap : Heap T D) (c : ObjectCall T D) : Heap T D := finalState ((call C c).run heap)

end ObjectCall

/-- One class, without data. -/
def oneClass : EntityClasses Unit Unit where
  derivesFrom _ _ := true
  derivesFrom_self _ := rfl
  slice _ _ d := d
  slice_self _ _ := rfl

end Azulejo
