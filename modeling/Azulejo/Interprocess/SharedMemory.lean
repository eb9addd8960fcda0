import Azulejo.Basic
import Azulejo.Lib.DecimalText
import Azulejo.Lib.Transitions

/-!
# Shared memory

`ISharedMemory` holds a segment it has created or opened, and a flag that says whether it created
it. The segments belong to the system: a name stands for at most one, and a segment whose name is
removed stays there for those who hold it. Creation with `create_only` fails when the name exists
or the system does not permit it, and `open_only` when the name does not exist.
-/

namespace Azulejo

open Stateful

/-- A `shared_memory_object`: the name it was made with, and its segment. -/
structure SharedMemoryObject where
  name : Str
  segment : Nat
  deriving DecidableEq

/-- The segments of the system: what the names stand for, the sizes, and a number that no segment
has yet. -/
structure SharedMemorySystem where
  names : Str → Option Nat
  sizes : Nat → Int64
  fresh : Nat

namespace SharedMemorySystem

/-- The constructor with `create_only`, when the name is free. -/
def add (name : Str) (s : SharedMemorySystem) : SharedMemorySystem where
  names := Function.update s.names name (some s.fresh)
  sizes := Function.update s.sizes s.fresh 0
  fresh := s.fresh + 1

def setSize (segment : Nat) (size : Int64) (s : SharedMemorySystem) : SharedMemorySystem :=
  { s with sizes := Function.update s.sizes segment size }

/-- `shared_memory_object::remove`. -/
def remove (name : Str) (s : SharedMemorySystem) : SharedMemorySystem :=
  { s with names := Function.update s.names name none }

end SharedMemorySystem

structure ISharedMemory where
  /-- `shmem_`, a null pointer being `none`. -/
  shmem : Option SharedMemoryObject
  isShmemOwner : Bool
  deriving DecidableEq

/-- What a member function works on: its object and the system. -/
structure SharedMemoryState where
  self : ISharedMemory
  system : SharedMemorySystem

namespace ISharedMemory

/-- The default constructor. -/
def new : ISharedMemory := ⟨none, false⟩

/-- The segment name the object owns. -/
def owned (o : ISharedMemory) : Option Str :=
  if o.isShmemOwner then o.shmem.map SharedMemoryObject.name else none

def invalidSize (size : UInt64) : Exception :=
  .runtimeError ("Shared memory cannot be allocated with an invalid size: ".toList ++
    DecimalText.ofNat size.toNat)

def noName : Exception := .runtimeError "Shared memory cannot be allocated without a name".toList

def alreadyUsing (name : Str) : Exception :=
  .runtimeError ("Shared memory already allocated using name=".toList ++ name)

/-- `Create` and `Open` throw the same text. -/
def alreadyAllocated : Exception :=
  .runtimeError "Shared memory cannot be allocated because it is already allocated".toList

/-- `GetSharedSize`. -/
def getSharedSize (s : SharedMemoryState) : Except Exception UInt64 :=
  match s.self.shmem with
  | none => throw (.runtimeError
      "Cannot get shared memory size because shared memory is not allocated.".toList)
  | some shmem => pure (s.system.sizes shmem.segment).toUInt64

/-- `GetSharedName`. -/
def getSharedName (s : SharedMemoryState) : Except Exception Str :=
  match s.self.shmem with
  | none => throw (.runtimeError
      "Cannot get shared memory name because shared memory is not allocated.".toList)
  | some shmem => pure shmem.name

/-- `Create`. `permits` says for which names `create_only` does not fail on its own, and
`truncate` is what the system answers when a segment is to get a size. -/
def createWith (permits : Str → Bool) (truncate : Int64 → Except Str Unit) (name : Str)
    (size : UInt64) : EStateM Exception SharedMemoryState Unit := do
  if size = 0 then throw (invalidSize size)
  if name = [] then throw noName
  let s ← get
  match s.self.shmem with
  | some shmem => throw (alreadyUsing shmem.name)
  | none =>
    let shmem : SharedMemoryObject := ⟨cString name, s.system.fresh⟩
    match permits shmem.name, s.system.names shmem.name with
    | true, none => do
      set (⟨⟨some shmem, s.self.isShmemOwner⟩, s.system.add shmem.name⟩ : SharedMemoryState)
      let currentSize ← lift (getSharedSize (← get))
      let desiredSize := size.toInt64
      if currentSize < desiredSize.toUInt64 then
        match truncate desiredSize with
        | .error what => throw (.exception what)
        | .ok () => modify fun s => { s with system := s.system.setSize shmem.segment desiredSize }
      modify fun s => { s with self := { s.self with isShmemOwner := true } }
    | _, _ => throw alreadyAllocated

/-- `Create` in a system that permits every name. -/
def create (truncate : Int64 → Except Str Unit) (name : Str) (size : UInt64) :
    EStateM Exception SharedMemoryState Unit :=
  createWith (fun _ => true) truncate name size

/-- `Open`. -/
def openName (name : Str) : EStateM Exception SharedMemoryState Unit := do
  let s ← get
  match s.self.shmem with
  | some shmem => throw (alreadyUsing shmem.name)
  | none =>
    match s.system.names (cString name) with
    | none => throw alreadyAllocated
    | some segment => set { s with self := { s.self with shmem := some ⟨cString name, segment⟩ } }

/-- `Destroy`. -/
def destroy : EStateM Exception SharedMemoryState Bool := do
  let s ← get
  match s.self.shmem with
  | none => pure true
  | some shmem =>
    if s.self.isShmemOwner then do
      let destroyed := (s.system.names shmem.name).isSome
      set (⟨⟨none, false⟩, s.system.remove shmem.name⟩ : SharedMemoryState)
      pure destroyed
    else pure true

/-- The destructor: what it leaves of the system. -/
def destructor (s : SharedMemoryState) : SharedMemorySystem :=
  match s.self.shmem with
  | none => s.system
  | some shmem => if s.self.isShmemOwner then s.system.remove shmem.name else s.system

end ISharedMemory

/-! ## Objects that share the system -/

/-- The live objects and the system. -/
structure SharedMemoryWorld where
  objects : Nat → Option ISharedMemory
  system : SharedMemorySystem

/-- No object and no segment. -/
def SharedMemoryWorld.initial : SharedMemoryWorld where
  objects _ := none
  system := ⟨fun _ => none, fun _ => 0, 0⟩

/-- What can happen to an object. The calls are made one after the other. -/
inductive SharedMemoryEvent where
  | construct (id : Nat)
  | create (id : Nat) (name : Str) (size : UInt64)
  | openName (id : Nat) (name : Str)
  | destroy (id : Nat)
  | destruct (id : Nat)
  deriving DecidableEq

namespace SharedMemoryWorld

open ISharedMemory

/-- A call of a member function of a live object, which may throw. -/
def call {α : Type} (w : SharedMemoryWorld) (id : Nat)
    (member : EStateM Exception SharedMemoryState α) : Option SharedMemoryWorld :=
  (w.objects id).map fun o =>
    let s := finalState (member.run ⟨o, w.system⟩)
    ⟨Function.update w.objects id (some s.self), s.system⟩

def step (truncate : Int64 → Except Str Unit) (w : SharedMemoryWorld) :
    SharedMemoryEvent → Option SharedMemoryWorld
  | .construct id =>
    match w.objects id with
    | some _ => none
    | none => some ⟨Function.update w.objects id (some new), w.system⟩
  | .create id name size => w.call id (create truncate name size)
  | .openName id name => w.call id (ISharedMemory.openName name)
  | .destroy id => w.call id ISharedMemory.destroy
  | .destruct id =>
    (w.objects id).map fun o => ⟨Function.update w.objects id none, destructor ⟨o, w.system⟩⟩

/-- A live object is the owner and holds the name. -/
def Owns (w : SharedMemoryWorld) (id : Nat) (name : Str) : Prop :=
  ∃ o shmem, w.objects id = some o ∧ o.isShmemOwner = true ∧ o.shmem = some shmem ∧
    shmem.name = name

/-- A segment of the name exists. -/
def Exists (w : SharedMemoryWorld) (name : Str) : Prop := ∃ segment, w.system.names name = some segment

end SharedMemoryWorld

end Azulejo
