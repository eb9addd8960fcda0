import Azulejo.Basic
import Azulejo.Lib.LockOrder
import Azulejo.Lib.Transitions

/-!
# The locks of the filesystem adapters

The functions of `ResourceSerializer` and `ResourceDeserializer` hold the recursive mutex of
`GetGlobalFileLock`. A resource has a mutex of its own, which `Lock` takes for as long as the
`LockedResource` lives: `Serialize` is called with one, and `Deserialize` takes the lock of the
resource it has made. The mutex is behind a shared pointer, so a copy of a resource has the mutex
of its original.
-/

namespace Azulejo

open LockOrder

inductive FileMutex where
  /-- `GetGlobalFileLock()`. -/
  | file
  /-- `mtx_` of a resource. -/
  | resource (mutex : Nat)
  deriving DecidableEq

namespace FileMutex

/-- The one is a `std::recursive_mutex`, the others are of type `std::mutex`. -/
def recursive : FileMutex → Bool
  | file => true
  | resource _ => false

end FileMutex

/-- How far a call of `Deserialize` gets. -/
inductive DeserializeEnd where
  | emptyKey
  /-- The path is empty, or the file cannot be opened or read. -/
  | fileFails
  | notRegistered
  /-- The registered constructor has made a resource, with a new mutex or as a copy of a resource
  with the given one. -/
  | generated (copied : Option Nat)

/-- A call of a thread. -/
inductive FileCall where
  /-- `Lock`, while the data is used. -/
  | lock (mutex : Nat)
  /-- `Serialize(resource.Lock(), key, serializationPath)`. -/
  | serialize (mutex : Nat) (emptyKey : Bool)
  | unserialize (emptyKey : Bool)
  /-- `RegisterResource`, `UnregisterResource`, `UnregisterAll`, `HasSerializationKey` or
  `GenerateResource`; some reject their arguments before they take the lock. -/
  | registry (rejected : Bool)
  | deserialize (ends : DeserializeEnd)

namespace FileCall

/-- What the call does with the locks. `new` is the mutex a new resource gets. -/
def ops (new : Nat) : FileCall → List (Op FileMutex)
  | lock mutex => [.acquire (.resource mutex), .release (.resource mutex)]
  | serialize mutex true => [.acquire (.resource mutex), .release (.resource mutex)]
  | serialize mutex false =>
    [.acquire (.resource mutex), .acquire .file, .release .file, .release (.resource mutex)]
  | unserialize true => []
  | unserialize false => [.acquire .file, .release .file]
  | registry true => []
  | registry false => [.acquire .file, .release .file]
  | deserialize .emptyKey => []
  | deserialize .fileFails => [.acquire .file, .release .file]
  -- `GenerateResource` takes the lock a second time
  | deserialize .notRegistered =>
    [.acquire .file, .acquire .file, .release .file, .release .file]
  | deserialize (.generated copied) =>
    let mutex := copied.getD new
    [.acquire .file, .acquire .file, .release .file, .acquire (.resource mutex),
      .release (.resource mutex), .release .file]

/-- The mutexes of the resources the call is given. -/
def uses : FileCall → List Nat
  | lock mutex | serialize mutex _ | deserialize (.generated (some mutex)) => [mutex]
  | _ => []

/-- The mutex of the resource that the call makes. -/
def makes (new : Nat) : FileCall → Option Nat
  | deserialize (.generated none) => some new
  | _ => none

end FileCall

/-- The threads of a program that uses the adapters. -/
structure FileLocks where
  threads : List (Thread FileMutex)
  /-- For each thread the mutex of the resource that its `Deserialize` makes and has not returned
  yet. -/
  making : List (Option Nat)
  /-- The mutexes of the resources that the threads can use. -/
  known : List Nat
  /-- The next new mutex. -/
  next : Nat

inductive FileLockEvent where
  /-- A thread that is not in a call makes one. -/
  | call (t : Nat) (call : FileCall)
  /-- A thread takes or releases its next lock. -/
  | go (t : Nat)
  /-- A `Deserialize` returns its resource. -/
  | returns (t : Nat)
  /-- A `Deserialize` throws, and its resource is destroyed. -/
  | throws (t : Nat)

namespace FileLocks

/-- Threads without calls, and resources of their own mutexes. -/
def start (threads resources : Nat) : FileLocks :=
  ⟨List.replicate threads ⟨[], []⟩, List.replicate threads none, List.range resources, resources⟩

/-- The `t`-th thread is not in a call, and has the given resource to return. -/
def idle (w : FileLocks) (t : Nat) (making : Option Nat) : Prop :=
  (∃ thread ∈ w.threads[t]?, thread.ops = []) ∧ w.making[t]? = some making

instance (w : FileLocks) (t : Nat) (making : Option Nat) : Decidable (w.idle t making) :=
  inferInstanceAs (Decidable ((∃ thread ∈ w.threads[t]?, thread.ops = []) ∧ _))

/-- One event, if it can happen. -/
def step (w : FileLocks) : FileLockEvent → Option FileLocks
  | .call t call =>
    if w.idle t none ∧ ∀ mutex ∈ call.uses, mutex ∈ w.known then
      some { w with
        threads := w.threads.set t ⟨[], call.ops w.next⟩
        making := w.making.set t (call.makes w.next)
        next := w.next + 1 }
    else none
  | .go t => (go FileMutex.recursive w.threads t).map fun threads => { w with threads := threads }
  | .returns t =>
    match w.making[t]? with
    | some (some mutex) =>
      if w.idle t (some mutex) then
        some { w with making := w.making.set t none, known := w.known ++ [mutex] }
      else none
    | _ => none
  | .throws t =>
    match w.making[t]? with
    | some (some mutex) =>
      if w.idle t (some mutex) then some { w with making := w.making.set t none } else none
    | _ => none

end FileLocks

end Azulejo
