import Azulejo.FilesystemAdapters.Specs
import Azulejo.Lib.Runs

/-!
# The files as a store

A program with any number of resources, which it changes, serializes under any keys into any
directories, and unserializes. What it stores this way is a map from files to what was stored in
them last; the temporary files are not a part of it.
-/

namespace Azulejo

open Stateful ResourceSerializer

/-! ## The map -/

/-- What a file holds of a resource. -/
structure Stored where
  M : UInt64
  N : UInt64
  bytes : List UInt8
  deriving DecidableEq

abbrev StoredResources := Path → Option Stored

inductive StoreOperation where
  | put (file : Path) (stored : Stored)
  | remove (file : Path)

def StoredResources.apply (store : StoredResources) : StoreOperation → StoredResources
  | .put file stored => Function.update store file (some stored)
  | .remove file => Function.update store file none

/-! ## The program -/

/-- The files and the resources of the program. -/
structure FileStore where
  files : Files
  resources : Nat → IResource

/-- The calls of the program; `mutate` gives a resource new dimensions and data. -/
inductive FileStoreCall where
  | mutate (i : Nat) (M N : UInt64) (data : Option (List UInt8))
  | serialize (faults : SerializeFaults) (i : Nat) (key serializationPath : Str)
  | unserialize (faults : UnserializeFaults) (key serializationPath : Str)

variable (crc : List UInt8 → UInt32)

instance decidableReplaces (faults : SerializeFaults) (key path : Str) (r : IResource) :
    Decidable (Replaces crc faults key path r) :=
  decidable_of_iff (key ≠ [] ∧ path ≠ [] ∧ faults.createDirectories = false ∧
      r.checksum crc ≠ r.checkSum ∧ faults.openFile = false ∧ faults.rename = false)
    ⟨fun ⟨hkey, hpath, hdirectories, hchanged, hopen, hrename⟩ =>
        ⟨hkey, hpath, hdirectories, hchanged, hopen, hrename⟩,
      fun h => ⟨h.key, h.path, h.createDirectories, h.changed, h.openFile, h.rename⟩⟩

namespace FileStore

/-- One call, whether it returns or throws. -/
def step (s : FileStore) : FileStoreCall → FileStore
  | .mutate i M N data =>
    { s with resources :=
        Function.update s.resources i { s.resources i with M := M, N := N, data := data } }
  | .serialize faults i key path =>
    let t := finalState ((serialize crc faults key path).run ⟨s.files, s.resources i⟩)
    ⟨t.files, Function.update s.resources i t.resource⟩
  | .unserialize faults key path =>
    { s with files := finalState ((unserialize faults key path).run s.files) }

/-- What the call is for the map: a `Serialize` that gets to its end puts the resource as it is,
an `Unserialize` that gets to its end removes what was stored, and all others do nothing. -/
def operations (s : FileStore) : FileStoreCall → List StoreOperation
  | .mutate _ _ _ _ => []
  | .serialize faults i key path =>
    let r := s.resources i
    if Replaces crc faults key path r then [.put (resourceFile path key) ⟨r.M, r.N, r.bytes⟩]
    else []
  | .unserialize faults key path =>
    if key ≠ [] ∧ faults.permissions = false ∧ faults.remove = false then
      [.remove (resourceFile path key)]
    else []

/-- What a list of calls is for the map. -/
def operationsOf (s : FileStore) : List FileStoreCall → List StoreOperation
  | [] => []
  | c :: calls => s.operations crc c ++ (s.step crc c).operationsOf calls

/-- The stream of the call loses no byte, if the call gets as far as replacing the file. -/
def Lossless (s : FileStore) : FileStoreCall → Prop
  | .serialize faults i key path => Replaces crc faults key path (s.resources i) →
      faults.bytesTaken (s.resources i).bytes.length = 16 + (s.resources i).bytes.length
  | _ => True

instance decidableLossless (s : FileStore) : (c : FileStoreCall) → Decidable (s.Lossless crc c)
  | .serialize faults i key path => inferInstanceAs (Decidable (Replaces crc faults key path
      (s.resources i) → faults.bytesTaken _ = _))
  | .mutate _ _ _ _ | .unserialize _ _ _ => .isTrue trivial

end FileStore

end Azulejo
