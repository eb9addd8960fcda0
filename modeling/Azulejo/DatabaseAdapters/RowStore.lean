import Azulejo.DatabaseAdapters.FaultSpecs
import Azulejo.DatabaseAdapters.Specs
import Azulejo.Lib.Runs

/-!
# The databases as a store

A program with any number of resources, which it changes, persists under any keys into any
databases, deletes there, and loads. Every call of the library may fail, and the program may be
ended and started again. What it stores this way is a map from databases and keys to the bytes
that were stored last.
-/

namespace Azulejo

open Stateful Sqlite

/-! ## The map -/

abbrev StoredRows := Path → Str → Option (List UInt8)

inductive RowOperation where
  | put (file : Path) (key : Str) (bytes : List UInt8)
  | remove (file : Path) (key : Str)

def StoredRows.apply (rows : StoredRows) : RowOperation → StoredRows
  | .put file key bytes =>
    Function.update rows file (Function.update (rows file) key (some bytes))
  | .remove file key => Function.update rows file (Function.update (rows file) key none)

/-! ## The program -/

/-- The database files, the databases of the `ResourcePersister` and of the `ResourceLoader`, and
the resources of the program. -/
structure RowStore where
  tables : Path → Option Table
  persister : Sqlite
  loader : Sqlite
  resources : Nat → IResource

/-- The calls of the program; `mutate` gives a resource new dimensions and data, and `restart`
ends the program and starts it again with new resources. -/
inductive RowStoreCall where
  | mutate (i : Nat) (M N : UInt64) (data : Option (List UInt8))
  | openPersister (dbPath : Path)
  | closePersister
  | persist (i : Nat) (key : Str)
  | unpersist (key : Str)
  | openLoader (dbPath : Path)
  | closeLoader
  | load (key : Str)
  | restart (resources : Nat → IResource)

namespace RowStore

variable (E : SqliteEngine) (crc : List UInt8 → UInt32) (registry : ResourceLoader.Registry)

/-- What the persister works on; the faults are those of the call. -/
def atPersister (s : RowStore) (faults : List (Option Str)) : SqliteState :=
  ⟨⟨s.tables, faults⟩, s.persister⟩

/-- What the loader works on. -/
def atLoader (s : RowStore) (faults : List (Option Str)) : SqliteState :=
  ⟨⟨s.tables, faults⟩, s.loader⟩

def withPersister (s : RowStore) (t : SqliteState) : RowStore :=
  { s with tables := t.disk.tables, persister := t.sqlite }

def withLoader (s : RowStore) (t : SqliteState) : RowStore :=
  { s with tables := t.disk.tables, loader := t.sqlite }

/-- One call, whether it returns or throws. -/
def step (s : RowStore) : RowStoreCall × List (Option Str) → RowStore
  | (.mutate i M N data, _) =>
    { s with resources :=
        Function.update s.resources i { s.resources i with M := M, N := N, data := data } }
  | (.openPersister dbPath, faults) =>
    s.withPersister
      (finalState ((ResourcePersister.openDatabase E dbPath).run (s.atPersister faults)))
  | (.closePersister, faults) => s.withPersister (finalState (closeDatabase.run (s.atPersister faults)))
  | (.persist i key, faults) =>
    let t := finalState ((ResourcePersister.persist E crc key).run
      ⟨s.atPersister faults, s.resources i⟩)
    { s.withPersister t.database with resources := Function.update s.resources i t.resource }
  | (.unpersist key, faults) =>
    s.withPersister
      (finalState ((ResourcePersister.unpersist E key).run (s.atPersister faults)))
  | (.openLoader dbPath, faults) =>
    s.withLoader (finalState ((ResourceLoader.openDatabase E dbPath).run (s.atLoader faults)))
  | (.closeLoader, faults) => s.withLoader (finalState (closeDatabase.run (s.atLoader faults)))
  | (.load key, faults) =>
    s.withLoader (finalState ((ResourceLoader.load E registry key).run (s.atLoader faults)))
  | (.restart resources, _) => ⟨s.tables, Sqlite.new, Sqlite.new, resources⟩

/-- The file that a database is connected to. -/
def connectedFile (sqlite : Sqlite) : Option Path := sqlite.db.bind Connection.file

/-- What the call is for the map: a `Persist` of a changed resource that returns puts its bytes, a
deletion that returns removes what was stored, and all others do nothing. -/
def operations (s : RowStore) : RowStoreCall × List (Option Str) → List RowOperation
  | (.persist i key, faults) =>
    let r := s.resources i
    match (ResourcePersister.persist E crc key).run ⟨s.atPersister faults, r⟩ with
    | .ok _ _ =>
      if r.checksum crc ≠ r.checkSum then
        (connectedFile s.persister).toList.map fun file => .put file key r.bytes
      else []
    | .error _ _ => []
  | (.unpersist key, faults) =>
    match (ResourcePersister.unpersist E key).run (s.atPersister faults) with
    | .ok _ _ => (connectedFile s.persister).toList.map fun file => .remove file key
    | .error _ _ => []
  | _ => []

/-- What a list of calls is for the map. -/
def operationsOf (s : RowStore) : List (RowStoreCall × List (Option Str)) → List RowOperation
  | [] => []
  | c :: calls => s.operations E crc c ++ (s.step E crc registry c).operationsOf calls

/-- A program that starts without databases. -/
def new (resources : Nat → IResource) : RowStore :=
  ⟨fun _ => none, Sqlite.new, Sqlite.new, resources⟩

/-- What the calls have stored. -/
def storedBy (resources : Nat → IResource) (calls : List (RowStoreCall × List (Option Str))) :
    StoredRows :=
  Runs.run StoredRows.apply (fun _ _ => none) ((new resources).operationsOf E crc registry calls)

end RowStore

end Azulejo
