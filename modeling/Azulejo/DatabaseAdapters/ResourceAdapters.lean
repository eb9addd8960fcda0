import Azulejo.DatabaseAdapters.Sqlite
import Azulejo.Resources.IResource

/-!
# Resources in a database

`ResourcePersister` and `ResourceLoader`: each has its own `Sqlite`, and both keep resources
in the table `resources`.
-/

namespace Azulejo

open Stateful Sqlite SqliteBlob

variable (E : SqliteEngine) (crc : List UInt8 → UInt32)

/-- `OpenDatabase` of the two adapters, which differ in the text for a database that is
already open. -/
def openResourceDatabase (alreadyOpen : Str) (dbPath : Path) :
    EStateM Exception SqliteState Unit := do
  let s ← get
  if s.sqlite.isOpen then throw (.runtimeError alreadyOpen)
  openPath dbPath
  execute E Sql.createTable (fun _ _ => pure ()) ()

/-- `CloseDatabase` of all four adapters. -/
def closeDatabase : EStateM Exception SqliteState Unit := do
  let s ← get
  if s.sqlite.isOpen then close

/-- What `Persist` works on: the adapter's database and the resource, whose change-tracking
state it updates. -/
structure PersistState where
  database : SqliteState
  resource : IResource

namespace ResourcePersister

/-- `OpenDatabase`. -/
def openDatabase (dbPath : Path) : EStateM Exception SqliteState Unit :=
  openResourceDatabase E "ResourcePersister already has a database open".toList dbPath

/-- `Persist`. -/
def persist (key : Str) : EStateM Exception PersistState Unit := do
  if key = [] then
    throw (.runtimeError "Cannot persist resource with empty key".toList)
  let s ← get
  let (changed, resource) := s.resource.updateChecksum crc
  set { s with resource := resource }
  if changed then do
    if !s.database.sqlite.isOpen then
      throw (.runtimeError "Cannot persist resource because the database is not open".toList)
    zoom PersistState.database (fun s database => { s with database := database })
      (insertBlob E (Sql.insertRow key resource.M resource.N resource.elementSize) resource.data
        resource.size)

/-- `Load`, which deletes: "unpersist". -/
def unpersist (key : Str) : EStateM Exception SqliteState Unit := do
  if key = [] then
    throw (.runtimeError "Cannot unpersist resource with empty key".toList)
  let s ← get
  if !s.sqlite.isOpen then
    throw (.runtimeError "Cannot unpersist resource because the database is not open".toList)
  execute E (Sql.deleteKey key) (fun _ _ => pure ()) ()

end ResourcePersister

/-! ## Loading -/

/-- `std::stoi`. -/
def stoi (s : Str) : Except Exception Int :=
  match DecimalText.scanInt s with
  | none => throw (.logicError "stoi".toList)
  | some i =>
    if -(2 ^ 31) ≤ i ∧ i < 2 ^ 31 then pure i else throw (.logicError "stoi".toList)

/-- What `ResourceLoader::Load` reads from a row: `iRow`, `m`, `n` and `sizeOf`. -/
structure RowNumbers where
  iRow : Int
  m : UInt64
  n : UInt64
  sizeOf : UInt64

/-- The row callback of `ResourceLoader::Load`. Each row replaces what the one before it
left. -/
def pKeyHandler (_ : RowNumbers) (colValues : List Str) : Except Exception RowNumbers := do
  let iRow ← stoi (colValues.getD 1 [])
  let m ← stoi (colValues.getD 2 [])
  let n ← stoi (colValues.getD 3 [])
  let sizeOf ← stoi (colValues.getD 4 [])
  pure ⟨iRow, UInt64.ofInt m, UInt64.ofInt n, UInt64.ofInt sizeOf⟩

namespace ResourceLoader

/-- `keyToResourceMap_`. -/
abbrev Registry := Str → Option ResourceClass

/-- `OpenDatabase`. -/
def openDatabase (dbPath : Path) : EStateM Exception SqliteState Unit :=
  openResourceDatabase E "ResourceLoader already has a database set".toList dbPath

/-- `HasPersistenceKey`. -/
def hasPersistenceKey (registry : Registry) (key : Str) : Bool := (registry key).isSome

/-- `RegisterResource<T>` for an arithmetic `T`. -/
def registerResource (registry : Registry) (key : Str) (constructor : ResourceClass) :
    Except Exception Registry :=
  if key = [] then
    throw (.runtimeError
      "Key is empty when registering resource with ResourceDeserializer".toList)
  else if hasPersistenceKey registry key then
    throw (.runtimeError
      "Key is already registered with the ResourceDeserializer".toList)
  else pure (Function.update registry key (some constructor))

/-- `GenerateResource`. -/
def generateResource (registry : Registry) (key : Str) : Except Exception ResourceClass :=
  if key = [] then
    throw (.runtimeError "Key is empty when generating resource with ResourceLoader".toList)
  else match registry key with
    | none => throw (.runtimeError "Key is not registered with the ResourceLoader".toList)
    | some c => pure c

/-- What `Load` does with the new resource: `m` goes to `SetRowSize` and `n` to
`SetColumnSize`. -/
def fillResource (numbers : RowNumbers) (blob : List UInt8) (c : ResourceClass) :
    EStateM Exception IResource Unit := do
  set (← lift (IResource.setRowSize numbers.m (← get)))
  set (← lift (IResource.setColumnSize numbers.n (← get)))
  c.assign blob

/-- `Load`. When no row has the key, `m`, `n` and `sizeOf` stay uninitialized, but then no
blob can be opened at row -1 and they are never used. -/
def load (registry : Registry) (key : Str) : EStateM Exception SqliteState IResource := do
  if key = [] then
    throw (.runtimeError "Key is empty when loading resource with ResourceLoader".toList)
  let s ← get
  if !s.sqlite.isOpen then
    throw (.runtimeError "Cannot load resource because the database is not open".toList)
  let numbers ← execute E (Sql.selectKey key) pKeyHandler ⟨-1, 0, 0, 0⟩
  let cell ← openBlob E Sql.tableName Sql.dataKey numbers.iRow
  let size := numbers.m * numbers.n * numbers.sizeOf
  let blob ← SqliteBlob.read E cell size 0
  let c ← lift (generateResource registry key)
  match (fillResource numbers blob c).run c.construct with
  | .error e _ => throw e
  | .ok () resource => pure resource

end ResourceLoader

end Azulejo
