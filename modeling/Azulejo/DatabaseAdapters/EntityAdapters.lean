import Azulejo.Adapters.Traversal
import Azulejo.DatabaseAdapters.ResourceAdapters

/-!
# Entities in a database

`EntityHierarchyBlob`, `EntityPersister`, `EntityLoader` and the lazy `IPersistableEntity`:
the traversal with the hierarchy as a resource of the database, under a key of its own.
-/

namespace Azulejo

open Stateful Sqlite

variable {T D : Type} (P : PtreePaths) (A : Adapter T D Unit) (R : EntityRegistry T D) (J : Json)
  (E : SqliteEngine) (crc : List UInt8 → UInt32)

def ENTITY_HIERARCHY_BLOB_KEY : Str := "entity_hierarchy_blob".toList

/-! ## The hierarchy as a resource -/

namespace EntityHierarchyBlob

/-- `MakeHierarchyTree`, on a buffer that ends at its first NUL. -/
def makeHierarchyTree (data : List UInt8) : Except Exception Ptree :=
  match J.read (data.takeWhile (· != 0)) with
  | .ok tree => pure tree
  | .error what =>
    throw (.runtimeError ("Could not MakeHierarchyTree from buffer: ".toList ++ what))

/-- The default constructor. -/
def new : IResource :=
  { IResource.new 1 with data := some [], hierarchyTree := some LTree.empty }

/-- The constructor from a property tree. -/
def ofTree (hierarchyTree : Ptree) : Except Exception IResource :=
  match J.write hierarchyTree with
  | .error what =>
    throw (.runtimeError ("Could not create EntityHierarchyBlob from ptree: ".toList ++ what))
  | .ok text => do
    let r ← IResource.setRowSize (UInt64.ofNat text.length)
      { new with data := some text, hierarchyTree := some hierarchyTree }
    IResource.setColumnSize 1 r

/-- The two constructors from a string. -/
def ofText (buff : List UInt8) : Except Exception IResource := do
  let r ← IResource.setRowSize (UInt64.ofNat buff.length) { new with data := some buff }
  let r ← IResource.setColumnSize 1 r
  let tree ← makeHierarchyTree J buff
  pure { r with hierarchyTree := some tree }

/-- `Assign` of the bytes of a buffer. -/
def assign (buff : List UInt8) : EStateM Exception IResource Unit := do
  if buff = [] then
    throw (.runtimeError "N cannot be 0 during EntityHierarchyBlob::Assign".toList)
  modify fun r => { r with data := some buff }
  let tree ← lift (makeHierarchyTree J buff)
  modify fun r => { r with hierarchyTree := some tree }

/-- `Assign`, `none` being a null pointer. -/
def assignBuffer : Option (List UInt8) → EStateM Exception IResource Unit
  | none => throw (.runtimeError
      "Buffer cannot be NULL during EntityHierarchyBlob::Assign".toList)
  | some buff => assign J buff

/-- The class, as `ENTITY_HIERARCHY_BLOB_CONSTRUCTOR` makes its objects. -/
def resourceClass : ResourceClass := ⟨new, assign J⟩

end EntityHierarchyBlob

/-! ## Persisting -/

/-- What `EntityPersister` works with: the database files, the `ResourcePersister` and the
`Sqlite` of its own. -/
structure PersisterWorld where
  disk : Disk
  resourcePersister : Sqlite
  database : Sqlite

namespace EntityPersister

/-- A step of the `ResourcePersister`. -/
def onResourcePersister {α : Type} (x : EStateM Exception SqliteState α) :
    EStateM Exception PersisterWorld α :=
  zoom (fun w => ⟨w.disk, w.resourcePersister⟩)
    (fun w s => { w with disk := s.disk, resourcePersister := s.sqlite }) x

/-- A step on the database of the `EntityPersister`. -/
def onDatabase {α : Type} (x : EStateM Exception SqliteState α) :
    EStateM Exception PersisterWorld α :=
  zoom (fun w => ⟨w.disk, w.database⟩)
    (fun w s => { w with disk := s.disk, database := s.sqlite }) x

/-- `resourcePersister->Persist(hierarchyBlob, ENTITY_HIERARCHY_BLOB_KEY)`. -/
def persistBlob (hierarchyBlob : IResource) : EStateM Exception PersisterWorld Unit :=
  onResourcePersister (zoom (fun s => ⟨s, hierarchyBlob⟩) (fun _ p => p.database)
    (ResourcePersister.persist E crc ENTITY_HIERARCHY_BLOB_KEY))

/-- `SendEntityHierarchyTreeToDatabase`. -/
def sendEntityHierarchyTreeToDatabase (hierarchyTree : Ptree) :
    EStateM Exception PersisterWorld Unit := do
  let hierarchyBlob ← lift (EntityHierarchyBlob.ofTree J hierarchyTree)
  let w ← get
  if !w.resourcePersister.isOpen then do
    onResourcePersister (ResourcePersister.openDatabase E w.database.dbPath)
    persistBlob E crc hierarchyBlob
    onResourcePersister closeDatabase
  else persistBlob E crc hierarchyBlob

/-- The end of `PersistWithParentKey` for a root. -/
def sendHierarchy : EStateM Exception (SaveState PersisterWorld) Unit := do
  let s ← get
  zoom SaveState.world (fun s w => { s with world := w })
    (sendEntityHierarchyTreeToDatabase J E crc s.tree)

/-- `PersistWithParentKey`. `Save` is given the database, which is the same for all. -/
def persistWithParentKey (entity : Entity T D) (parentKey : Str) :
    EStateM Exception (SaveState PersisterWorld) (LTree Key (SaveCall Unit)) :=
  saveWithParentKey P A (fun _ _ => ()) (sendHierarchy J E crc) entity parentKey

/-- `Persist`. -/
def persist (entity : Entity T D) :
    EStateM Exception (SaveState PersisterWorld) (LTree Key (SaveCall Unit)) := do
  let s ← get
  if !s.world.database.isOpen then
    throw (.runtimeError "Cannot persist entity because the database is not open".toList)
  if entity.key = [] then throw Entity.keyNotSet
  persistWithParentKey P A J E crc entity []

/-- `OpenDatabase`. -/
def openDatabase (dbPath : Path) : EStateM Exception PersisterWorld Unit := do
  let w ← get
  if w.database.isOpen then
    throw (.runtimeError "EntityPersister already has a database open".toList)
  onDatabase (openPath dbPath)

/-- A step of the persister that leaves its hierarchy alone. -/
def onWorld (x : EStateM Exception PersisterWorld Unit) :
    EStateM Exception (SaveState PersisterWorld) Unit :=
  zoom SaveState.world (fun s w => { s with world := w }) x

/-- `ResetInstance`, with the next `GetInstance`: the destructor closes the database, and the
new object has an empty hierarchy. -/
def resetInstance : EStateM Exception (SaveState PersisterWorld) Unit := do
  onWorld (onDatabase closeDatabase)
  modify fun s => ⟨EntityHierarchy.new, { s.world with database := Sqlite.new }⟩

end EntityPersister

/-! ## Loading -/

/-- What `EntityLoader` works with: the database files, the `ResourceLoader` with its
registry, the `Sqlite` of its own and the hierarchy. -/
structure LoaderWorld where
  disk : Disk
  resourceLoader : Sqlite
  registry : ResourceLoader.Registry
  database : Sqlite
  hierarchy : EntityHierarchy

namespace EntityLoader

/-- A step of the `ResourceLoader`. -/
def onResourceLoader {α : Type} (x : EStateM Exception SqliteState α) :
    EStateM Exception LoaderWorld α :=
  zoom (fun w => ⟨w.disk, w.resourceLoader⟩)
    (fun w s => { w with disk := s.disk, resourceLoader := s.sqlite }) x

/-- A step on the database of the `EntityLoader`. -/
def onDatabase {α : Type} (x : EStateM Exception SqliteState α) :
    EStateM Exception LoaderWorld α :=
  zoom (fun w => ⟨w.disk, w.database⟩)
    (fun w s => { w with disk := s.disk, database := s.sqlite }) x

/-- The end of `GetEntityHierarchyTree`. Only a `std::runtime_error` of the loading is
caught; the registered class may be another one than `EntityHierarchyBlob`. -/
def loadHierarchyTree (resourceLoaderIsOpen : Bool) : EStateM Exception LoaderWorld Ptree := do
  let registry := (← get).registry
  match ← attempt (onResourceLoader
      (ResourceLoader.load E registry ENTITY_HIERARCHY_BLOB_KEY)) with
  | .error (.runtimeError _) => do
    if !resourceLoaderIsOpen then onResourceLoader closeDatabase
    pure LTree.empty
  | .error e => throw e
  | .ok entityHierarchyBlob => do
    if !resourceLoaderIsOpen then onResourceLoader closeDatabase
    match entityHierarchyBlob.hierarchyTree with
    | some tree => pure tree
    | none => throw .nullDereference

/-- `GetEntityHierarchyTree`. -/
def getEntityHierarchyTree : EStateM Exception LoaderWorld Ptree := do
  let w ← get
  let resourceLoaderIsOpen := w.resourceLoader.isOpen
  if !resourceLoaderIsOpen then
    onResourceLoader (ResourceLoader.openDatabase E w.database.dbPath)
  if !ResourceLoader.hasPersistenceKey w.registry ENTITY_HIERARCHY_BLOB_KEY then
    let registry ← lift (ResourceLoader.registerResource w.registry ENTITY_HIERARCHY_BLOB_KEY
      (EntityHierarchyBlob.resourceClass J))
    modify fun w => { w with registry := registry }
  loadHierarchyTree E resourceLoaderIsOpen

/-- `OpenDatabase`. -/
def openDatabase (dbPath : Path) : EStateM Exception LoaderWorld Unit := do
  let w ← get
  if w.database.isOpen then
    throw (.runtimeError "EntityLoader already has a database set".toList)
  onDatabase (openPath dbPath)
  let tree ← getEntityHierarchyTree J E
  modify fun w => { w with hierarchy := { w.hierarchy with serializationStructure := tree } }

def cannotLocate : Str := "Cannot locate entity key in the loading json structure".toList

/-- `LoadWithParentKey`. -/
def loadWithParentKey (hierarchy : EntityHierarchy) (fuel : Nat) (parentKey : Str) :
    EStateM Exception (Entity T D) (LTree Key (LoadCall Unit)) :=
  Azulejo.loadWithParentKey P A R (fun _ _ => ()) hierarchy cannotLocate fuel parentKey

/-- `LoadEntity`. -/
def loadEntity (w : LoaderWorld) :
    EStateM Exception (Entity T D) (Option (LTree Key (LoadCall Unit))) :=
  if w.database.isOpen then loadByKey P A R (fun _ _ => ()) w.hierarchy cannotLocate
  else throw (.runtimeError "Cannot load entity because the database is not open".toList)

end EntityLoader

/-- `IPersistableEntity::GetAggregatedMember`. -/
def IPersistableEntity.getAggregatedMember (w : LoaderWorld) (key : Key) :
    EStateM Exception (Entity T D) (Option (Entity T D) × Option (LTree Key (LoadCall Unit))) :=
  Azulejo.getAggregatedMember R (EntityLoader.loadEntity P A R w) key

end Azulejo
