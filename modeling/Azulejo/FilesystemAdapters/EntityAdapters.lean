import Azulejo.Adapters.Traversal

/-!
# Entities in the file system

`EntitySerializer`, `EntityDeserializer` and the lazy `ISerializableEntity`: the traversal
with the directories `Save` and `Load` are given, and the hierarchy in a JSON file.
-/

namespace Azulejo

open Stateful

variable {T D : Type} (P : PtreePaths) (A : Adapter T D Path) (R : EntityRegistry T D) (J : Json)

/-- `(serializationPath.parent_path() / relativePath).string()`. -/
def directoryOf (serializationPath : Path) (searchPath : Str) : Path :=
  joinPath (parentPath serializationPath) (dotsToSlashes searchPath)

namespace EntitySerializer

/-- `write_json` of the whole hierarchy to its own path. -/
def writeHierarchy : EStateM Exception (SaveState JsonFiles) Unit := do
  let s ← get
  zoom SaveState.world (fun s files => { s with world := files })
    (writeJson J s.hierarchy.serializationPath s.tree)

/-- `SerializeWithParentKey`. -/
def serializeWithParentKey (entity : Entity T D) (parentKey : Str) :
    EStateM Exception (SaveState JsonFiles) (LTree Key (SaveCall Path)) :=
  saveWithParentKey P A directoryOf (writeHierarchy J) entity parentKey

/-- `Serialize`. `GetKey` throws on an empty key, so the test for one never fires. -/
def serialize (entity : Entity T D) :
    EStateM Exception (SaveState JsonFiles) (LTree Key (SaveCall Path)) := do
  if entity.key = [] then throw Entity.keyNotSet
  serializeWithParentKey P A J entity []

end EntitySerializer

namespace EntityDeserializer

def cannotLocate : Str := "Cannot locate entity key in the deserialization json structure".toList

/-- `LoadWithParentKey`. -/
def loadWithParentKey (hierarchy : EntityHierarchy) (fuel : Nat) (parentKey : Str) :
    EStateM Exception (Entity T D) (LTree Key (LoadCall Path)) :=
  Azulejo.loadWithParentKey P A R directoryOf hierarchy cannotLocate fuel parentKey

/-- `LoadEntity`. -/
def loadEntity (hierarchy : EntityHierarchy) :
    EStateM Exception (Entity T D) (Option (LTree Key (LoadCall Path))) :=
  if hierarchy.hasSerializationStructure then
    loadByKey P A R directoryOf hierarchy cannotLocate
  else pure none

end EntityDeserializer

/-- `ISerializableEntity::GetAggregatedMember`. -/
def ISerializableEntity.getAggregatedMember (hierarchy : EntityHierarchy) (key : Key) :
    EStateM Exception (Entity T D) (Option (Entity T D) × Option (LTree Key (LoadCall Path))) :=
  Azulejo.getAggregatedMember R (EntityDeserializer.loadEntity P A R hierarchy) key

end Azulejo
