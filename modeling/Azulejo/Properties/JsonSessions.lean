import Azulejo.Adapters.Canonical
import Azulejo.FilesystemAdapters.EntityAdapters
import Azulejo.Lib.Runs

/-!
# Processes that save into JSON files

Each process opens the hierarchy of a JSON file, or starts one there when the file cannot be
opened, and serializes entities. A `Serialize` writes the whole hierarchy, so that a file holds
what all processes saved into it: each root as it was saved last.
-/

namespace Azulejo

open AssocList Stateful

variable {T D : Type} (P : PtreePaths) (A : Adapter T D Path) (J : Json)

/-! ## The system -/

/-- The hierarchy of the serializer, the files, and for each path the entities that were saved
there, which the code does not keep. -/
structure JsonWorld (T D : Type) where
  hierarchy : EntityHierarchy
  files : JsonFiles
  saved : Path → List (Entity T D)

inductive JsonCall (T D : Type) where
  /-- A new process calls `LoadSerializationStructure`, and `SetSerializationPath` when that
  throws. -/
  | process (pathToJSON : Path)
  | serialize (entity : Entity T D)

namespace JsonWorld

/-- No process has saved anything. -/
def new (writable : Path → Bool) : JsonWorld T D :=
  ⟨EntityHierarchy.new, ⟨fun _ => none, writable⟩, fun _ => []⟩

def step (w : JsonWorld T D) : JsonCall T D → JsonWorld T D
  | .process path =>
    match (EntityHierarchy.loadSerializationStructure J w.files path).run EntityHierarchy.new with
    | .ok () h => { w with hierarchy := h }
    | .error _ h => { w with hierarchy := h.setSerializationPath path }
  | .serialize entity =>
    let t := finalState ((EntitySerializer.serialize P A J entity).run ⟨w.hierarchy, w.files⟩)
    let path := w.hierarchy.serializationPath
    ⟨t.hierarchy, t.world, Function.update w.saved path (w.saved path ++ [entity])⟩

/-- An entity tree that can be saved is saved into a file that can be written, and the hierarchy
can be written as JSON. -/
def Writes (w : JsonWorld T D) : JsonCall T D → Prop
  | .process _ => True
  | .serialize entity =>
    let path := w.hierarchy.serializationPath
    Saveable A (directoryOf path) entity [] ∧ w.files.writable path = true ∧
      J.Faithful (w.hierarchy.serializationStructure.set [entity.key]
        (canonical A (directoryOf path) entity []))

/-- The roots that entities leave which are saved one after the other: for each key the last one
with that key. -/
def lastSaved (path : Path) (entities : List (Entity T D)) (k : Key) : Option Ptree :=
  (entities.filter fun e => e.key = k).getLast?.map fun e => canonical A (directoryOf path) e []

/-! ## One `Serialize` -/

variable {A J}

theorem lastSaved_concat (path : Path) (entities : List (Entity T D)) (entity : Entity T D)
    (k : Key) :
    lastSaved A path (entities ++ [entity]) k =
      if entity.key = k then some (canonical A (directoryOf path) entity [])
      else lastSaved A path entities k := by
  unfold lastSaved
  rw [List.filter_append]
  by_cases hk : entity.key = k
  · simp only [List.filter_cons, hk, decide_true, if_true, List.filter_nil, List.getLast?_concat,
      Option.map_some]
  · simp only [List.filter_cons, hk, decide_false, Bool.false_eq_true, if_false, List.filter_nil,
      List.append_nil]

/-! ## Runs -/

/-- The roots of the tree are distinct, and are those that were saved. -/
structure Has (A : Adapter T D Path) (path : Path) (entities : List (Entity T D)) (tree : Ptree) :
    Prop where
  roots : tree.labels.Nodup
  saved : ∀ k, List.lookup k tree.children = lastSaved A path entities k

/-- A file holds what was saved into it. -/
def HasFile (A : Adapter T D Path) (J : Json) (path : Path) (entities : List (Entity T D)) :
    Option (List UInt8) → Prop
  | none => entities = []
  | some text => entities ≠ [] ∧ ∃ tree, J.read text = .ok tree ∧ Has A path entities tree

structure Kept (A : Adapter T D Path) (J : Json) (w : JsonWorld T D) : Prop where
  files : ∀ path, HasFile A J path (w.saved path) (w.files.contents path)
  hierarchy : Has A w.hierarchy.serializationPath (w.saved w.hierarchy.serializationPath)
    w.hierarchy.serializationStructure

theorem Has.set {path : Path} {entities : List (Entity T D)} {tree : Ptree}
    (h : Has A path entities tree) (entity : Entity T D) :
    Has A path (entities ++ [entity])
      (tree.set [entity.key] (canonical A (directoryOf path) entity [])) := by
  refine ⟨?_, fun k => ?_⟩
  · rw [LTree.set_singleton]
    exact nodup_keys_setIn h.roots _
  · rw [LTree.set_singleton, LTree.children_node, lastSaved_concat]
    by_cases hk : entity.key = k
    · rw [if_pos hk, hk, lookup_setIn_self]
    · rw [if_neg hk, lookup_setIn_ne (Ne.symm hk), h.saved k]

end JsonWorld

end Azulejo
