import Azulejo.Basic
import Azulejo.Lib.LabelledTree

/-!
# Property trees and the entity hierarchy

`boost::property_tree::ptree` is an ordered tree of named nodes with string data. Its two
operations on dotted paths are a parameter, `PtreePaths`: what the library documents about
them is stated only for paths of plain keys on which every name is unambiguous, since which
of several children of one name is found is left open. `boostPaths` takes the first.

JSON text is a parameter too (`Json`), so that nothing is assumed about trees that JSON
cannot represent.
-/

namespace Azulejo

/-- `boost::property_tree::ptree`. -/
abbrev Ptree := LTree Key Str

/-- `put_child` and `get_child_optional` on dotted paths. `put_child` replaces the node at
the path, or creates it and the missing nodes above it. -/
structure PtreePaths where
  putChild : Str → Ptree → Ptree → Ptree
  getChildOptional : Str → Ptree → Option Ptree
  putChild_spec : ∀ (ks : List Key) (value tree : Ptree), ks ≠ [] → (∀ k ∈ ks, PlainKey k) →
    tree.UniqueAlong ks → putChild (dotted ks) value tree = tree.set ks value
  getChildOptional_spec : ∀ (ks : List Key) (tree : Ptree), ks ≠ [] → (∀ k ∈ ks, PlainKey k) →
    tree.UniqueAlong ks → getChildOptional (dotted ks) tree = tree.get? ks

theorem splitOn_dotted {ks : List Key} (hks : ks ≠ []) (h : ∀ k ∈ ks, PlainKey k) :
    (dotted ks).splitOn '.' = ks :=
  List.splitOn_intercalate '.' (fun k hk => (h k hk).2) hks

/-- The names on a path that is being looked up: a separator at the end names nothing. -/
def lookupNames (path : Str) : List Key :=
  let names := path.splitOn '.'
  if names.getLast? = some [] then names.dropLast else names

theorem lookupNames_dotted {ks : List Key} (hks : ks ≠ []) (h : ∀ k ∈ ks, PlainKey k) :
    lookupNames (dotted ks) = ks := by
  unfold lookupNames
  rw [splitOn_dotted hks h]
  have hlast : ks.getLast? ≠ some [] := by
    intro he
    exact (h [] (List.mem_of_getLast? he)).1 rfl
  simp [hlast]

/-- The operations with the first child of each name. -/
def boostPaths : PtreePaths where
  putChild path value tree := tree.set (path.splitOn '.') value
  getChildOptional path tree := tree.get? (lookupNames path)
  putChild_spec ks value tree hks h _ := by rw [splitOn_dotted hks h]
  getChildOptional_spec ks tree hks h _ := by rw [lookupNames_dotted hks h]

/-- `write_json` and `read_json`, on the bytes of the text. They throw
`json_parser_error`, a `std::runtime_error`, with the text given here. -/
structure Json where
  write : Ptree → Except Str (List UInt8)
  read : List UInt8 → Except Str Ptree

/-- Writing the tree and reading the text back gives the tree. -/
def Json.Faithful (J : Json) (t : Ptree) : Prop :=
  ∃ text, J.write t = .ok text ∧ J.read text = .ok t

/-- The JSON of one tree: its text, and what the text is read as. -/
def Json.ofText (tree : Ptree) (text : List UInt8) : Json := ⟨fun _ => .ok text, fun _ => .ok tree⟩

/-- The bytes of an ASCII text. -/
def textBytes (s : String) : List UInt8 := s.toList.map fun c => UInt8.ofNat c.toNat

theorem Json.ofText_faithful (tree : Ptree) (text : List UInt8) :
    (Json.ofText tree text).Faithful tree :=
  ⟨text, rfl, rfl⟩

/-- The JSON files: their contents, and the paths at which a file can be written. -/
structure JsonFiles where
  contents : Path → Option (List UInt8)
  writable : Path → Bool

/-- `write_json(path, tree)`: the file is opened, which empties it, before the tree is
checked and written. -/
def writeJson (J : Json) (path : Path) (tree : Ptree) : EStateM Exception JsonFiles Unit := do
  let files ← get
  if files.writable path then
    set { files with contents := Function.update files.contents path (some []) }
    match J.write tree with
    | .ok text => set { files with contents := Function.update files.contents path (some text) }
    | .error what => throw (.runtimeError what)
  else throw (.runtimeError "cannot open file".toList)

/-- `EntityHierarchy`. -/
structure EntityHierarchy where
  serializationPath : Path
  serializationStructure : Ptree

namespace EntityHierarchy

/-- The hierarchy of a new object. -/
def new : EntityHierarchy := ⟨[], LTree.empty⟩

/-- `LoadSerializationStructure`. -/
def loadSerializationStructure (J : Json) (files : JsonFiles) (pathToJSON : Path) :
    EStateM Exception EntityHierarchy Unit := do
  modify fun h => { h with serializationPath := pathToJSON }
  match files.contents pathToJSON with
  | some text =>
    match J.read text with
    | .ok tree => modify fun h => { h with serializationStructure := tree }
    | .error what => throw (.runtimeError what)
  | none =>
    modify fun h => { h with serializationPath := [] }
    throw (.runtimeError ("Could not open ".toList ++ pathToJSON ++
      " when loading serialization structure".toList))

/-- `HasSerializationStructure`: `ptree::empty` asks for children only. -/
def hasSerializationStructure (h : EntityHierarchy) : Bool :=
  !h.serializationPath.isEmpty || !h.serializationStructure.children.isEmpty

/-- `SetSerializationPath`. -/
def setSerializationPath (pathToJSON : Path) (h : EntityHierarchy) : EntityHierarchy :=
  { h with serializationPath := pathToJSON }

end EntityHierarchy

end Azulejo
