import Azulejo.Adapters.RoundTrip
import Azulejo.DatabaseAdapters.EntitySpecs
import Azulejo.DatabaseAdapters.PlainEngine
import Azulejo.FilesystemAdapters.EntityAdapters
import Azulejo.Properties.SaveEffect

/-!
# Round trips of entity trees

An entity tree is saved into an empty hierarchy, the hierarchy goes through its JSON file or
through the database, and a new entity with the root's key is loaded from it.
-/

namespace Azulejo

open Stateful Sqlite

variable {T D C : Type}

/-- The hierarchy of one saved root. -/
def rootHierarchy (A : Adapter T D C) (directory : Str → C) (root : Entity T D) : Ptree :=
  .node [] [(root.key, canonical A directory root [])]

theorem set_empty_canonical (A : Adapter T D C) (directory : Str → C) (root : Entity T D) :
    (LTree.empty : Ptree).set [root.key] (canonical A directory root []) =
      rootHierarchy A directory root := by
  rw [LTree.set_singleton]
  rfl

/-- Loading a new entity with the key of `root` makes one call of `Load` for each entity, with the
node its `Save` filled. The entity gets the keys of `root` at every level and, at every level, the
data that `Load` makes of that node. -/
def Rebuilds (A : Adapter T D C) (R : EntityRegistry T D) (directory : Str → C)
    (load : EStateM Exception (Entity T D) (Option (LTree Key (LoadCall C))))
    (root : Entity T D) : Prop :=
  ∀ f : Entity T D, f.key = root.key → f.membersMap = [] → LoadsReturn A R directory root [] f →
    ∃ f', load.run f = .ok (some (loadCalls A directory root [])) f' ∧
      f'.keyTree = root.keyTree ∧ LoadedFrom A R directory root [] f f'

/-- The first entry of the hierarchy is the one `LoadEntity` finds. -/
theorem loadByKey_rebuilds (P : PtreePaths) {A : Adapter T D C} {R : EntityRegistry T D}
    {root : Entity T D} (target : Path → Str → C) {h : EntityHierarchy}
    (hroot : RoundTrips A R (target h.serializationPath) root []) (cannotLocate : Str)
    (htree : h.serializationStructure = rootHierarchy A (target h.serializationPath) root) :
    Rebuilds A R (target h.serializationPath) (loadByKey P A R target h cannotLocate) root := by
  intro f hkey hempty hload
  obtain ⟨hplain, _⟩ := hroot.key
  have hget : h.serializationStructure.get? [root.key] =
      some (canonical A (target h.serializationPath) root []) := by
    rw [htree, rootHierarchy, LTree.get?_cons, LTree.children_node, AssocList.lookup_cons_self]
    rfl
  have hunique : h.serializationStructure.UniqueAlong [root.key] := by
    rw [htree]
    exact ⟨by simp [rootHierarchy, LTree.labels], fun _ _ => trivial⟩
  have hheight : (canonical A (target h.serializationPath) root []).height <
      h.serializationStructure.height + 1 := by
    have hle := LTree.length_add_height_le hget
    omega
  have hnil : ∀ k ∈ ([] : List Key), PlainKey k := by simp
  obtain ⟨f', hrun, htrees⟩ := loadWithParentKey_canonical P target h cannotLocate hroot
    dotted_nil hnil hget hunique hheight hkey hempty hload
  have hpath : getKeyPath f.key h.serializationStructure = root.key := by
    rw [htree, hkey]
    simp [rootHierarchy, getKeyPath, getKeyPathIn]
  have hparent : getParentKeyPath root.key = [] := by
    have hlast := getParentKeyPath_dotted (q := []) hplain
    rwa [List.nil_append, dotted_singleton, dotted_nil] at hlast
  rw [dotted_nil] at hrun
  refine ⟨f', ?_, htrees⟩
  unfold loadByKey
  rw [bind_ok (EStateM.run_get f), hpath]
  simp only [hkey, if_neg hplain.1, hparent]
  rw [bind_ok hrun]
  rfl

/-! ## Through the JSON file -/

/-- `Serialize` on an empty hierarchy, and `LoadSerializationStructure` from the same path. -/
theorem serialize_then_load (P : PtreePaths) {J : Json} {A : Adapter T D Path}
    {root : Entity T D} {jsonPath : Path} (hroot : Saveable A (directoryOf jsonPath) root [])
    {files : JsonFiles}
    (hwritable : files.writable jsonPath = true)
    (hjson : J.Faithful (rootHierarchy A (directoryOf jsonPath) root)) :
    ∃ s, (EntitySerializer.serialize P A J root).run ⟨⟨jsonPath, LTree.empty⟩, files⟩ =
        .ok (saveCalls A (directoryOf jsonPath) root []) s ∧
      ∀ h, (EntityHierarchy.loadSerializationStructure J s.world jsonPath).run h =
        .ok () ⟨jsonPath, rootHierarchy A (directoryOf jsonPath) root⟩ := by
  obtain ⟨text, hwrite, hread⟩ := hjson
  have hnil : ∀ k ∈ ([] : List Key), PlainKey k := by simp
  have hsave := @saveWithParentKey_eq _ _ _ _ P A directoryOf (EntitySerializer.writeHierarchy J)
    root [] ⟨⟨jsonPath, LTree.empty⟩, files⟩ hroot hnil (LTree.uniqueAlong_empty _)
  simp only [dotted_nil, List.nil_append, SaveState.tree, set_empty_canonical] at hsave
  have hfile : (EntitySerializer.writeHierarchy J).run
      ⟨⟨jsonPath, rootHierarchy A (directoryOf jsonPath) root⟩, files⟩ =
        .ok () ⟨⟨jsonPath, rootHierarchy A (directoryOf jsonPath) root⟩,
          { files with contents := Function.update files.contents jsonPath (some text) }⟩ := by
    unfold EntitySerializer.writeHierarchy writeJson
    rw [bind_ok (EStateM.run_get _), zoom_run, bind_ok (EStateM.run_get _)]
    simp only [hwritable, if_true]
    rw [bind_ok (EStateM.run_set _ _)]
    simp only [SaveState.tree, hwrite]
    rfl
  refine ⟨⟨⟨jsonPath, rootHierarchy A (directoryOf jsonPath) root⟩,
    { files with contents := Function.update files.contents jsonPath (some text) }⟩, ?_, ?_⟩
  · unfold EntitySerializer.serialize EntitySerializer.serializeWithParentKey
    rw [if_neg hroot.plain_key.1, hsave]
    unfold afterSave
    simp only [if_true]
    exact bind_ok hfile
  · intro h
    unfold EntityHierarchy.loadSerializationStructure
    rw [bind_ok (EStateM.run_modify _ _)]
    simp only [Function.update_self, hread]
    rfl

theorem fileHierarchy_rebuilds (P : PtreePaths) {A : Adapter T D Path} {R : EntityRegistry T D}
    {root : Entity T D} {jsonPath : Path} (hroot : RoundTrips A R (directoryOf jsonPath) root []) :
    Rebuilds A R (directoryOf jsonPath) (EntityDeserializer.loadEntity P A R
      ⟨jsonPath, rootHierarchy A (directoryOf jsonPath) root⟩) root := by
  have hnonempty : EntityHierarchy.hasSerializationStructure
      ⟨jsonPath, rootHierarchy A (directoryOf jsonPath) root⟩ = true := by
    simp [EntityHierarchy.hasSerializationStructure, rootHierarchy]
  unfold EntityDeserializer.loadEntity
  rw [if_pos hnonempty]
  exact loadByKey_rebuilds P directoryOf
    (h := ⟨jsonPath, rootHierarchy A (directoryOf jsonPath) root⟩) hroot
    EntityDeserializer.cannotLocate rfl

/-! ## Through the database -/

theorem databaseHierarchy_rebuilds (P : PtreePaths) {A : Adapter T D Unit}
    {R : EntityRegistry T D} {root : Entity T D} (hroot : RoundTrips A R (fun _ => ()) root [])
    {w : LoaderWorld} (hopen : w.database.isOpen = true)
    (htree : w.hierarchy.serializationStructure = rootHierarchy A (fun _ => ()) root) :
    Rebuilds A R (fun _ => ()) (EntityLoader.loadEntity P A R w) root := by
  unfold EntityLoader.loadEntity
  rw [if_pos hopen]
  exact loadByKey_rebuilds P (fun _ _ => ()) hroot EntityLoader.cannotLocate htree

/-- `Persist` on an empty hierarchy leaves the hierarchy of the root, whatever becomes of the
database. -/
theorem persist_rootHierarchy (P : PtreePaths) (J : Json) (E : SqliteEngine)
    (crc : List UInt8 → UInt32) {A : Adapter T D Unit} {root : Entity T D}
    (hroot : Saveable A (fun _ => ()) root []) {s : SaveState PersisterWorld}
    (hempty : s.tree = LTree.empty)
    (hopen : s.world.database.isOpen = true) :
    (finalState ((EntityPersister.persist P A J E crc root).run s)).tree =
      rootHierarchy A (fun _ => ()) root := by
  have hdistinct : s.tree.Distinct := by
    rw [hempty]
    exact LTree.distinct_leaf _
  have hsave := persistWithParentKey_root P J E crc hroot hdistinct
  rw [hempty, set_empty_canonical] at hsave
  unfold EntityPersister.persist
  rw [bind_ok (EStateM.run_get s)]
  simp only [hopen, Bool.not_true, Bool.false_eq_true, if_false, if_neg hroot.plain_key.1]
  exact hsave

/-- `Persist` on an empty hierarchy, and `EntityLoader::OpenDatabase` on the same file. -/
theorem persist_then_open (P : PtreePaths) {J : Json} (E : SqliteEngine)
    {crc : List UInt8 → UInt32} {A : Adapter T D Unit} {root : Entity T D}
    (hroot : Saveable A (fun _ => ()) root []) {text : List UInt8}
    (htext : Storable J crc (rootHierarchy A (fun _ => ()) root) text)
    {tables : Path → Option Table} {p : Path} (hp : p ≠ [])
    (hrow : ((tables p).getD Table.empty).lastRow + 1 < 2 ^ 31)
    (hsound : ∀ r ∈ hierarchyRows (tables p), r.Sound) (jsonPath q : Path)
    {registry : ResourceLoader.Registry} (hregistry : ReadsHierarchy J registry) (q' dbPath : Path)
    (h : EntityHierarchy) :
    ∃ s, (EntityPersister.persist P A J E crc root).run ⟨⟨jsonPath, LTree.empty⟩,
          ⟨⟨tables, []⟩, ⟨none, q⟩, ⟨some ⟨some p, 0⟩, p⟩⟩⟩ =
        .ok (saveCalls A (fun _ => ()) root []) s ∧
      ∃ w, (EntityLoader.openDatabase J E p).run
          ⟨s.world.disk, ⟨none, q'⟩, registry, ⟨none, dbPath⟩, h⟩ = .ok () w ∧
        w.database.isOpen = true ∧
        w.hierarchy.serializationStructure = rootHierarchy A (fun _ => ()) root := by
  have hlarge : ((tables p).getD Table.empty).lastRow + 1 < 2 ^ 63 := Nat.lt_trans hrow (by omega)
  rw [← set_empty_canonical] at htext
  have hpersist := persist_run J E crc P hroot (h := ⟨jsonPath, LTree.empty⟩)
    (LTree.uniqueAlong_empty _) htext (q := q) hp hlarge 0
  have hstored : Function.update tables p (some (withHierarchy (tables p) text)) p =
      some (withHierarchy (tables p) text) := Function.update_self _ _ _
  have hsound' : ∀ r ∈ hierarchyRows
      (Function.update tables p (some (withHierarchy (tables p) text)) p), r.Sound := by
    rw [hstored]
    exact sound_withHierarchy htext hrow hsound
  have hopen := openDatabase_run J E (q := q') hp hregistry hsound' dbPath h
  refine ⟨_, hpersist, _, hopen, rfl, ?_⟩
  show storedHierarchy J (Function.update tables p _ p) = _
  rw [hstored, storedHierarchy_withHierarchy htext, set_empty_canonical]

/-! ## Both round trips -/

/-- What is serialized into an empty hierarchy and read back from the same JSON path is
loaded as it was saved. -/
def FileRoundTrip (P : PtreePaths) (J : Json) (A : Adapter T D Path) (R : EntityRegistry T D)
    (root : Entity T D) (jsonPath : Path) : Prop :=
  ∀ files : JsonFiles, files.writable jsonPath = true →
    J.Faithful (rootHierarchy A (directoryOf jsonPath) root) →
    ∃ s, (EntitySerializer.serialize P A J root).run ⟨⟨jsonPath, LTree.empty⟩, files⟩ =
        .ok (saveCalls A (directoryOf jsonPath) root []) s ∧
      ∀ h, ∃ h', (EntityHierarchy.loadSerializationStructure J s.world jsonPath).run h =
          .ok () h' ∧
        Rebuilds A R (directoryOf jsonPath) (EntityDeserializer.loadEntity P A R h') root

/-- What is persisted into an empty hierarchy and read back from the same database is loaded
as it was saved. -/
def DatabaseRoundTrip (P : PtreePaths) (J : Json) (E : SqliteEngine) (crc : List UInt8 → UInt32)
    (A : Adapter T D Unit) (R : EntityRegistry T D) (root : Entity T D) : Prop :=
  ∀ (text : List UInt8), Storable J crc (rootHierarchy A (fun _ => ()) root) text →
    ∀ (tables : Path → Option Table) (p : Path), p ≠ [] →
    ((tables p).getD Table.empty).lastRow + 1 < 2 ^ 31 →
    (∀ r ∈ hierarchyRows (tables p), r.Sound) →
    ∀ (jsonPath q q' dbPath : Path) (registry : ResourceLoader.Registry),
    ReadsHierarchy J registry → ∀ h : EntityHierarchy,
    ∃ s, (EntityPersister.persist P A J E crc root).run ⟨⟨jsonPath, LTree.empty⟩,
          ⟨⟨tables, []⟩, ⟨none, q⟩, ⟨some ⟨some p, 0⟩, p⟩⟩⟩ =
        .ok (saveCalls A (fun _ => ()) root []) s ∧
      ∃ w, (EntityLoader.openDatabase J E p).run
          ⟨s.world.disk, ⟨none, q'⟩, registry, ⟨none, dbPath⟩, h⟩ = .ok () w ∧
        Rebuilds A R (fun _ => ()) (EntityLoader.loadEntity P A R w) root

/-- The same, for a hierarchy that reaches the loader by whatever way. -/
def HierarchyRoundTrip (P : PtreePaths) (J : Json) (E : SqliteEngine)
    (crc : List UInt8 → UInt32) (A : Adapter T D Unit) (R : EntityRegistry T D)
    (root : Entity T D) : Prop :=
  ∀ s : SaveState PersisterWorld, s.tree = LTree.empty → s.world.database.isOpen = true →
    ∀ w : LoaderWorld, w.database.isOpen = true →
      w.hierarchy.serializationStructure =
        (finalState ((EntityPersister.persist P A J E crc root).run s)).tree →
      Rebuilds A R (fun _ => ()) (EntityLoader.loadEntity P A R w) root

/-- An entity tree that is saved into an empty hierarchy and loaded into a new entity has the
same keys at every level again, and `Load` is called once for each entity, where and with
what `Save` was called, on the node `Save` filled. What is asked of `Load` is that these calls
return. -/
theorem entity_tree_round_trip {T D : Type} (P : PtreePaths) (J : Json) (E : SqliteEngine)
    (crc : List UInt8 → UInt32) (R : EntityRegistry T D) (root : Entity T D) :
    (∀ (A : Adapter T D Path) (jsonPath : Path), RoundTrips A R (directoryOf jsonPath) root [] →
      FileRoundTrip P J A R root jsonPath ∧
        (loadCalls A (directoryOf jsonPath) root []).mapData LoadCall.saveCall =
          saveCalls A (directoryOf jsonPath) root []) ∧
    (∀ A : Adapter T D Unit, RoundTrips A R (fun _ => ()) root [] →
      DatabaseRoundTrip P J E crc A R root ∧ HierarchyRoundTrip P J E crc A R root ∧
        (loadCalls A (fun _ => ()) root []).mapData LoadCall.saveCall =
          saveCalls A (fun _ => ()) root []) := by
  refine ⟨?_, ?_⟩
  · intro A jsonPath hroot
    refine ⟨?_, mapData_loadCalls root []⟩
    intro files hwritable hjson
    obtain ⟨s, hrun, hread⟩ := serialize_then_load P hroot.saveable hwritable hjson
    exact ⟨s, hrun, fun h => ⟨_, hread h, fileHierarchy_rebuilds P hroot⟩⟩
  · intro A hroot
    refine ⟨?_, ?_, mapData_loadCalls root []⟩
    · intro text htext tables p hp hrow hsound jsonPath q q' dbPath registry hregistry h
      obtain ⟨s, hrun, w, hopen, hisOpen, htree⟩ := persist_then_open P E hroot.saveable htext hp
        hrow hsound jsonPath q hregistry q' dbPath h
      exact ⟨s, hrun, w, hopen, databaseHierarchy_rebuilds P hroot hisOpen htree⟩
    · intro s hempty hopen w hisOpen htree
      rw [persist_rootHierarchy P J E crc hroot.saveable hempty hopen] at htree
      exact databaseHierarchy_rebuilds P hroot hisOpen htree

/-! ## A root with one member -/

/-- `r` and `m` are registered. -/
def registryRM : EntityRegistry Unit Str :=
  ⟨fun k => if k = ['r'] ∨ k = ['m'] then some (.mk [] () [] [] []) else none⟩

/-- The one key that is written is `v`. -/
theorem propertyAdapter_names {membersMap : List (Key × Option (Entity Unit Str))}
    (hv : ['v'] ∉ AssocList.keys membersMap) {k : Key} (hk : k ∈ [['v']]) :
    k ∉ AssocList.keys membersMap ∧ registryRM.hasRegisteredKey k = false := by
  obtain rfl := List.mem_singleton.mp hk
  exact ⟨hv, rfl⟩

theorem entityM_roundTrips (directory : Str → C) (parentKey : Str) :
    RoundTrips (propertyAdapter C) registryRM directory entityM parentKey := by
  refine .mk (by decide) ⟨_, rfl, rfl⟩ List.Pairwise.nil rfl
    (fun k hk => propertyAdapter_names (by simp) hk) ?_ ?_
  · intro p hp
    cases hp
  · intro k m hm
    cases hm

theorem ownerOfM_roundTrips (directory : Str → C) (parentKey : Str) :
    RoundTrips (propertyAdapter C) registryRM directory (ownerOfM (some entityM)) parentKey := by
  refine .mk (by decide) ⟨_, rfl, rfl⟩ (List.pairwise_singleton _ _) rfl
    (fun k hk => propertyAdapter_names (by simp) hk) ?_ ?_
  · intro p hp
    rw [List.mem_singleton.mp hp]
    exact ⟨entityM, rfl, rfl, rfl⟩
  · intro k m hm
    have hpair := List.mem_singleton.mp hm
    cases hpair
    exact entityM_roundTrips _ _

theorem ownerOfM_loadsReturn (directory : Str → C) (f : Entity Unit Str) :
    LoadsReturn (propertyAdapter C) registryRM directory (ownerOfM (some entityM)) [] f :=
  ⟨⟨_, rfl⟩, fun _ _ => ⟨⟨_, rfl⟩, trivial⟩, trivial⟩

/-- What loading gives a new entity `r`: the data that `r` and its member `m` were saved with. -/
theorem data_of_loadedFrom {directory : Str → C} {f f' : Entity Unit Str}
    (h : LoadedFrom (propertyAdapter C) registryRM directory (ownerOfM (some entityM)) [] f f') :
    f'.data = ['1'] ∧ ∃ m, f'.membersMap = [(['m'], some m)] ∧ m.data = ['2'] := by
  simp only [ownerOfM, LoadedFrom] at h
  obtain ⟨-, -, hdata, hmembers⟩ := h
  simp only [MembersLoadedFrom, entityM, LoadedFrom] at hmembers
  obtain ⟨g, m, rest, -, ⟨-, -, hmdata, -⟩, hmap, rfl⟩ := hmembers
  exact ⟨(EStateM.Result.ok.inj hdata).2.symm, m, hmap, (EStateM.Result.ok.inj hmdata).2.symm⟩

/-- The hierarchy of `r`, and its JSON text. -/
def treeRM : Ptree := .node [] [(['r'], .node []
  [(['v'], .node ['1'] []), (['m'], .node [] [(['v'], .node ['2'] [])])])]

def textRM : List UInt8 := textBytes
  "\x7b\n    \"r\": \x7b\n        \"v\": \"1\",\n        \"m\": \x7b\n            \"v\": \"2\"\n        \x7d\n    \x7d\n\x7d\n"

set_option maxRecDepth 4000 in
theorem storable_treeRM : Storable (Json.ofText treeRM textRM) crc32 treeRM textRM :=
  ⟨rfl, rfl, by decide +kernel, by decide +kernel, by decide +kernel, by decide +kernel⟩

/-- A new entity `r` is loaded with the data of the one that was saved, and so is its member `m`. -/
def RestoresRM (load : EStateM Exception (Entity Unit Str) (Option (LTree Key (LoadCall C))))
    (directory : Str → C) : Prop :=
  ∀ f : Entity Unit Str, f.key = ['r'] → f.membersMap = [] →
    ∃ f' m, load.run f = .ok (some (loadCalls (propertyAdapter C) directory
        (ownerOfM (some entityM)) [])) f' ∧
      f'.data = ['1'] ∧ f'.membersMap = [(['m'], some m)] ∧ m.data = ['2']

theorem Rebuilds.restoresRM
    {load : EStateM Exception (Entity Unit Str) (Option (LTree Key (LoadCall C)))}
    {directory : Str → C}
    (h : Rebuilds (propertyAdapter C) registryRM directory load (ownerOfM (some entityM))) :
    RestoresRM load directory := by
  intro f hkey hempty
  obtain ⟨f', hrun, -, hfrom⟩ := h f hkey hempty (ownerOfM_loadsReturn directory f)
  obtain ⟨hdata, m, hmembers, hmdata⟩ := data_of_loadedFrom hfrom
  exact ⟨f', m, hrun, hdata, hmembers, hmdata⟩

/-- `r` and its member `m` through a JSON file and through a database. -/
theorem entity_tree_round_trip_sample :
    (∃ s, (EntitySerializer.serialize boostPaths (propertyAdapter Path) (Json.ofText treeRM textRM)
          (ownerOfM (some entityM))).run
          ⟨⟨['j'], LTree.empty⟩, ⟨fun _ => none, fun _ => true⟩⟩ =
        .ok (saveCalls (propertyAdapter Path) (directoryOf ['j']) (ownerOfM (some entityM)) []) s ∧
      ∀ h, ∃ h', (EntityHierarchy.loadSerializationStructure (Json.ofText treeRM textRM) s.world
          ['j']).run h = .ok () h' ∧
        RestoresRM (EntityDeserializer.loadEntity boostPaths (propertyAdapter Path) registryRM h')
          (directoryOf ['j'])) ∧
    ∃ s, (EntityPersister.persist boostPaths (propertyAdapter Unit) (Json.ofText treeRM textRM)
          plainEngine crc32 (ownerOfM (some entityM))).run
          ⟨EntityHierarchy.new, ⟨⟨fun _ => none, []⟩, Sqlite.new, ⟨some ⟨some ['d'], 0⟩, ['d']⟩⟩⟩ =
        .ok (saveCalls (propertyAdapter Unit) (fun _ => ()) (ownerOfM (some entityM)) []) s ∧
      ∃ w, (EntityLoader.openDatabase (Json.ofText treeRM textRM) plainEngine ['d']).run
          ⟨s.world.disk, Sqlite.new, fun _ => none, Sqlite.new, EntityHierarchy.new⟩ = .ok () w ∧
        RestoresRM (EntityLoader.loadEntity boostPaths (propertyAdapter Unit) registryRM w)
          (fun _ => ()) := by
  have hboth := entity_tree_round_trip boostPaths (Json.ofText treeRM textRM) plainEngine crc32
    registryRM (ownerOfM (some entityM))
  refine ⟨?_, ?_⟩
  · obtain ⟨s, hsave, hload⟩ := (hboth.1 (propertyAdapter Path) ['j']
      (ownerOfM_roundTrips _ _)).1 ⟨fun _ => none, fun _ => true⟩ rfl
      (Json.ofText_faithful treeRM textRM)
    refine ⟨s, hsave, fun h => ?_⟩
    obtain ⟨h', hread, hrebuilds⟩ := hload h
    exact ⟨h', hread, hrebuilds.restoresRM⟩
  · obtain ⟨s, hsave, w, hopen, hrebuilds⟩ := (hboth.2 (propertyAdapter Unit)
      (ownerOfM_roundTrips _ _)).1 textRM storable_treeRM (fun _ => none) ['d']
      (List.cons_ne_nil _ _) (by decide) (fun r hr => by cases hr) [] [] [] [] (fun _ => none)
      (.inl rfl) EntityHierarchy.new
    exact ⟨s, hsave, w, hopen, hrebuilds.restoresRM⟩

end Azulejo
