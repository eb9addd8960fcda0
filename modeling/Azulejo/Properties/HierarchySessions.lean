import Azulejo.DatabaseAdapters.EntitySpecs
import Azulejo.DatabaseAdapters.PlainEngine
import Azulejo.Lib.Runs

/-!
# Sessions of the entity persister

A session opens a database, persists entities and closes it; a new process starts with a new
persister. The history of a database is what was persisted while it was open. Every
`Persist` stores the whole hierarchy of the persister, so the stored hierarchy is the history
as long as the persister's hierarchy agrees with the stored one about the other roots.
-/

namespace Azulejo

open AssocList Stateful Sqlite

variable {T D : Type} (P : PtreePaths) (A : Adapter T D Unit) (J : Json) (E : SqliteEngine)
  (crc : List UInt8 → UInt32)

/-! ## The system -/

/-- The calls a session is made of. -/
inductive SessionCall (T D : Type) where
  | openDatabase (dbPath : Path)
  | persist (entity : Entity T D)
  | closeDatabase
  | resetInstance

/-- The call itself, which may throw. -/
def SessionCall.call : SessionCall T D → EStateM Exception (SaveState PersisterWorld) Unit
  | .openDatabase dbPath => EntityPersister.onWorld (EntityPersister.openDatabase dbPath)
  | .persist entity => do
    let _ ← EntityPersister.persist P A J E crc entity
  | .closeDatabase => EntityPersister.onWorld (EntityPersister.onDatabase Azulejo.closeDatabase)
  | .resetInstance => EntityPersister.resetInstance

/-- The persister with the files, and for every database what each root key was last
persisted as while it was open. -/
structure Session where
  state : SaveState PersisterWorld
  history : Path → Key → Option Ptree

/-- The database a persister has open. -/
def openFile (s : SaveState PersisterWorld) : Option Path :=
  s.world.database.db.bind Connection.file

/-- The history after a call. -/
def record (s : Session) : SessionCall T D → Path → Key → Option Ptree
  | .persist entity =>
    match openFile s.state with
    | some d => Function.update s.history d
        (Function.update (s.history d) entity.key (some (canonical A (fun _ => ()) entity [])))
    | none => s.history
  | _ => s.history

def sessionStep (s : Session) (c : SessionCall T D) : Session :=
  ⟨finalState ((c.call P A J E crc).run s.state), record A s c⟩

/-- A new process, with databases that hold no hierarchy. -/
structure Fresh (s : Session) : Prop where
  hierarchy : s.state.hierarchy = EntityHierarchy.new
  faults : s.state.world.disk.faults = []
  resourcePersister : s.state.world.resourcePersister.db = none
  database : s.state.world.database.db = none
  rows : ∀ d, hierarchyRows (s.state.world.disk.tables d) = []
  history : s.history = fun _ _ => none

/-- The hierarchy of the persister and the one stored in `d` have the same roots, except
perhaps for `k`. -/
def AgreeExcept (s : SaveState PersisterWorld) (d : Path) (k : Key) : Prop :=
  ∀ j, j ≠ k → List.lookup j s.tree.children =
    List.lookup j (storedHierarchy J (s.world.disk.tables d)).children

/-- A call that keeps the history of the open database: a `Persist` of an entity tree that
can be stored, when the two hierarchies agree about the other roots. -/
def KeepsHistory (s : Session) : SessionCall T D → Prop
  | .persist entity => ∀ d, openFile s.state = some d →
      Saveable A (fun _ => ()) entity [] ∧
      AgreeExcept J s.state d entity.key ∧
      (∃ text, Storable J crc
        (s.state.tree.set [entity.key] (canonical A (fun _ => ()) entity [])) text) ∧
      ((s.state.world.disk.tables d).getD Table.empty).lastRow + 1 < 2 ^ 31
  | _ => True

/-! ## The invariant -/

/-- A file holds the history `roots`. -/
structure Holds (t : Option Table) (roots : Key → Option Ptree) : Prop where
  sound : ∀ r ∈ hierarchyRows t, r.Sound
  nodup : (storedHierarchy J t).labels.Nodup
  stored : ∀ k, List.lookup k (storedHierarchy J t).children = roots k

structure SessionInv (s : Session) : Prop where
  faults : s.state.world.disk.faults = []
  resourcePersister : s.state.world.resourcePersister.db = none
  database : s.state.world.database.db = none ∨
    ∃ d, d ≠ [] ∧ s.state.world.database = ⟨some ⟨some d, 0⟩, d⟩
  roots : s.state.tree.labels.Nodup
  files : ∀ d, Holds J (s.state.world.disk.tables d) (s.history d)

theorem Fresh.inv {s : Session} (h : Fresh s) : SessionInv J s where
  faults := h.faults
  resourcePersister := h.resourcePersister
  database := .inl h.database
  roots := by
    show s.state.hierarchy.serializationStructure.labels.Nodup
    rw [h.hierarchy]
    exact List.nodup_nil
  files := by
    intro d
    have hempty : storedHierarchy J (s.state.world.disk.tables d) = LTree.empty := by
      unfold storedHierarchy
      rw [h.rows d]
      rfl
    refine ⟨?_, ?_, ?_⟩
    · intro r hr
      rw [h.rows d] at hr
      cases hr
    · rw [hempty]
      exact List.nodup_nil
    · intro k
      rw [hempty, h.history]
      rfl

/-! ## Steps -/

variable {A J} {crc}

/-- A database file after a `Persist` into it. -/
theorem Holds.persist {t : Option Table} {roots : Key → Option Ptree} (ht : Holds J t roots)
    {tree node : Ptree} {k : Key} (hroots : tree.labels.Nodup)
    (hagree : ∀ j, j ≠ k → List.lookup j tree.children =
      List.lookup j (storedHierarchy J t).children)
    {text : List UInt8} (htext : Storable J crc (tree.set [k] node) text)
    (hrow : (t.getD Table.empty).lastRow + 1 < 2 ^ 31) :
    Holds J (some (withHierarchy t text)) (Function.update roots k (some node)) := by
  have hstored := storedHierarchy_withHierarchy htext t
  refine ⟨sound_withHierarchy htext hrow ht.sound, ?_, ?_⟩
  · rw [hstored, LTree.set_singleton]
    exact nodup_keys_setIn hroots node
  · intro j
    rw [hstored, LTree.set_singleton, LTree.children_node]
    by_cases hj : j = k
    · subst hj
      rw [lookup_setIn_self, Function.update_self]
    · rw [lookup_setIn_ne hj, Function.update_of_ne hj, hagree j hj, ht.stored j]

theorem onWorld_finalState {x : EStateM Exception PersisterWorld Unit}
    (s : SaveState PersisterWorld) :
    finalState ((EntityPersister.onWorld x).run s) =
      { s with world := finalState (x.run s.world) } := by
  unfold EntityPersister.onWorld
  rw [zoom_run]
  cases x.run s.world <;> rfl

/-- `OpenDatabase` leaves the database as it was, or opens the given one. -/
theorem openDatabase_finalState (tables : Path → Option Table) (resourcePersister database : Sqlite)
    (dbPath : Path) :
    ∃ database', finalState ((EntityPersister.openDatabase dbPath).run
        ⟨⟨tables, []⟩, resourcePersister, database⟩) =
          ⟨⟨tables, []⟩, resourcePersister, database'⟩ ∧
      (database' = database ∨ dbPath ≠ [] ∧ database' = ⟨some ⟨some dbPath, 0⟩, dbPath⟩) := by
  unfold EntityPersister.openDatabase
  rw [bind_ok (EStateM.run_get _)]
  by_cases hopen : database.isOpen = true
  · refine ⟨database, ?_, .inl rfl⟩
    simp only [hopen, if_true]
    rfl
  · simp only [hopen, Bool.false_eq_true, if_false]
    by_cases hpath : dbPath = []
    · refine ⟨database, ?_, .inl rfl⟩
      subst hpath
      rfl
    · refine ⟨_, ?_, .inr ⟨hpath, rfl⟩⟩
      unfold EntityPersister.onDatabase
      rw [zoom_run, openPath_run hpath]
      rfl

/-- `CloseDatabase` leaves no database open. -/
theorem closeDatabase_run (tables : Path → Option Table) (resourcePersister : Sqlite)
    {database : Sqlite}
    (hdatabase : database.db = none ∨ ∃ d, d ≠ [] ∧ database = ⟨some ⟨some d, 0⟩, d⟩) :
    ∃ path, (EntityPersister.onDatabase closeDatabase).run
        ⟨⟨tables, []⟩, resourcePersister, database⟩ =
          .ok () ⟨⟨tables, []⟩, resourcePersister, ⟨none, path⟩⟩ := by
  unfold EntityPersister.onDatabase
  rcases hdatabase with hnone | ⟨d, _, rfl⟩
  · obtain ⟨db, path⟩ := database
    obtain rfl : db = none := hnone
    exact ⟨path, rfl⟩
  · have hclose := closeDatabase_connected tables d
    unfold connected at hclose
    refine ⟨d, ?_⟩
    rw [zoom_run, hclose]

/-- The invariant depends on the database of the persister only as far as it is open. -/
theorem SessionInv.setDatabase {h h' : EntityHierarchy} {tables : Path → Option Table}
    {resourcePersister database database' : Sqlite} {history : Path → Key → Option Ptree}
    (hs : SessionInv J ⟨⟨h, ⟨⟨tables, []⟩, resourcePersister, database⟩⟩, history⟩)
    (hdatabase : database'.db = none ∨ ∃ d, d ≠ [] ∧ database' = ⟨some ⟨some d, 0⟩, d⟩)
    (hroots : h'.serializationStructure.labels.Nodup) :
    SessionInv J ⟨⟨h', ⟨⟨tables, []⟩, resourcePersister, database'⟩⟩, history⟩ where
  faults := rfl
  resourcePersister := hs.resourcePersister
  database := hdatabase
  roots := hroots
  files := hs.files

theorem sessionStep_openDatabase {s : Session} (hs : SessionInv J s) (dbPath : Path) :
    SessionInv J (sessionStep P A J E crc s (.openDatabase dbPath)) := by
  obtain ⟨⟨h, ⟨⟨tables, faults⟩, resourcePersister, database⟩⟩, history⟩ := s
  obtain rfl : faults = [] := hs.faults
  obtain ⟨database', hrun, hdatabase⟩ :=
    openDatabase_finalState tables resourcePersister database dbPath
  unfold sessionStep
  simp only [SessionCall.call, onWorld_finalState, hrun]
  apply hs.setDatabase _ hs.roots
  rcases hdatabase with rfl | ⟨hpath, rfl⟩
  · exact hs.database
  · exact .inr ⟨dbPath, hpath, rfl⟩

theorem sessionStep_closeDatabase {s : Session} (hs : SessionInv J s) :
    SessionInv J (sessionStep P A J E crc s .closeDatabase) := by
  obtain ⟨⟨h, ⟨⟨tables, faults⟩, resourcePersister, database⟩⟩, history⟩ := s
  obtain rfl : faults = [] := hs.faults
  obtain ⟨path, hrun⟩ := closeDatabase_run tables resourcePersister hs.database
  unfold sessionStep
  simp only [SessionCall.call, onWorld_finalState]
  rw [hrun]
  exact hs.setDatabase (.inl rfl) hs.roots

/-- The new process has an empty hierarchy. -/
theorem sessionStep_resetInstance {s : Session} (hs : SessionInv J s) :
    SessionInv J (sessionStep P A J E crc s .resetInstance) := by
  obtain ⟨⟨h, ⟨⟨tables, faults⟩, resourcePersister, database⟩⟩, history⟩ := s
  obtain rfl : faults = [] := hs.faults
  obtain ⟨path, hrun⟩ := closeDatabase_run tables resourcePersister hs.database
  have hworld : (EntityPersister.onWorld (EntityPersister.onDatabase closeDatabase)).run
      ⟨h, ⟨⟨tables, []⟩, resourcePersister, database⟩⟩ =
        .ok () ⟨h, ⟨⟨tables, []⟩, resourcePersister, ⟨none, path⟩⟩⟩ := by
    unfold EntityPersister.onWorld
    rw [zoom_run, hrun]
  unfold sessionStep
  simp only [SessionCall.call, EntityPersister.resetInstance]
  rw [bind_ok hworld, EStateM.run_modify]
  exact hs.setDatabase (.inl rfl) List.nodup_nil

/-- A `Persist` into the open database puts the root into both hierarchies. -/
theorem sessionStep_persist_eq {h : EntityHierarchy} {entity : Entity T D}
    (he : Saveable A (fun _ => ()) entity [])
    (hunique : h.serializationStructure.UniqueAlong [entity.key]) {text : List UInt8}
    (htext : Storable J crc (h.serializationStructure.set [entity.key]
      (canonical A (fun _ => ()) entity [])) text)
    {tables : Path → Option Table} {d q : Path} (hd : d ≠ [])
    (hrow : ((tables d).getD Table.empty).lastRow + 1 < 2 ^ 31)
    (history : Path → Key → Option Ptree) :
    sessionStep P A J E crc
        ⟨⟨h, ⟨⟨tables, []⟩, ⟨none, q⟩, ⟨some ⟨some d, 0⟩, d⟩⟩⟩, history⟩ (.persist entity) =
      ⟨⟨{ h with serializationStructure :=
            h.serializationStructure.set [entity.key] (canonical A (fun _ => ()) entity []) },
          ⟨⟨Function.update tables d (some (withHierarchy (tables d) text)), []⟩, ⟨none, d⟩,
            ⟨some ⟨some d, 0⟩, d⟩⟩⟩,
        Function.update history d (Function.update (history d) entity.key
          (some (canonical A (fun _ => ()) entity [])))⟩ := by
  have hlarge : ((tables d).getD Table.empty).lastRow + 1 < 2 ^ 63 := Nat.lt_trans hrow (by omega)
  have hrun := persist_run J E crc P he hunique htext (q := q) hd hlarge 0
  unfold sessionStep
  simp only [SessionCall.call]
  rw [bind_ok hrun]
  rfl

theorem sessionStep_persist {s : Session} (hs : SessionInv J s) {entity : Entity T D}
    (hkeeps : KeepsHistory A J crc s (.persist entity)) :
    SessionInv J (sessionStep P A J E crc s (.persist entity)) := by
  obtain ⟨⟨h, ⟨⟨tables, faults⟩, ⟨rpDb, q⟩, database⟩⟩, history⟩ := s
  obtain rfl : faults = [] := hs.faults
  obtain rfl : rpDb = none := hs.resourcePersister
  rcases hs.database with hnone | ⟨d, hd, hdatabase⟩
  · -- `Persist` throws before it changes anything.
    obtain ⟨db, path⟩ := database
    obtain rfl : db = none := hnone
    exact hs
  · obtain rfl : database = ⟨some ⟨some d, 0⟩, d⟩ := hdatabase
    obtain ⟨he, hagree, ⟨text, htext⟩, hrow⟩ := hkeeps d rfl
    have hunique : h.serializationStructure.UniqueAlong [entity.key] :=
      ⟨List.nodup_iff_count_le_one.mp hs.roots _, fun _ _ => trivial⟩
    rw [sessionStep_persist_eq P E he hunique htext hd hrow]
    refine ⟨rfl, rfl, .inr ⟨d, hd, rfl⟩, ?_, ?_⟩
    · show (LTree.set [entity.key] h.serializationStructure _).labels.Nodup
      rw [LTree.set_singleton]
      exact nodup_keys_setIn hs.roots _
    · intro d'
      by_cases hd' : d' = d
      · subst hd'
        have hholds := (hs.files d').persist hs.roots hagree htext hrow
        show Holds J (Function.update tables d' _ d') (Function.update history d' _ d')
        rw [Function.update_self, Function.update_self]
        exact hholds
      · show Holds J (Function.update tables d _ d') (Function.update history d _ d')
        rw [Function.update_of_ne hd', Function.update_of_ne hd']
        exact hs.files d'

/-- Every call that keeps the history keeps the invariant. -/
theorem sessionStep_inv {s : Session} {c : SessionCall T D} (hs : SessionInv J s)
    (hkeeps : KeepsHistory A J crc s c) : SessionInv J (sessionStep P A J E crc s c) := by
  cases c with
  | openDatabase dbPath => exact sessionStep_openDatabase P E hs dbPath
  | persist entity => exact sessionStep_persist P E hs hkeeps
  | closeDatabase => exact sessionStep_closeDatabase P E hs
  | resetInstance => exact sessionStep_resetInstance P E hs

/-! ## Whole runs -/

/-- In every run of sessions in which each `Persist` finds the persister's hierarchy in
agreement with the stored one about the other roots, what `EntityLoader::OpenDatabase` reads
from a database is its history. -/
theorem stored_hierarchy_is_history {T D : Type} (P : PtreePaths) (A : Adapter T D Unit) (J : Json)
    (E : SqliteEngine) (crc : List UInt8 → UInt32) (start : Session) (hstart : Fresh start)
    (calls : List (SessionCall T D))
    (hcalls : Runs.Meets (sessionStep P A J E crc) (KeepsHistory A J crc) start calls)
    (d : Path) (hd : d ≠ []) (registry : ResourceLoader.Registry)
    (hregistry : ReadsHierarchy J registry) (q dbPath : Path) (h : EntityHierarchy) :
    let s := Runs.run (sessionStep P A J E crc) start calls
    ∃ w, (EntityLoader.openDatabase J E d).run
        ⟨s.state.world.disk, ⟨none, q⟩, registry, ⟨none, dbPath⟩, h⟩ = .ok () w ∧
      w.hierarchy.serializationStructure.labels.Nodup ∧
      ∀ k, List.lookup k w.hierarchy.serializationStructure.children = s.history d k := by
  intro s
  have hs : SessionInv J s :=
    Runs.invariant (SessionInv J) (fun _ _ hs hkeeps => sessionStep_inv P E hs hkeeps)
      (hstart.inv J) hcalls
  have hfile := hs.files d
  have hopen := openDatabase_run J E (q := q) hd hregistry hfile.sound dbPath h
  have hdisk : s.state.world.disk = ⟨s.state.world.disk.tables, []⟩ := by
    rw [← hs.faults]
  rw [hdisk]
  exact ⟨_, hopen, hfile.nodup, hfile.stored⟩

/-! ## Two roots in two processes -/

/-- The hierarchy with the one root `m`, and the one with the one root `r`. -/
def treeM : Ptree := .node [] [(['m'], .node [] [(['v'], .node ['2'] [])])]

def treeR : Ptree := .node [] [(['r'], .node [] [(['v'], .node ['1'] [])])]

def textM : List UInt8 := textBytes "\x7b\n    \"m\": \x7b\n        \"v\": \"2\"\n    \x7d\n\x7d\n"

def textR : List UInt8 := textBytes "\x7b\n    \"r\": \x7b\n        \"v\": \"1\"\n    \x7d\n\x7d\n"

/-- The JSON of these two hierarchies. -/
def twoRootsJson : Json where
  write tree := .ok (if tree.labels = [['m']] then textM else textR)
  read text := .ok (if text = textM then treeM else treeR)

def freshSession : Session :=
  ⟨⟨EntityHierarchy.new, ⟨⟨fun _ => none, []⟩, Sqlite.new, Sqlite.new⟩⟩, fun _ _ => none⟩

/-- The hierarchy with both roots. -/
def treeMR : Ptree :=
  .node [] [(['m'], .node [] [(['v'], .node ['2'] [])]), (['r'], .node [] [(['v'], .node ['1'] [])])]

def textMR : List UInt8 := textBytes
  "\x7b\n    \"m\": \x7b\n        \"v\": \"2\"\n    \x7d,\n    \"r\": \x7b\n        \"v\": \"1\"\n    \x7d\n\x7d\n"

/-- The JSON of the hierarchy with `m` alone and of the one with both roots. -/
def growingJson : Json where
  write tree := .ok (if tree.labels = [['m']] then textM else textMR)
  read text := .ok (if text = textM then treeM else treeMR)

theorem storable_treeM : Storable growingJson crc32 treeM textM :=
  ⟨rfl, rfl, by decide +kernel, by decide +kernel, by decide +kernel, by decide +kernel⟩

set_option maxRecDepth 4000 in
theorem storable_treeMR : Storable growingJson crc32 treeMR textMR :=
  ⟨rfl, rfl, by decide +kernel, by decide +kernel, by decide +kernel, by decide +kernel⟩

/-- The state after the root `m` has been persisted into a new database. -/
theorem run_persist_entityM :
    Runs.run (sessionStep boostPaths (propertyAdapter Unit) growingJson plainEngine crc32)
        freshSession [.openDatabase ['d'], .persist entityM] =
      ⟨⟨⟨[], treeM⟩, ⟨⟨Function.update (fun _ => none) ['d'] (some (withHierarchy none textM)), []⟩,
          ⟨none, ['d']⟩, ⟨some ⟨some ['d'], 0⟩, ['d']⟩⟩⟩,
        Function.update (fun _ _ => none) ['d']
          (Function.update (fun _ => none) ['m'] (some (.node [] [(['v'], .node ['2'] [])])))⟩ :=
  sessionStep_persist_eq boostPaths plainEngine (h := EntityHierarchy.new)
    (entityM_saveable _ _) (LTree.uniqueAlong_empty _) storable_treeM
    (List.cons_ne_nil 'd' []) (by decide) _

/-- A process persists the root `m`, and in a second session the root `r`, which finds `m` in the
hierarchy as in the database. -/
theorem stored_hierarchy_is_history_sample :
    let s := Runs.run (sessionStep boostPaths (propertyAdapter Unit) growingJson plainEngine crc32)
      freshSession [.openDatabase ['d'], .persist entityM, .closeDatabase, .openDatabase ['d'],
        .persist (ownerOfM none), .closeDatabase]
    ∃ w, (EntityLoader.openDatabase growingJson plainEngine ['d']).run
        ⟨s.state.world.disk, Sqlite.new, fun _ => none, Sqlite.new, EntityHierarchy.new⟩ =
          .ok () w ∧
      w.hierarchy.serializationStructure.labels.Nodup ∧
      ∀ k, List.lookup k w.hierarchy.serializationStructure.children = s.history ['d'] k := by
  have hm : ∀ e, (none : Option (Entity Unit Str)) = some e → e = entityM := nofun
  apply stored_hierarchy_is_history boostPaths (propertyAdapter Unit) growingJson plainEngine crc32
    freshSession ⟨rfl, rfl, rfl, rfl, fun _ => rfl, rfl⟩
  · apply (@Runs.meets_append _ _ _ _ _ [_, _] _).mpr
    rw [run_persist_entityM]
    refine ⟨⟨trivial, ?_, trivial⟩, trivial, trivial, ?_, trivial, trivial⟩
    · intro d hd
      cases hd
      exact ⟨entityM_saveable _ _, fun _ _ => rfl, ⟨textM, storable_treeM⟩, by decide⟩
    · intro d hd
      cases hd
      refine ⟨ownerOfM_saveable hm _ _, ?_, ⟨textMR, storable_treeMR⟩, by decide +kernel⟩
      intro j _
      show _ = List.lookup j (storedHierarchy growingJson (some (withHierarchy none textM))).children
      rw [storedHierarchy_withHierarchy storable_treeM]
      rfl
  · exact List.cons_ne_nil _ _
  · exact .inl rfl

/-- A second process that persists another root into the same database loses the first. -/
theorem second_process_loses_root :
    let s := Runs.run (sessionStep boostPaths (propertyAdapter Unit) twoRootsJson plainEngine crc32)
      freshSession [.openDatabase ['d'], .persist entityM, .closeDatabase, .resetInstance,
        .openDatabase ['d'], .persist (ownerOfM none), .closeDatabase]
    ∃ w, (EntityLoader.openDatabase twoRootsJson plainEngine ['d']).run
        ⟨s.state.world.disk, Sqlite.new, fun _ => none, Sqlite.new, EntityHierarchy.new⟩ =
          .ok () w ∧
      ¬ ∀ k, List.lookup k w.hierarchy.serializationStructure.children = s.history ['d'] k := by
  intro s
  -- one evaluation of the run, for what is read and for what the history says
  have heval : (match (EntityLoader.openDatabase twoRootsJson plainEngine ['d']).run
      ⟨s.state.world.disk, Sqlite.new, fun _ => none, Sqlite.new, EntityHierarchy.new⟩ with
    | .ok _ w => (w.hierarchy.serializationStructure.labels, (s.history ['d'] ['m']).isSome)
    | .error _ _ => ([], false)) = ([['r']], true) := by decide +kernel
  cases hrun : (EntityLoader.openDatabase twoRootsJson plainEngine ['d']).run
      ⟨s.state.world.disk, Sqlite.new, fun _ => none, Sqlite.new, EntityHierarchy.new⟩ with
  | error e w =>
    rw [hrun] at heval
    cases heval
  | ok u w =>
    rw [hrun] at heval
    obtain ⟨hread, hpersisted⟩ := Prod.mk.inj heval
    refine ⟨w, rfl, ?_⟩
    intro hall
    have hlost : List.lookup ['m'] w.hierarchy.serializationStructure.children = none := by
      apply lookup_none.mpr
      rw [show keys w.hierarchy.serializationStructure.children = [['r']] from hread]
      decide
    rw [← hall ['m'], hlost] at hpersisted
    cases hpersisted

end Azulejo
