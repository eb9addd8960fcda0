import Azulejo.DatabaseAdapters.FaultSpecs

/-!
# Opening an entity loader when calls of the library fail

`EntityLoader::OpenDatabase` opens its own database and then loads the hierarchy through the
`ResourceLoader`, which it opens and closes when it finds it closed. The lemmas say for every
outcome of the library how that ends and which of the two databases are open then.
-/

namespace Azulejo

open Stateful Sqlite SqliteBlob

variable (J : Json) (E : SqliteEngine)

/-- What the `ResourceLoader` works on. -/
def LoaderWorld.loaderState (w : LoaderWorld) : SqliteState := ⟨w.disk, w.resourceLoader⟩

/-- The world after a step of the `ResourceLoader`. -/
def LoaderWorld.withLoader (w : LoaderWorld) (s : SqliteState) : LoaderWorld :=
  { w with disk := s.disk, resourceLoader := s.sqlite }

namespace EntityLoader

theorem onResourceLoader_returns {α : Type} {x : EStateM Exception SqliteState α} {w : LoaderWorld}
    {a : α} {s : SqliteState} (h : x.run w.loaderState = .ok a s) :
    (onResourceLoader x).run w = .ok a (w.withLoader s) := zoom_ok h

theorem onResourceLoader_throws {α : Type} {x : EStateM Exception SqliteState α} {w : LoaderWorld}
    {e : Exception} {s : SqliteState} (h : x.run w.loaderState = .error e s) :
    (onResourceLoader x).run w = .error e (w.withLoader s) := zoom_error h

/-- How loading a hierarchy ends: with an exception that is not caught, which leaves the
`ResourceLoader` open; with a tree, and the `ResourceLoader` open if it was before; or without an
exception or a tree. -/
inductive TreeEnd (isOpen : Bool) (database : Sqlite) (escapes : Prop) :
    EStateM.Result Exception LoaderWorld Ptree → Prop where
  | escapes {e : Exception} {w : LoaderWorld} : escapes → e.escapes = true →
      w.resourceLoader.isOpen = true → w.database = database →
      TreeEnd isOpen database escapes (.error e w)
  | returns {tree : Ptree} {w : LoaderWorld} : ¬ escapes → w.resourceLoader.isOpen = isOpen →
      w.database = database → TreeEnd isOpen database escapes (.ok tree w)
  | dies {e : Exception} {w : LoaderWorld} : ¬ escapes → e.isStandard = false →
      TreeEnd isOpen database escapes (.error e w)

/-- The `ResourceLoader` has the database that `GetEntityHierarchyTree` has opened in it. -/
def ClosesAgain (isOpen : Bool) (sqlite : Sqlite) : Prop :=
  isOpen = false → ∃ p, sqlite = ⟨some ⟨some p, 0⟩, p⟩

/-- The `ResourceLoader` is closed if it was. -/
theorem closeAgain_run {isOpen : Bool} {w : LoaderWorld} (hopen : w.resourceLoader.isOpen = true)
    (h : ClosesAgain isOpen w.resourceLoader) {α : Type} (x : EStateM Exception LoaderWorld α) :
    ∃ w', (if !isOpen then onResourceLoader closeDatabase >>= fun _ => x else x).run w = x.run w' ∧
      w'.resourceLoader.isOpen = isOpen ∧ w'.database = w.database := by
  cases isOpen with
  | true => exact ⟨w, rfl, hopen, rfl⟩
  | false =>
    obtain ⟨p, hp⟩ := h rfl
    have hclose : closeDatabase.run w.loaderState = .ok () ⟨w.disk, ⟨none, p⟩⟩ := by
      rw [LoaderWorld.loaderState, hp]
      exact closeDatabase_opened w.disk p
    refine ⟨w.withLoader ⟨w.disk, ⟨none, p⟩⟩, ?_, rfl, rfl⟩
    simp only [Bool.not_false, if_true]
    rw [bind_ok (onResourceLoader_returns hclose)]

/-- Any other exception goes through. -/
theorem loadHierarchyTree_of_error {isOpen : Bool} {w : LoaderWorld} {e : Exception}
    {s : SqliteState}
    (hload : (ResourceLoader.load E w.registry ENTITY_HIERARCHY_BLOB_KEY).run w.loaderState =
      .error e s) (he : ∀ what, e ≠ .runtimeError what) :
    (loadHierarchyTree E isOpen).run w = .error e (w.withLoader s) := by
  unfold loadHierarchyTree
  rw [bind_ok (EStateM.run_get w), bind_ok (attempt_error (onResourceLoader_throws hload))]
  cases e with
  | runtimeError what => exact absurd rfl (he what)
  | logicError what => rfl
  | exception what => rfl
  | nontermination => rfl
  | nullDereference => rfl
  | uninitializedPointer => rfl

section

variable {isOpen : Bool} {w : LoaderWorld} (hopen : w.resourceLoader.isOpen = true)
  (hclose : ClosesAgain isOpen w.resourceLoader)

include hopen hclose

/-- The blob is loaded: the `ResourceLoader` is closed if it was, and the tree is taken from it. -/
theorem loadHierarchyTree_of_ok {resource : IResource} {s : SqliteState}
    (hload : (ResourceLoader.load E w.registry ENTITY_HIERARCHY_BLOB_KEY).run w.loaderState =
      .ok resource s) :
    TreeEnd isOpen w.database (Escapes (ResourceLoader.load E w.registry ENTITY_HIERARCHY_BLOB_KEY)
      w.loaderState) ((loadHierarchyTree E isOpen).run w) := by
  have hloaded : (w.withLoader s).resourceLoader = w.resourceLoader :=
    load_keeps_sqlite E hierarchyKey_ne_nil hopen hload nofun
  rw [← hloaded] at hopen hclose
  have hnot := not_escapes_of_ok hload
  unfold loadHierarchyTree
  rw [bind_ok (EStateM.run_get w), bind_ok (attempt_ok (onResourceLoader_returns hload))]
  simp only
  cases resource.hierarchyTree with
  | some tree =>
    obtain ⟨w', hrun, hisOpen, hdatabase⟩ := closeAgain_run hopen hclose (pure tree)
    rw [hrun]
    exact .returns hnot hisOpen hdatabase
  | none =>
    obtain ⟨w', hrun, hisOpen, hdatabase⟩ := closeAgain_run hopen hclose
      (throw .nullDereference : EStateM Exception LoaderWorld Ptree)
    rw [hrun]
    exact .dies hnot rfl

/-- A `std::runtime_error` of the loading is caught: the `ResourceLoader` is closed if it was. -/
theorem loadHierarchyTree_of_runtimeError {what : Str} {s : SqliteState}
    (hload : (ResourceLoader.load E w.registry ENTITY_HIERARCHY_BLOB_KEY).run w.loaderState =
      .error (.runtimeError what) s) :
    TreeEnd isOpen w.database (Escapes (ResourceLoader.load E w.registry ENTITY_HIERARCHY_BLOB_KEY)
      w.loaderState) ((loadHierarchyTree E isOpen).run w) := by
  have hloaded : (w.withLoader s).resourceLoader = w.resourceLoader :=
    load_keeps_sqlite E hierarchyKey_ne_nil hopen hload nofun
  rw [← hloaded] at hopen hclose
  unfold loadHierarchyTree
  rw [bind_ok (EStateM.run_get w), bind_ok (attempt_error (onResourceLoader_throws hload))]
  obtain ⟨w', hrun, hisOpen, hdatabase⟩ := closeAgain_run hopen hclose
    (pure LTree.empty : EStateM Exception LoaderWorld Ptree)
  simp only
  rw [hrun]
  exact .returns (not_escapes_of_runtimeError hload) hisOpen hdatabase

theorem loadHierarchyTree_ends :
    TreeEnd isOpen w.database
      (LoadEscapes E w.registry ENTITY_HIERARCHY_BLOB_KEY w.loaderState)
      ((loadHierarchyTree E isOpen).run w) := by
  rw [← escapes_load_iff E hierarchyKey_ne_nil (s := w.loaderState) hopen]
  have hstill := @load_keeps_open E w.registry _ hierarchyKey_ne_nil w.loaderState hopen
  cases hload : (ResourceLoader.load E w.registry ENTITY_HIERARCHY_BLOB_KEY).run w.loaderState with
  | ok resource s => exact loadHierarchyTree_of_ok E hopen hclose hload
  | error e s =>
    rw [hload] at hstill
    cases e with
    | runtimeError what => exact loadHierarchyTree_of_runtimeError E hopen hclose hload
    | logicError what =>
      rw [loadHierarchyTree_of_error E hload nofun]
      exact .escapes ⟨_, _, hload, rfl⟩ rfl hstill rfl
    | exception what =>
      rw [loadHierarchyTree_of_error E hload nofun]
      exact .escapes ⟨_, _, hload, rfl⟩ rfl hstill rfl
    | nontermination =>
      rw [loadHierarchyTree_of_error E hload nofun]
      exact .dies (not_escapes_of_error hload rfl) rfl
    | nullDereference =>
      rw [loadHierarchyTree_of_error E hload nofun]
      exact .dies (not_escapes_of_error hload rfl) rfl
    | uninitializedPointer =>
      rw [loadHierarchyTree_of_error E hload nofun]
      exact .dies (not_escapes_of_error hload rfl) rfl

end

/-! ## `GetEntityHierarchyTree` -/

/-- The state in which the `ResourceLoader` loads: its own, or that of the database it opens. -/
def loadingState (p : Path) (s : SqliteState) : SqliteState :=
  if s.sqlite.isOpen then s else openedWithTable p s

/-- The `ResourceLoader` gets to loading: it is open already, or its `OpenDatabase` succeeds. -/
def GetsOpen (p : Path) (s : SqliteState) : Prop :=
  s.sqlite.isOpen = false → p ≠ [] ∧ nextFault s = none ∧ nextFault (takeFault s) = none

/-- The loading of the hierarchy ends in an exception that is not caught. -/
def TreeEscapes (registry : ResourceLoader.Registry) (p : Path) (s : SqliteState) : Prop :=
  LoadEscapes E (registered J registry) ENTITY_HIERARCHY_BLOB_KEY (loadingState p s)

theorem getEntityHierarchyTree_ends {w : LoaderWorld}
    (h : GetsOpen w.database.dbPath w.loaderState) :
    TreeEnd w.resourceLoader.isOpen w.database
      (TreeEscapes J E w.registry w.database.dbPath w.loaderState)
      ((getEntityHierarchyTree J E).run w) := by
  unfold getEntityHierarchyTree
  rw [bind_ok (EStateM.run_get w)]
  cases hopen : w.resourceLoader.isOpen with
  | true =>
    have hloading : loadingState w.database.dbPath w.loaderState = w.loaderState := by
      unfold loadingState
      exact if_pos hopen
    simp only [Bool.not_true, Bool.false_eq_true, if_false]
    rw [TreeEscapes, hloading]
    refine (register_run J _ w).symm ▸ ?_
    exact loadHierarchyTree_ends E (w := { w with registry := registered J w.registry }) hopen
      (fun h => nomatch h)
  | false =>
    obtain ⟨hp, hfault, hcreate⟩ := h hopen
    have hloading : loadingState w.database.dbPath w.loaderState =
        openedWithTable w.database.dbPath w.loaderState := by
      unfold loadingState
      exact if_neg (by rw [show w.loaderState.sqlite.isOpen = false from hopen]; decide)
    have hrun : (ResourceLoader.openDatabase E w.database.dbPath).run w.loaderState =
        .ok () (openedWithTable w.database.dbPath w.loaderState) :=
      openResourceDatabase_succeeds E hopen hp hfault hcreate _
    simp only [Bool.not_false, if_true]
    rw [bind_ok (onResourceLoader_returns hrun), TreeEscapes, hloading]
    refine (register_run J _ (w.withLoader _)).symm ▸ ?_
    exact loadHierarchyTree_ends E (w := { w.withLoader (openedWithTable w.database.dbPath
      w.loaderState) with registry := registered J w.registry }) rfl (fun _ => ⟨_, rfl⟩)

/-- The `ResourceLoader` cannot be opened. -/
theorem getEntityHierarchyTree_unopened {w : LoaderWorld}
    (hclosed : w.resourceLoader.isOpen = false) {e : Exception} {s : SqliteState}
    (h : (ResourceLoader.openDatabase E w.database.dbPath).run w.loaderState = .error e s) :
    (getEntityHierarchyTree J E).run w = .error e (w.withLoader s) := by
  unfold getEntityHierarchyTree
  rw [bind_ok (EStateM.run_get w)]
  simp only [hclosed, Bool.not_false, if_true]
  rw [bind_error (onResourceLoader_throws h)]

/-- The `ResourceLoader` does not get open, so that nothing is loaded. -/
theorem getEntityHierarchyTree_not_open {w : LoaderWorld} (hp : w.database.dbPath ≠ [])
    (h : ¬ GetsOpen w.database.dbPath w.loaderState) :
    w.resourceLoader.isOpen = false ∧ ∃ text w',
      (getEntityHierarchyTree J E).run w = .error (.runtimeError text) w' ∧
        w'.database = w.database ∧
        (w'.resourceLoader.isOpen = false ↔ nextFault w.loaderState = some outOfMemory) := by
  have hclosed : w.loaderState.sqlite.isOpen = false := by
    by_contra hopen
    exact h fun hclosed => absurd hclosed hopen
  refine ⟨hclosed, ?_⟩
  rcases openResourceDatabase_ends E "ResourceLoader already has a database set".toList
      w.database.dbPath hclosed with
    ⟨-, hopen, hcreate, -⟩ | ⟨hhandle, text, s, hsqlite, hrun⟩ | ⟨hnot, text, s, hsqlite, hrun⟩
  · exact absurd (fun _ => ⟨hp, hopen, hcreate⟩) h
  · refine ⟨text, _, getEntityHierarchyTree_unopened J E hclosed hrun, rfl, ?_⟩
    exact iff_of_true hsqlite (hhandle.resolve_left hp)
  · refine ⟨text, _, getEntityHierarchyTree_unopened J E hclosed hrun, rfl, ?_⟩
    refine iff_of_false (fun hfalse => ?_) fun hmemory => hnot (Or.inl (Or.inr hmemory))
    exact Bool.false_ne_true (hfalse.symm.trans hsqlite)

/-! ## `OpenDatabase` -/

/-- The world when the database of the `EntityLoader` has been opened. -/
def openedWorld (p : Path) (w : LoaderWorld) : LoaderWorld :=
  { w with disk := (takeFault w.loaderState).disk, database := ⟨some ⟨some p, 0⟩, p⟩ }

/-- After the `Open` of the `EntityLoader` the `ResourceLoader` gets open, and no exception leaves
the loading: there is a tree, or an end without an exception, as on the handle of a failed
`sqlite3_open`. -/
def HierarchyLoads (p : Path) (w : LoaderWorld) : Prop :=
  GetsOpen p (openedWorld p w).loaderState ∧
    ¬ TreeEscapes J E w.registry p (openedWorld p w).loaderState

/-- What the `Open` of the `EntityLoader` throws leaves its `OpenDatabase`. -/
theorem openDatabase_throws {p : Path} {w : LoaderWorld} (hclosed : w.database.isOpen = false)
    {e : Exception} {s : SqliteState}
    (hrun : (openPath p).run ⟨w.disk, w.database⟩ = .error e s) :
    (openDatabase J E p).run w = .error e { w with disk := s.disk, database := s.sqlite } := by
  unfold openDatabase
  rw [bind_ok (EStateM.run_get w)]
  simp only [hclosed, Bool.false_eq_true, if_false]
  exact bind_error (onDatabase_error hrun)

theorem openDatabase_fails {p : Path} {w : LoaderWorld} (hclosed : w.database.isOpen = false)
    (hp : p ≠ []) {what : Str} (h : nextFault w.loaderState = some what) :
    ∃ text, (openDatabase J E p).run w = .error (.runtimeError text)
      { w with disk := (takeFault w.loaderState).disk,
               database := { w.database with db := failedHandle what } } := by
  obtain ⟨text, hrun⟩ := @openPath_fails p hp ⟨w.disk, w.database⟩ what h
  exact ⟨text, openDatabase_throws J E hclosed hrun⟩

theorem openDatabase_empty {w : LoaderWorld} (hclosed : w.database.isOpen = false) :
    ∃ text, (openDatabase J E []).run w = .error (.runtimeError text) w := by
  obtain ⟨text, hrun⟩ := openPath_empty ⟨w.disk, w.database⟩
  exact ⟨text, openDatabase_throws J E hclosed hrun⟩

theorem openDatabase_of_open {p : Path} {w : LoaderWorld} (hopen : w.database.isOpen = true) :
    ∃ text, (openDatabase J E p).run w = .error (.runtimeError text) w := by
  refine ⟨"EntityLoader already has a database set".toList, ?_⟩
  unfold openDatabase
  rw [bind_ok (EStateM.run_get w)]
  simp only [hopen, if_true]
  rfl

/-- After its own `Open` the end is that of loading the hierarchy. -/
theorem openDatabase_opened {p : Path} {w : LoaderWorld} (hclosed : w.database.isOpen = false)
    (hp : p ≠ []) (h : nextFault w.loaderState = none) :
    (openDatabase J E p).run w =
      match (getEntityHierarchyTree J E).run (openedWorld p w) with
      | .ok tree w' => .ok ()
        { w' with hierarchy := { w'.hierarchy with serializationStructure := tree } }
      | .error e w' => .error e w' := by
  have hopen := @openPath_succeeds p hp ⟨w.disk, w.database⟩ h
  have hrun : (onDatabase (openPath p)).run w = .ok () (openedWorld p w) := onDatabase_ok hopen
  unfold openDatabase
  rw [bind_ok (EStateM.run_get w)]
  simp only [hclosed, Bool.false_eq_true, if_false]
  rw [bind_ok hrun, EStateM.run_bind]
  cases (getEntityHierarchyTree J E).run (openedWorld p w) <;> rfl

end EntityLoader

end Azulejo
