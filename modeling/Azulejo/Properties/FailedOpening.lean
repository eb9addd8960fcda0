import Azulejo.DatabaseAdapters.HierarchyFaults
import Azulejo.DatabaseAdapters.PlainEngine

/-!
# Opening a database that fails

`Open` stores the handle of a failed `sqlite3_open`, which is not null unless there was no memory,
and the adapters do more work after a successful `Open`. None of them closes the database when it
throws, so that it counts as open.
-/

namespace Azulejo

open Stateful Sqlite

/-- An adapter with a database: its `OpenDatabase`, and where its `Sqlite` is in the state. -/
structure DatabaseAdapter (σ : Type) where
  openDatabase : Path → EStateM Exception σ Unit
  sqlite : σ → Sqlite
  withSqlite : Sqlite → σ → σ

namespace DatabaseAdapter

variable {σ : Type} (a : DatabaseAdapter σ)

/-- The path can be opened: a new adapter would open it. -/
def GoodPath (q : Path) (t : σ) : Prop :=
  ∃ t', (a.openDatabase q).run (a.withSqlite Sqlite.new t) = .ok () t'

/-- If `OpenDatabase` throws on a closed adapter, the adapter is closed afterwards, and it opens
every good path later on, whatever has become of the rest. -/
def FailsClosed (p : Path) (s : σ) : Prop :=
  (a.sqlite s).isOpen = false → ∀ err s', (a.openDatabase p).run s = .error err s' →
    err.isStandard = true →
      (a.sqlite s').isOpen = false ∧
        ∀ q t, a.sqlite t = a.sqlite s' → a.GoodPath q t →
          ∃ t', (a.openDatabase q).run t = .ok () t'

/-- A closed adapter opens every good path. -/
def OpensClosed : Prop :=
  ∀ q t, (a.sqlite t).isOpen = false → a.GoodPath q t → ∃ t', (a.openDatabase q).run t = .ok () t'

variable {a} {p : Path} {s : σ}

theorem failsClosed_of_ok {s' : σ} (h : (a.openDatabase p).run s = .ok () s') :
    a.FailsClosed p s := by
  intro _ err s'' hrun
  rw [h] at hrun
  cases hrun

theorem failsClosed_of_not_standard {s' : σ} {err : Exception}
    (h : (a.openDatabase p).run s = .error err s') (herr : err.isStandard = false) :
    a.FailsClosed p s := by
  intro _ err' s'' hrun hstandard
  rw [h] at hrun
  cases hrun
  rw [herr] at hstandard
  cases hstandard

theorem failsClosed_iff_imp {P : Prop}
    (h : (a.sqlite s).isOpen = false → (a.FailsClosed p s ↔ P)) :
    a.FailsClosed p s ↔ ((a.sqlite s).isOpen = false → P) :=
  ⟨fun hfails hclosed => (h hclosed).mp hfails,
    fun hP hclosed => (h hclosed).mpr (hP hclosed) hclosed⟩

/-- What is asked for after an exception comes down to the adapter being closed. -/
theorem failsClosed_iff_of_error (hopens : a.OpensClosed) (hclosed : (a.sqlite s).isOpen = false)
    {s' : σ} {err : Exception} (h : (a.openDatabase p).run s = .error err s')
    (herr : err.isStandard = true) : a.FailsClosed p s ↔ (a.sqlite s').isOpen = false := by
  constructor
  · intro hfails
    exact (hfails hclosed err s' h herr).1
  · intro hclosed' _ err' s'' hrun _
    rw [h] at hrun
    cases hrun
    refine ⟨hclosed', fun q t hsame hgood => ?_⟩
    rw [← hsame] at hclosed'
    exact hopens q t hclosed' hgood

end DatabaseAdapter

open DatabaseAdapter

variable (J : Json) (E : SqliteEngine)

def ResourcePersister.adapter : DatabaseAdapter SqliteState :=
  ⟨ResourcePersister.openDatabase E, SqliteState.sqlite, fun db s => { s with sqlite := db }⟩

def ResourceLoader.adapter : DatabaseAdapter SqliteState :=
  ⟨ResourceLoader.openDatabase E, SqliteState.sqlite, fun db s => { s with sqlite := db }⟩

def EntityPersister.adapter : DatabaseAdapter PersisterWorld :=
  ⟨EntityPersister.openDatabase, PersisterWorld.database, fun db w => { w with database := db }⟩

def EntityLoader.adapter : DatabaseAdapter LoaderWorld :=
  ⟨EntityLoader.openDatabase J E, LoaderWorld.database, fun db w => { w with database := db }⟩

/-! ## The resource adapters -/

/-- A resource adapter with its own text for a database that is open. -/
def resourceAdapter (alreadyOpen : Str) : DatabaseAdapter SqliteState :=
  ⟨openResourceDatabase E alreadyOpen, SqliteState.sqlite, fun db s => { s with sqlite := db }⟩

theorem opensClosed_resourceAdapter (alreadyOpen : Str) :
    (resourceAdapter E alreadyOpen).OpensClosed := by
  rintro q t hclosed ⟨t', hnew⟩
  rcases openResourceDatabase_ends E alreadyOpen q
      (s := { t with sqlite := Sqlite.new }) rfl with
    ⟨hq, hopen, hcreate, -⟩ | ⟨-, text, s', -, hrun⟩ | ⟨-, text, s', -, hrun⟩
  · exact ⟨_, openResourceDatabase_succeeds E hclosed hq hopen hcreate alreadyOpen⟩
  · cases hrun.symm.trans hnew
  · cases hrun.symm.trans hnew

theorem failsClosed_resourceAdapter (alreadyOpen : Str) (p : Path) {s : SqliteState}
    (hclosed : s.sqlite.isOpen = false) :
    (resourceAdapter E alreadyOpen).FailsClosed p s ↔ OpensOrStoresNoHandle p s := by
  rcases openResourceDatabase_ends E alreadyOpen p hclosed with
    ⟨-, hopen, hcreate, hrun⟩ | ⟨hhandle, text, s', hsqlite, hrun⟩ | ⟨hnot, text, s', hsqlite, hrun⟩
  · exact iff_of_true (failsClosed_of_ok hrun) (Or.inr ⟨hopen, hcreate⟩)
  · rw [failsClosed_iff_of_error (opensClosed_resourceAdapter E alreadyOpen) hclosed hrun rfl]
    exact iff_of_true hsqlite (Or.inl hhandle)
  · rw [failsClosed_iff_of_error (opensClosed_resourceAdapter E alreadyOpen) hclosed hrun rfl]
    exact iff_of_false (fun hfalse => Bool.false_ne_true (hfalse.symm.trans hsqlite)) hnot

/-! ## The entity adapters -/

/-- `OpenDatabase` of a closed `EntityPersister` is its `Open`. -/
theorem EntityPersister.openDatabase_closed {p : Path} {w : PersisterWorld}
    (hclosed : w.database.isOpen = false) :
    (EntityPersister.adapter.openDatabase p).run w =
      match (openPath p).run ⟨w.disk, w.database⟩ with
      | .ok () s => .ok () { w with disk := s.disk, database := s.sqlite }
      | .error e s => .error e { w with disk := s.disk, database := s.sqlite } := by
  unfold EntityPersister.adapter EntityPersister.openDatabase
  simp only
  rw [bind_ok (EStateM.run_get w)]
  simp only [hclosed, Bool.false_eq_true, if_false]
  unfold EntityPersister.onDatabase
  rw [zoom_run]
  cases (openPath p).run ⟨w.disk, w.database⟩ <;> rfl

theorem opensClosed_entityPersister : EntityPersister.adapter.OpensClosed := by
  rintro q t hclosed ⟨t', hnew⟩
  rw [EntityPersister.openDatabase_closed rfl] at hnew
  rw [EntityPersister.openDatabase_closed hclosed]
  have hopen : ∃ s, (openPath q).run ⟨t.disk, Sqlite.new⟩ = .ok () s := by
    split at hnew
    · exact ⟨_, ‹_›⟩
    · cases hnew
  obtain ⟨hq, hfault⟩ := openPath_returns_iff.mp hopen
  have hfault' : nextFault ⟨t.disk, t.database⟩ = none := hfault
  rw [openPath_succeeds hq hfault']
  exact ⟨_, rfl⟩

theorem failsClosed_entityPersister (p : Path) {w : PersisterWorld}
    (hclosed : w.database.isOpen = false) :
    EntityPersister.adapter.FailsClosed p w ↔
      StoresNoHandle p ⟨w.disk, w.database⟩ ∨ nextFault ⟨w.disk, w.database⟩ = none := by
  have hends := @EntityPersister.openDatabase_closed p w hclosed
  by_cases hp : p = []
  · subst hp
    obtain ⟨text, hopen⟩ := openPath_empty ⟨w.disk, w.database⟩
    rw [hopen] at hends
    rw [failsClosed_iff_of_error opensClosed_entityPersister hclosed hends rfl]
    exact iff_of_true hclosed (Or.inl (Or.inl rfl))
  cases hfault : nextFault ⟨w.disk, w.database⟩ with
  | none =>
    rw [openPath_succeeds hp hfault] at hends
    exact iff_of_true (failsClosed_of_ok hends) (Or.inr rfl)
  | some what =>
    obtain ⟨text, hopen⟩ := openPath_fails hp hfault
    rw [hopen] at hends
    rw [failsClosed_iff_of_error opensClosed_entityPersister hclosed hends rfl]
    refine isOpen_failedHandle.trans ?_
    simp [StoresNoHandle, hp, hfault]

/-- How `OpenDatabase` of a closed `EntityLoader` ends after its `Open`. The database stays open. -/
theorem EntityLoader.openDatabase_ends {p : Path} {w : LoaderWorld}
    (hclosed : w.database.isOpen = false) (hp : p ≠ []) (hfault : nextFault w.loaderState = none) :
    (EntityLoader.HierarchyLoads J E p w ∧
        ((∃ w', (EntityLoader.openDatabase J E p).run w = .ok () w') ∨
          ∃ e w', (EntityLoader.openDatabase J E p).run w = .error e w' ∧ e.isStandard = false)) ∨
      (¬ EntityLoader.HierarchyLoads J E p w ∧
        ∃ e w', (EntityLoader.openDatabase J E p).run w = .error e w' ∧ e.isStandard = true ∧
          w'.database.isOpen = true) := by
  rw [EntityLoader.openDatabase_opened J E hclosed hp hfault]
  by_cases hgets : EntityLoader.GetsOpen p (EntityLoader.openedWorld p w).loaderState
  · have hend := @EntityLoader.getEntityHierarchyTree_ends J E (EntityLoader.openedWorld p w) hgets
    generalize (EntityLoader.getEntityHierarchyTree J E).run (EntityLoader.openedWorld p w) = r
      at hend
    cases hend with
    | escapes hescapes he hopen hdatabase =>
      refine Or.inr ⟨fun h => h.2 hescapes, _, _, rfl, Exception.isStandard_of_escapes he, ?_⟩
      rw [hdatabase]
      rfl
    | returns hnot hopen hdatabase =>
      exact Or.inl ⟨⟨hgets, hnot⟩, Or.inl ⟨_, rfl⟩⟩
    | dies hnot he =>
      exact Or.inl ⟨⟨hgets, hnot⟩, Or.inr ⟨_, _, rfl, he⟩⟩
  · obtain ⟨-, text, w', hrun, hdatabase, -⟩ :=
      @EntityLoader.getEntityHierarchyTree_not_open J E (EntityLoader.openedWorld p w) hp hgets
    rw [hrun]
    refine Or.inr ⟨fun h => hgets h.1, _, _, rfl, rfl, ?_⟩
    rw [hdatabase]
    rfl

theorem opensClosed_entityLoader : (EntityLoader.adapter J E).OpensClosed := by
  rintro q t hclosed ⟨t', hnew⟩
  change (EntityLoader.openDatabase J E q).run { t with database := Sqlite.new } = .ok () t' at hnew
  by_cases hq : q = []
  · subst hq
    obtain ⟨text, hrun⟩ := @EntityLoader.openDatabase_empty J E { t with database := Sqlite.new }
      rfl
    cases hrun.symm.trans hnew
  cases hfault : nextFault t.loaderState with
  | some what =>
    obtain ⟨text, hrun⟩ := @EntityLoader.openDatabase_fails J E q { t with database := Sqlite.new }
      rfl hq what hfault
    cases hrun.symm.trans hnew
  | none =>
    -- both go on with the database that `Open` makes
    have hrun := @EntityLoader.openDatabase_opened J E q { t with database := Sqlite.new } rfl hq
      hfault
    refine ⟨t', (EntityLoader.openDatabase_opened J E hclosed hq hfault).trans ?_⟩
    exact hrun.symm.trans hnew

theorem failsClosed_entityLoader (p : Path) {w : LoaderWorld}
    (hclosed : w.database.isOpen = false) :
    (EntityLoader.adapter J E).FailsClosed p w ↔
      StoresNoHandle p w.loaderState ∨
        (nextFault w.loaderState = none ∧ EntityLoader.HierarchyLoads J E p w) := by
  by_cases hp : p = []
  · subst hp
    obtain ⟨text, hrun⟩ := @EntityLoader.openDatabase_empty J E w hclosed
    rw [failsClosed_iff_of_error (opensClosed_entityLoader J E) hclosed hrun rfl]
    exact iff_of_true hclosed (Or.inl (Or.inl rfl))
  cases hfault : nextFault w.loaderState with
  | some what =>
    obtain ⟨text, hrun⟩ := @EntityLoader.openDatabase_fails J E p w hclosed hp what hfault
    rw [failsClosed_iff_of_error (opensClosed_entityLoader J E) hclosed hrun rfl]
    refine isOpen_failedHandle.trans ?_
    simp [StoresNoHandle, hp, hfault]
  | none =>
    have hhandle : ¬ StoresNoHandle p w.loaderState := by
      simp [StoresNoHandle, hp, hfault]
    rcases EntityLoader.openDatabase_ends J E hclosed hp hfault with
      ⟨hloads, ⟨w', hrun⟩ | ⟨e, w', hrun, he⟩⟩ | ⟨hnot, e, w', hrun, he, hopen⟩
    · exact iff_of_true (failsClosed_of_ok hrun) (Or.inr ⟨rfl, hloads⟩)
    · exact iff_of_true (failsClosed_of_not_standard hrun he) (Or.inr ⟨rfl, hloads⟩)
    · rw [failsClosed_iff_of_error (opensClosed_entityLoader J E) hclosed hrun he]
      refine iff_of_false (fun hfalse => Bool.false_ne_true (hfalse.symm.trans hopen)) ?_
      rintro (h | ⟨-, hloads⟩)
      · exact hhandle h
      · exact hnot hloads

/-! ## All four -/

/-- **When a failed `OpenDatabase` leaves the adapter closed.** For every path, from every state and
with every answer of the library. An open adapter aside, each of the four either stores no handle,
because there is no path or no memory for one, or has nothing fail after its `Open`: the table
of a resource adapter is created, and an `EntityLoader` gets to the end of loading the hierarchy. An
undefined end, as on the handle of a `ResourceLoader` whose own opening failed, is no throw. -/
theorem failsClosed_iff (p : Path) :
    (∀ s, (ResourcePersister.adapter E).FailsClosed p s ↔
      (s.sqlite.isOpen = false → OpensOrStoresNoHandle p s)) ∧
    (∀ s, (ResourceLoader.adapter E).FailsClosed p s ↔
      (s.sqlite.isOpen = false → OpensOrStoresNoHandle p s)) ∧
    (∀ w, EntityPersister.adapter.FailsClosed p w ↔
      (w.database.isOpen = false → StoresNoHandle p ⟨w.disk, w.database⟩ ∨
        nextFault ⟨w.disk, w.database⟩ = none)) ∧
    (∀ w, (EntityLoader.adapter J E).FailsClosed p w ↔
      (w.database.isOpen = false → StoresNoHandle p w.loaderState ∨
        (nextFault w.loaderState = none ∧ EntityLoader.HierarchyLoads J E p w))) := by
  refine ⟨fun s => ?_, fun s => ?_, fun w => ?_, fun w => ?_⟩
  · exact failsClosed_iff_imp fun hclosed => failsClosed_resourceAdapter E _ p hclosed
  · exact failsClosed_iff_imp fun hclosed => failsClosed_resourceAdapter E _ p hclosed
  · exact failsClosed_iff_imp fun hclosed => failsClosed_entityPersister p hclosed
  · exact failsClosed_iff_imp fun hclosed => failsClosed_entityLoader J E p hclosed

/-- The path is that of a directory, which `sqlite3_open` cannot open as a file. -/
theorem failed_opening_leaves_open :
    ¬ (ResourcePersister.adapter plainEngine).FailsClosed ['d']
        ⟨⟨fun _ => none, [some "unable to open database file".toList]⟩, Sqlite.new⟩ ∧
      ¬ (ResourceLoader.adapter plainEngine).FailsClosed ['d']
        ⟨⟨fun _ => none, [some "unable to open database file".toList]⟩, Sqlite.new⟩ ∧
      ¬ EntityPersister.adapter.FailsClosed ['d']
        ⟨⟨fun _ => none, [some "unable to open database file".toList]⟩, Sqlite.new, Sqlite.new⟩ ∧
      ¬ (EntityLoader.adapter (Json.ofText LTree.empty []) plainEngine).FailsClosed ['d']
        ⟨⟨fun _ => none, [some "unable to open database file".toList]⟩, Sqlite.new, fun _ => none,
          Sqlite.new, EntityHierarchy.new⟩ := by
  refine ⟨fun h => ?_, fun h => ?_, fun h => ?_, fun h => ?_⟩
  · exact absurd (h rfl _ _ rfl rfl).1 (by decide)
  · exact absurd (h rfl _ _ rfl rfl).1 (by decide)
  · exact absurd (h rfl _ _ rfl rfl).1 (by decide)
  · exact absurd (h rfl _ _ rfl rfl).1 (by decide)

end Azulejo
