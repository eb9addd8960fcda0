import Azulejo.DatabaseAdapters.HierarchyFaults
import Azulejo.Properties.HierarchySessions
import Azulejo.Properties.RetriedSave

/-!
# The resource adapters after the entity adapters have used them

`EntityPersister` and `EntityLoader` open a resource adapter that is closed and close it again, but
not on the way of an exception: saving has no handler at all, and loading one for
`std::runtime_error`.
-/

namespace Azulejo

open Stateful Sqlite SqliteBlob

/-- When the program returns, or throws a standard exception, the adapter is open if and only if it
was before. -/
def Restores {σ α : Type} (adapter : σ → Sqlite) (x : EStateM Exception σ α) (s : σ) : Prop :=
  match x.run s with
  | .ok _ s' => (adapter s').isOpen = (adapter s).isOpen
  | .error e s' => e.isStandard = true → (adapter s').isOpen = (adapter s).isOpen

section

variable {σ α : Type} {adapter : σ → Sqlite} {x : EStateM Exception σ α} {s s' : σ}

theorem restores_of_ok {a : α} (h : x.run s = .ok a s') :
    Restores adapter x s ↔ (adapter s').isOpen = (adapter s).isOpen := by
  unfold Restores
  rw [h]

theorem restores_of_error {e : Exception} (h : x.run s = .error e s') (he : e.isStandard = true) :
    Restores adapter x s ↔ (adapter s').isOpen = (adapter s).isOpen := by
  unfold Restores
  rw [h]
  exact ⟨fun hrestores => hrestores he, fun hsame _ => hsame⟩

theorem restores_of_not_standard {e : Exception} (h : x.run s = .error e s')
    (he : e.isStandard = false) : Restores adapter x s := by
  unfold Restores
  rw [h]
  intro hstandard
  rw [he] at hstandard
  cases hstandard

end

variable {T D : Type} (P : PtreePaths) (A : Adapter T D Unit) (J : Json) (E : SqliteEngine)
  (crc : List UInt8 → UInt32)

/-! ## Persisting a blob -/

namespace EntityPersister

/-- What the `ResourcePersister` works on. -/
def persisterState (w : PersisterWorld) : SqliteState := ⟨w.disk, w.resourcePersister⟩

/-- The blob of a hierarchy is persisted by an open `ResourcePersister`, or it is not and the
`ResourcePersister` is still open. -/
theorem persistBlob_ends (blob : IResource) {w : PersisterWorld}
    (hopen : w.resourcePersister.isOpen = true) :
    (PersistSafe crc E ENTITY_HIERARCHY_BLOB_KEY ⟨persisterState w, blob⟩ ∧
        ∃ w', (persistBlob E crc blob).run w = .ok () w' ∧
          w'.resourcePersister = w.resourcePersister) ∨
      (¬ PersistSafe crc E ENTITY_HIERARCHY_BLOB_KEY ⟨persisterState w, blob⟩ ∧
        ∃ e w', (persistBlob E crc blob).run w = .error e w' ∧ e.isStandard = true ∧
          w'.resourcePersister.isOpen = true) := by
  by_cases hsame : blob.checksum crc = blob.checkSum
  · refine Or.inl ⟨fun h => absurd hsame h.changed, _, persistBlob_ok E crc
      (persist_unchanged E crc hierarchyKey_ne_nil hsame ⟨w.disk, w.resourcePersister⟩), rfl⟩
  have hattempts : Attempts crc ENTITY_HIERARCHY_BLOB_KEY blob := ⟨hierarchyKey_ne_nil, hsame⟩
  have hpersist := @persist_open E crc ENTITY_HIERARCHY_BLOB_KEY hierarchyKey_ne_nil
    ⟨persisterState w, blob⟩ hsame hopen
  have hends := insertBlob_ends E (Sql.insertRow ENTITY_HIERARCHY_BLOB_KEY blob.M blob.N
    blob.elementSize) blob.data blob.size (persisterState w)
  cases hrun : (insertBlob E (Sql.insertRow ENTITY_HIERARCHY_BLOB_KEY blob.M blob.N
      blob.elementSize) blob.data blob.size).run (persisterState w) with
  | ok u s =>
    rw [hrun] at hends
    cases hends with
    | inserted hinserts _ _ =>
      exact Or.inl ⟨fun _ => hinserts, _, persistBlob_ok E crc (hpersist.trans (zoom_ok hrun)),
        sqlite_inserted E _ _ _⟩
  | error e s =>
    have hrunBlob := persistBlob_error E crc (hpersist.trans (zoom_error hrun))
    rw [hrun] at hends
    cases hends with
    | refused hnot hsame =>
      refine Or.inr ⟨fun hsafe => hnot (hsafe hattempts).prepares, _, _, hrunBlob, rfl, ?_⟩
      rw [← hopen]
      exact congrArg Sqlite.isOpen hsame
    | failed _ hnot hsqlite =>
      refine Or.inr ⟨fun hsafe => hnot (hsafe hattempts), _, _, hrunBlob, rfl, ?_⟩
      rw [← hopen]
      exact (congrArg Sqlite.isOpen hsqlite).trans (isOpen_addStatements _ _)

/-! ## `SendEntityHierarchyTreeToDatabase` -/

/-- A closed `ResourcePersister` does not stay open after the sending: it stores no handle, or its
database is opened and the blob of the hierarchy persisted. -/
def SendsOrStoresNoHandle (p : Path) (tree : Ptree) (text : List UInt8) (s : SqliteState) : Prop :=
  StoresNoHandle p s ∨ (nextFault s = none ∧ nextFault (takeFault s) = none ∧
    PersistSafe crc E ENTITY_HIERARCHY_BLOB_KEY ⟨openedWithTable p s, hierarchyBlob tree text⟩)

theorem send_eq {tree : Ptree} {text : List UInt8} (hwrite : J.write tree = .ok text)
    (w : PersisterWorld) :
    (sendEntityHierarchyTreeToDatabase J E crc tree).run w =
      (if !w.resourcePersister.isOpen then do
        onResourcePersister (ResourcePersister.openDatabase E w.database.dbPath)
        persistBlob E crc (hierarchyBlob tree text)
        onResourcePersister closeDatabase
      else persistBlob E crc (hierarchyBlob tree text)).run w := by
  unfold sendEntityHierarchyTreeToDatabase
  rw [bind_ok (lift_ok (ofTree_eq J hwrite) _), bind_ok (EStateM.run_get _)]

theorem restores_send_closed {tree : Ptree} {text : List UInt8} (hwrite : J.write tree = .ok text)
    {w : PersisterWorld} (hclosed : w.resourcePersister.isOpen = false) :
    Restores PersisterWorld.resourcePersister (sendEntityHierarchyTreeToDatabase J E crc tree) w ↔
      SendsOrStoresNoHandle E crc w.database.dbPath tree text (persisterState w) := by
  have hsend := send_eq J E crc hwrite w
  simp only [hclosed, Bool.not_false, if_true] at hsend
  rcases openResourceDatabase_ends E "ResourcePersister already has a database open".toList
      w.database.dbPath (s := persisterState w) hclosed with
    ⟨hp, hfault, hcreate, hrun⟩ | ⟨hhandle, what, s, hsqlite, hrun⟩ |
    ⟨hnot, what, s, hsqlite, hrun⟩
  · -- the database is opened: it is closed again if the blob is persisted
    have hopened := hsend.trans (bind_ok (onResourcePersister_ok hrun))
    have hhandle : ¬ StoresNoHandle w.database.dbPath (persisterState w) := by
      simp [StoresNoHandle, hp, hfault]
    have hblob := @persistBlob_ends E crc (hierarchyBlob tree text)
      ⟨(openedWithTable w.database.dbPath (persisterState w)).disk,
        ⟨some ⟨some w.database.dbPath, 0⟩, w.database.dbPath⟩, w.database⟩ rfl
    rcases hblob with
      ⟨hsafe, w', hpersist, hsame⟩ | ⟨hnot, e, w', hpersist, he, hopen⟩
    · have hclose : closeDatabase.run (persisterState w') =
          .ok () ⟨w'.disk, ⟨none, w.database.dbPath⟩⟩ := by
        rw [persisterState, hsame]
        exact closeDatabase_opened _ _
      have hend := hopened.trans ((bind_ok hpersist).trans (onResourcePersister_ok hclose))
      rw [restores_of_ok hend, hclosed]
      exact iff_of_true rfl (Or.inr ⟨hfault, hcreate, hsafe⟩)
    · rw [restores_of_error (hopened.trans (bind_error hpersist)) he, hclosed, hopen]
      refine iff_of_false (by decide) ?_
      rintro (h | ⟨-, -, hsafe⟩)
      · exact hhandle h
      · exact hnot hsafe
  · rw [restores_of_error (hsend.trans (bind_error (onResourcePersister_error hrun))) rfl, hclosed]
    exact iff_of_true hsqlite (Or.inl hhandle)
  · rw [restores_of_error (hsend.trans (bind_error (onResourcePersister_error hrun))) rfl, hclosed]
    refine iff_of_false (fun hfalse => Bool.false_ne_true (hfalse.symm.trans hsqlite)) ?_
    rintro (hhandle | ⟨hfault, hcreate, -⟩)
    · exact hnot (Or.inl hhandle)
    · exact hnot (Or.inr ⟨hfault, hcreate⟩)

theorem restores_send_iff (tree : Ptree) (w : PersisterWorld) :
    Restores PersisterWorld.resourcePersister (sendEntityHierarchyTreeToDatabase J E crc tree) w ↔
      (w.resourcePersister.isOpen = false → ∀ text, J.write tree = .ok text →
        SendsOrStoresNoHandle E crc w.database.dbPath tree text (persisterState w)) := by
  cases hwrite : J.write tree with
  | error what =>
    have htree : EntityHierarchyBlob.ofTree J tree = .error (.runtimeError
        ("Could not create EntityHierarchyBlob from ptree: ".toList ++ what)) := by
      unfold EntityHierarchyBlob.ofTree
      rw [hwrite]
      rfl
    have hrun : (sendEntityHierarchyTreeToDatabase J E crc tree).run w = .error _ w :=
      bind_error (lift_error htree w)
    rw [restores_of_error hrun rfl]
    exact iff_of_true rfl (fun _ text htext => nomatch htext)
  | ok text =>
    cases hopen : w.resourcePersister.isOpen with
    | true =>
      have hsend := send_eq J E crc hwrite w
      simp only [hopen, Bool.not_true, Bool.false_eq_true, if_false] at hsend
      refine iff_of_true ?_ nofun
      rcases persistBlob_ends E crc (hierarchyBlob tree text) hopen with
        ⟨-, w', hrun, hsame⟩ | ⟨-, e, w', hrun, he, hopen'⟩
      · rw [restores_of_ok (hsend.trans hrun), hsame]
      · rw [restores_of_error (hsend.trans hrun) he, hopen', hopen]
    | false =>
      rw [restores_send_closed J E crc hwrite hopen]
      constructor
      · rintro h - text' ⟨⟩
        exact h
      · exact fun h => h rfl text rfl

/-! ## `Persist` -/

/-- `Persist` gets to the sending of the hierarchy: the database is open, and the traversal of the
entity has made the hierarchy `tree`. -/
structure Traverses (entity : Entity T D) (s : SaveState PersisterWorld) (tree : Ptree) : Prop where
  opened : s.world.database.isOpen = true
  traversed : ∃ calls s', (saveWithParentKey P A (fun _ _ => ()) (pure ()) entity []).run s =
    .ok calls s' ∧ s'.tree = tree

/-- `Persist` that does not get to the sending leaves the databases alone. -/
theorem restores_persist_of_not_traverses {entity : Entity T D} {s : SaveState PersisterWorld}
    (h : ∀ tree, ¬ Traverses P A entity s tree) :
    Restores (fun s => s.world.resourcePersister) (persist P A J E crc entity) s := by
  have restores_of_world : ∀ {e s'}, (persist P A J E crc entity).run s = .error e s' →
      s'.world = s.world → Restores (fun s => s.world.resourcePersister)
        (persist P A J E crc entity) s := by
    intro e s' hrun hworld
    unfold Restores
    rw [hrun]
    exact fun _ => congrArg (fun w => w.resourcePersister.isOpen) hworld
  cases hopen : s.world.database.isOpen with
  | false =>
    have hrun : (persist P A J E crc entity).run s = .error (.runtimeError
        "Cannot persist entity because the database is not open".toList) s := by
      unfold persist
      rw [bind_ok (EStateM.run_get s)]
      simp only [hopen, Bool.not_false, if_true]
      rfl
    exact restores_of_world hrun rfl
  | true =>
    by_cases hkey : entity.key = []
    · have hrun : (persist P A J E crc entity).run s = .error Entity.keyNotSet s := by
        unfold persist
        rw [bind_ok (EStateM.run_get s)]
        simp only [hopen, Bool.not_true, Bool.false_eq_true, if_false, if_pos hkey]
        rfl
      exact restores_of_world hrun rfl
    cases htraversal : (saveWithParentKey P A (fun _ _ => ()) (pure ()) entity []).run s with
    | ok calls s' => exact absurd ⟨hopen, calls, s', htraversal, rfl⟩ (h s'.tree)
    | error e s' =>
      have hkeeps := keeps_world_traversal P A entity s
      rw [htraversal] at hkeeps
      have hrun := persist_opened J E crc hopen hkey (P := P) (A := A)
      rw [bind_error htraversal] at hrun
      exact restores_of_world hrun hkeeps

/-- What the sending does is what `Persist` does after the traversal. -/
theorem restores_persist_of_traversal {entity : Entity T D} {s s' : SaveState PersisterWorld}
    {calls : LTree Key (SaveCall Unit)} (hopen : s.world.database.isOpen = true)
    (h : (saveWithParentKey P A (fun _ _ => ()) (pure ()) entity []).run s = .ok calls s') :
    Restores (fun s => s.world.resourcePersister) (persist P A J E crc entity) s ↔
      Restores PersisterWorld.resourcePersister
        (sendEntityHierarchyTreeToDatabase J E crc s'.tree) s.world := by
  cases hsend : (sendEntityHierarchyTreeToDatabase J E crc s'.tree).run s.world with
  | ok u w =>
    rw [restores_of_ok (persist_of_traversal J E crc hopen h hsend), restores_of_ok hsend]
  | error e w =>
    have hpersist := persist_of_traversal_error J E crc hopen h hsend
    cases he : e.isStandard with
    | true => rw [restores_of_error hpersist he, restores_of_error hsend he]
    | false =>
      exact iff_of_true (restores_of_not_standard hpersist he) (restores_of_not_standard hsend he)

theorem restores_persist_iff (entity : Entity T D) (s : SaveState PersisterWorld) :
    Restores (fun s => s.world.resourcePersister) (persist P A J E crc entity) s ↔
      (s.world.resourcePersister.isOpen = false →
        ∀ tree text, Traverses P A entity s tree → J.write tree = .ok text →
          SendsOrStoresNoHandle E crc s.world.database.dbPath tree text
            (persisterState s.world)) := by
  by_cases h : ∃ tree, Traverses P A entity s tree
  · obtain ⟨tree, hopen, calls, s', htraversal, rfl⟩ := h
    have honly : ∀ tree, Traverses P A entity s tree → tree = s'.tree := by
      rintro tree ⟨-, calls', s'', htraversal', rfl⟩
      rw [htraversal] at htraversal'
      cases htraversal'
      rfl
    rw [restores_persist_of_traversal P A J E crc hopen htraversal, restores_send_iff]
    constructor
    · rintro hsends hclosed tree text htraverses hwrite
      obtain rfl := honly tree htraverses
      exact hsends hclosed text hwrite
    · exact fun hsends hclosed text hwrite =>
        hsends hclosed s'.tree text ⟨hopen, calls, s', htraversal, rfl⟩ hwrite
  · have hnone : ∀ tree, ¬ Traverses P A entity s tree := fun tree ht => h ⟨tree, ht⟩
    refine iff_of_true (restores_persist_of_not_traverses P A J E crc hnone) ?_
    exact fun _ tree text htraverses => absurd htraverses (hnone tree)

end EntityPersister

/-! ## `OpenDatabase` of the `EntityLoader` -/

namespace EntityLoader

/-- The `EntityLoader` has opened its own database and goes on to load the hierarchy. -/
theorem restores_openDatabase_opened {p : Path} {w : LoaderWorld} (hp : p ≠ [])
    (hdatabase : w.database.isOpen = false) (hfault : nextFault w.loaderState = none) :
    Restores LoaderWorld.resourceLoader (openDatabase J E p) w ↔
      (w.resourceLoader.isOpen = false →
        nextFault (openedWorld p w).loaderState = some outOfMemory ∨ HierarchyLoads J E p w) := by
  have hrun := openDatabase_opened J E hdatabase hp hfault
  by_cases hgets : GetsOpen p (openedWorld p w).loaderState
  · have hend := @getEntityHierarchyTree_ends J E (openedWorld p w) hgets
    generalize (getEntityHierarchyTree J E).run (openedWorld p w) = r at hend hrun
    cases hend with
    | escapes hescapes he hopen hdatabase' =>
      rw [restores_of_error hrun (Exception.isStandard_of_escapes he), hopen]
      constructor
      · intro hopen' hclosed
        rw [hclosed] at hopen'
        cases hopen'
      · intro h
        by_contra hnot
        have hclosed : w.resourceLoader.isOpen = false := by
          rw [← Bool.not_eq_true]
          exact fun hopen' => hnot hopen'.symm
        rcases h hclosed with hmemory | hloads
        · cases hmemory.symm.trans (hgets hclosed).2.1
        · exact hloads.2 hescapes
    | returns hnot hopen hdatabase' =>
      rw [restores_of_ok hrun]
      exact iff_of_true hopen fun _ => Or.inr ⟨hgets, hnot⟩
    | dies hnot he =>
      exact iff_of_true (restores_of_not_standard hrun he) fun _ => Or.inr ⟨hgets, hnot⟩
  · obtain ⟨hclosed, text, w', hthrows, -, hmemory⟩ :=
      @getEntityHierarchyTree_not_open J E (openedWorld p w) hp hgets
    rw [hthrows] at hrun
    rw [restores_of_error hrun rfl]
    have hsame : (openedWorld p w).resourceLoader = w.resourceLoader := rfl
    rw [hsame] at hclosed
    rw [hclosed, hmemory]
    constructor
    · exact fun h _ => Or.inl h
    · exact fun h => (h rfl).resolve_right fun hloads => hgets hloads.1

/-- `OpenDatabase` gets to loading the hierarchy with a `ResourceLoader` that is closed. -/
structure LoadsClosed (p : Path) (w : LoaderWorld) : Prop where
  loader : w.resourceLoader.isOpen = false
  database : w.database.isOpen = false
  path : p ≠ []
  opened : nextFault w.loaderState = none

theorem restores_openDatabase_iff (p : Path) (w : LoaderWorld) :
    Restores LoaderWorld.resourceLoader (openDatabase J E p) w ↔
      (LoadsClosed p w →
        nextFault (openedWorld p w).loaderState = some outOfMemory ∨ HierarchyLoads J E p w) := by
  cases hdatabase : w.database.isOpen with
  | true =>
    obtain ⟨text, hrun⟩ := @openDatabase_of_open J E p w hdatabase
    rw [restores_of_error hrun rfl]
    exact iff_of_true rfl fun h => absurd h.database (by rw [hdatabase]; decide)
  | false =>
    by_cases hp : p = []
    · subst hp
      obtain ⟨text, hrun⟩ := @openDatabase_empty J E w hdatabase
      rw [restores_of_error hrun rfl]
      exact iff_of_true rfl fun h => absurd rfl h.path
    cases hfault : nextFault w.loaderState with
    | some what =>
      obtain ⟨text, hrun⟩ := @openDatabase_fails J E p w hdatabase hp what hfault
      rw [restores_of_error hrun rfl]
      exact iff_of_true rfl fun h => nomatch hfault.symm.trans h.opened
    | none =>
      rw [restores_openDatabase_opened J E hp hdatabase hfault]
      constructor
      · exact fun h hloads => h hloads.loader
      · exact fun h hclosed => h ⟨hclosed, hdatabase, hp, hfault⟩

end EntityLoader

/-- **When the resource adapters are restored.** For every entity and path, from every state and
with every answer of the library. `Persist` and `OpenDatabase` leave a resource adapter that was
open open. One that was closed is closed afterwards when there is nothing to send or load, when no
handle was stored for it, or when what it was opened for came to its end: the blob of the hierarchy
was persisted, and no exception but `std::runtime_error` came from the loading. Nothing is said of an
undefined end, such as a statement on the handle of a failed opening. -/
theorem adapters_restored_iff :
    (∀ (entity : Entity T D) (s : SaveState PersisterWorld),
      Restores (fun s => s.world.resourcePersister) (EntityPersister.persist P A J E crc entity) s ↔
        (s.world.resourcePersister.isOpen = false →
          ∀ tree text, EntityPersister.Traverses P A entity s tree → J.write tree = .ok text →
            EntityPersister.SendsOrStoresNoHandle E crc s.world.database.dbPath tree text
              (EntityPersister.persisterState s.world))) ∧
    (∀ (p : Path) (w : LoaderWorld),
      Restores LoaderWorld.resourceLoader (EntityLoader.openDatabase J E p) w ↔
        (EntityLoader.LoadsClosed p w →
          nextFault (EntityLoader.openedWorld p w).loaderState = some outOfMemory ∨
            EntityLoader.HierarchyLoads J E p w)) :=
  ⟨EntityPersister.restores_persist_iff P A J E crc,
    EntityLoader.restores_openDatabase_iff J E⟩

/-- The table of a database whose hierarchy row says that it has `2 ^ 31` columns. -/
def wideTable : Table := Table.empty.insert ENTITY_HIERARCHY_BLOB_KEY (2 ^ 31) 1 1 [0x7b]

/-- A root is persisted with every singleton new, on a disk that is full. -/
def fullDisk : SaveState PersisterWorld :=
  ⟨EntityHierarchy.new, ⟨⟨fun _ => none,
    [none, none, none, none, some "database or disk is full".toList]⟩, Sqlite.new,
    ⟨some ⟨some ['d'], 0⟩, ['d']⟩⟩⟩

/-- A database with the wide table is opened with every singleton new. -/
def wideDatabase : LoaderWorld :=
  ⟨⟨fun _ => some wideTable, []⟩, Sqlite.new, fun _ => none, Sqlite.new, EntityHierarchy.new⟩

/-- The end of a program that throws: whether the exception is standard, and the adapter open. -/
def thrownEnd {σ α : Type} (adapter : σ → Sqlite) (x : EStateM Exception σ α) (s : σ) :
    Option (Bool × Bool) :=
  match x.run s with
  | .ok _ _ => none
  | .error e s' => some (e.isStandard, (adapter s').isOpen)

theorem not_restores_of_thrownEnd {σ α : Type} {adapter : σ → Sqlite} {x : EStateM Exception σ α}
    {s : σ} (hclosed : (adapter s).isOpen = false) (h : thrownEnd adapter x s = some (true, true)) :
    ¬ Restores adapter x s := by
  unfold thrownEnd at h
  cases hrun : x.run s with
  | ok a s' =>
    rw [hrun] at h
    cases h
  | error e s' =>
    rw [hrun] at h
    obtain ⟨he, hopen⟩ := Prod.mk.inj (Option.some.inj h)
    rw [restores_of_error hrun he, hclosed, hopen]
    decide

/-- A `ResourcePersister` stays open when the disk is full, and a `ResourceLoader` when the number
of columns in a row does not fit an `int`. -/
theorem adapters_not_restored :
    ¬ Restores (fun s => s.world.resourcePersister)
        (EntityPersister.persist boostPaths (propertyAdapter Unit) twoRootsJson plainEngine crc32
          entityM) fullDisk ∧
      ¬ Restores LoaderWorld.resourceLoader
        (EntityLoader.openDatabase twoRootsJson plainEngine ['d']) wideDatabase :=
  ⟨not_restores_of_thrownEnd rfl (by decide +kernel),
    not_restores_of_thrownEnd rfl (by decide +kernel)⟩

end Azulejo
