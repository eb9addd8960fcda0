import Azulejo.Properties.HierarchySessions

/-!
# Whose database the hierarchy goes to

The entity adapters leave the hierarchy to the `ResourcePersister` and the `ResourceLoader`, which
the whole application shares. They open them on their own database only when they find them closed:
a singleton that has another database open writes the hierarchy there, and reads it from there.
-/

namespace Azulejo

open Stateful Sqlite

/-! ## The singletons -/

/-- A resource adapter that is closed, or was opened on some database. -/
def ClosedOrOpen (s : Sqlite) : Prop :=
  s.db = none ∨ ∃ q statements, s = ⟨some ⟨some q, statements⟩, q⟩

/-- An adapter that is open has made the table of its database. -/
def HasTable (tables : Path → Option Table) (s : Sqlite) : Prop :=
  ∀ q statements, s.db = some ⟨some q, statements⟩ → ∃ t, tables q = some t

/-- A resource adapter that is closed, or open on the database `p`. -/
def ClosedOrOn (p : Path) (s : Sqlite) : Prop :=
  s.db = none ∨ ∃ statements, s.db = some ⟨some p, statements⟩

/-- The database to which an entity adapter with the database `own` sends its hierarchy. -/
def databaseUsed (own : Path) (s : Sqlite) : Path :=
  match s.db with
  | some ⟨some q, _⟩ => q
  | _ => own

theorem databaseUsed_eq_iff {own : Path} {s : Sqlite} (hs : ClosedOrOpen s) :
    databaseUsed own s = own ↔ ClosedOrOn own s := by
  rcases hs with hclosed | ⟨q, statements, rfl⟩
  · simp only [databaseUsed, ClosedOrOn, hclosed, true_or]
  · constructor
    · intro hused
      obtain rfl : q = own := hused
      exact Or.inr ⟨statements, rfl⟩
    · rintro (hnone | ⟨statements', hopen⟩)
      · cases hnone
      · cases hopen
        rfl

variable (J : Json) (E : SqliteEngine) (crc : List UInt8 → UInt32)

/-! ## Writing -/

/-- The blob goes to the database of the `ResourcePersister`, if it has one open. -/
theorem sendEntityHierarchyTreeToDatabase_used {tree : Ptree} {text : List UInt8}
    (hwrite : J.write tree = .ok text) (hpos : text ≠ []) (hsmall : text.length < 2 ^ 31)
    {tables : Path → Option Table} {p : Path} (hp : p ≠ []) {resourcePersister : Sqlite}
    (hpersister : ClosedOrOpen resourcePersister) (htable : HasTable tables resourcePersister)
    (hrow : ∀ q, ((tables q).getD Table.empty).lastRow + 1 < 2 ^ 63) (db : Option Connection) :
    ∃ w, (EntityPersister.sendEntityHierarchyTreeToDatabase J E crc tree).run
        ⟨⟨tables, []⟩, resourcePersister, ⟨db, p⟩⟩ = .ok () w ∧
      w.disk.tables = Function.update tables (databaseUsed p resourcePersister)
        (some (withBlob crc (tables (databaseUsed p resourcePersister)) text)) := by
  rcases hpersister with hclosed | ⟨q, statements, rfl⟩
  · obtain ⟨connection, dbPath⟩ := resourcePersister
    obtain rfl : connection = none := hclosed
    exact ⟨_, sendEntityHierarchyTreeToDatabase_closed J E crc hwrite hpos hsmall hp (hrow p) db,
      rfl⟩
  · obtain ⟨t, ht⟩ := htable q statements rfl
    have hroom := hrow q
    rw [ht] at hroom
    refine ⟨_, sendEntityHierarchyTreeToDatabase_open J E crc hwrite hpos hsmall ht hroom statements
      ⟨db, p⟩, ?_⟩
    show Function.update tables q _ = Function.update tables q (some (withBlob crc (tables q) text))
    rw [ht]

theorem lastRow_withHierarchy (t : Option Table) (text : List UInt8) :
    (withHierarchy t text).lastRow = (t.getD Table.empty).lastRow + 1 := rfl

/-- A new row in `p`, and nothing else: the blob was written, and to `p`. -/
theorem update_withBlob_eq_iff {tables : Path → Option Table} {q p : Path} {text : List UInt8} :
    Function.update tables q (some (withBlob crc (tables q) text)) =
        Function.update tables p (some (withHierarchy (tables p) text)) ↔
      crc text ≠ 0xFFFFFFFF ∧ q = p := by
  constructor
  · intro heq
    have hrows := congrArg (fun t => (t.getD Table.empty).lastRow) (congrFun heq p)
    simp only [Function.update_self, Option.getD_some, lastRow_withHierarchy] at hrows
    by_cases hq : q = p
    · subst hq
      refine ⟨fun hcrc => ?_, rfl⟩
      rw [Function.update_self, Option.getD_some, withBlob, if_pos hcrc] at hrows
      omega
    · rw [Function.update_of_ne (Ne.symm hq)] at hrows
      omega
  · rintro ⟨hcrc, rfl⟩
    rw [withBlob, if_neg hcrc]

/-- `Persist` returned, with one new hierarchy row in the database `p` and no change elsewhere. -/
def StoresIn (p : Path) (tables : Path → Option Table) (text : List UInt8)
    (result : EStateM.Result Exception (SaveState PersisterWorld) (LTree Key (SaveCall Unit))) :
    Prop :=
  ∃ calls s, result = .ok calls s ∧
    s.world.disk.tables = Function.update tables p (some (withHierarchy (tables p) text))

variable {J}

theorem storesIn_iff {T D : Type} {P : PtreePaths} {A : Adapter T D Unit} {e : Entity T D}
    {h : EntityHierarchy} {tables : Path → Option Table} {p : Path} (hp : p ≠ [])
    {resourcePersister : Sqlite} (hpersister : ClosedOrOpen resourcePersister)
    (htable : HasTable tables resourcePersister)
    (hrow : ∀ q, ((tables q).getD Table.empty).lastRow + 1 < 2 ^ 63) {statements : Nat}
    {calls : LTree Key (SaveCall Unit)} {s : SaveState PersisterWorld}
    (htraversal : (saveWithParentKey P A (fun _ _ => ()) (pure ()) e []).run
      ⟨h, ⟨⟨tables, []⟩, resourcePersister, ⟨some ⟨some p, statements⟩, p⟩⟩⟩ = .ok calls s)
    {text : List UInt8} (hwrite : J.write s.tree = .ok text) (hpos : text ≠ [])
    (hsmall : text.length < 2 ^ 31) :
    StoresIn p tables text ((EntityPersister.persist P A J E crc e).run
        ⟨h, ⟨⟨tables, []⟩, resourcePersister, ⟨some ⟨some p, statements⟩, p⟩⟩⟩) ↔
      crc text ≠ 0xFFFFFFFF ∧ ClosedOrOn p resourcePersister := by
  obtain ⟨w, hsend, hw⟩ := sendEntityHierarchyTreeToDatabase_used J E crc hwrite hpos hsmall hp
    hpersister htable hrow (some ⟨some p, statements⟩)
  have hpersist := persist_of_traversal J E crc rfl htraversal hsend
  rw [hpersist, ← databaseUsed_eq_iff hpersister, ← update_withBlob_eq_iff crc]
  constructor
  · rintro ⟨calls', s', hok, htables⟩
    cases hok
    exact hw.symm.trans htables
  · intro heq
    exact ⟨_, _, rfl, hw.trans heq⟩

/-! ## Reading -/

/-- `EntityLoader::OpenDatabase` reads the database of the `ResourceLoader`, if it has one open. -/
theorem openDatabase_used {tables : Path → Option Table} {d : Path} (hd : d ≠ [])
    {resourceLoader : Sqlite} (hloader : ClosedOrOpen resourceLoader)
    (htable : HasTable tables resourceLoader)
    (hsound : ∀ q, ∀ r ∈ hierarchyRows (tables q), r.Sound) {registry : ResourceLoader.Registry}
    (hregistry : ReadsHierarchy J registry) (dbPath : Path) (h : EntityHierarchy) :
    ∃ w, (EntityLoader.openDatabase J E d).run
        ⟨⟨tables, []⟩, resourceLoader, registry, ⟨none, dbPath⟩, h⟩ = .ok () w ∧
      w.hierarchy.serializationStructure =
        storedHierarchy J (tables (databaseUsed d resourceLoader)) ∧
      ∀ q, q ≠ databaseUsed d resourceLoader → w.disk.tables q = tables q := by
  rcases hloader with hclosed | ⟨q, statements, rfl⟩
  · obtain ⟨connection, path⟩ := resourceLoader
    obtain rfl : connection = none := hclosed
    refine ⟨_, openDatabase_run J E hd hregistry (hsound d) dbPath h, rfl, ?_⟩
    exact fun q hq => Function.update_of_ne hq _ _
  · obtain ⟨t, ht⟩ := htable q statements rfl
    have hrows := hsound q
    rw [ht] at hrows
    refine ⟨_, openDatabase_of_tree J E hd (getEntityHierarchyTree_open J E ht hrows statements
      hregistry ⟨some ⟨some d, 0⟩, d⟩ h) dbPath, ?_, fun _ _ => rfl⟩
    show storedHierarchy J (some t) = storedHierarchy J (tables q)
    rw [ht]

variable (J)

/-- Whatever the databases hold, `EntityLoader::OpenDatabase(d)` returns with the hierarchy that is
stored in `d`, and changes no other database. -/
def ReadsOwn (resourceLoader : Sqlite) (registry : ResourceLoader.Registry) (d dbPath : Path)
    (h : EntityHierarchy) : Prop :=
  ∀ tables, HasTable tables resourceLoader →
    (∀ q, ∀ r ∈ hierarchyRows (tables q), r.Sound) →
    ∃ w, (EntityLoader.openDatabase J E d).run
        ⟨⟨tables, []⟩, resourceLoader, registry, ⟨none, dbPath⟩, h⟩ = .ok () w ∧
      w.hierarchy.serializationStructure = storedHierarchy J (tables d) ∧
      ∀ q, q ≠ d → w.disk.tables q = tables q

/-- Some text is read as a hierarchy with something in it. -/
def ReadsSomething : Prop :=
  ∃ text tree, text ≠ [] ∧ text.length < 2 ^ 31 ∧ J.read (text.takeWhile (· != 0)) = .ok tree ∧
    tree ≠ LTree.empty

variable {J}

theorem readsOwn_iff (hread : ReadsSomething J) {resourceLoader : Sqlite}
    (hloader : ClosedOrOpen resourceLoader) {registry : ResourceLoader.Registry}
    (hregistry : ReadsHierarchy J registry) {d : Path} (hd : d ≠ []) (dbPath : Path)
    (h : EntityHierarchy) :
    ReadsOwn J E resourceLoader registry d dbPath h ↔ ClosedOrOn d resourceLoader := by
  rw [← databaseUsed_eq_iff hloader]
  constructor
  · intro hreads
    by_contra hother
    -- a database that holds nothing at `d`, and something where the loader is open
    obtain ⟨text, tree, hpos, hsmall, hparse, hne⟩ := hread
    have hused : hierarchyRows none = [] := rfl
    have hsound := sound_hierarchyRows hpos hsmall (t := none) (by decide) (by rw [hused]; nofun)
    let tables : Path → Option Table :=
      Function.update (fun _ => none) (databaseUsed d resourceLoader)
        (some (withHierarchy none text))
    have htable : HasTable tables resourceLoader := by
      intro q statements hopen
      have hq : databaseUsed d resourceLoader = q := by
        unfold databaseUsed
        rw [hopen]
      exact ⟨withHierarchy none text, by rw [← hq]; exact Function.update_self _ _ _⟩
    have hrows : ∀ q, ∀ r ∈ hierarchyRows (tables q), r.Sound := by
      intro q
      by_cases hq : q = databaseUsed d resourceLoader
      · rw [hq, show tables _ = _ from Function.update_self _ _ _]
        exact hsound
      · rw [show tables q = none from Function.update_of_ne hq _ _, hused]
        nofun
    obtain ⟨w, hrun, hown, -⟩ := hreads tables htable hrows
    obtain ⟨w', hrun', hused', -⟩ := openDatabase_used E hd hloader htable hrows hregistry dbPath h
    rw [hrun] at hrun'
    cases hrun'
    rw [hown, show tables d = none from Function.update_of_ne (Ne.symm hother) _ _,
      show tables _ = _ from Function.update_self _ _ _, storedHierarchy_of_read hparse] at hused'
    exact hne hused'.symm
  · intro hown tables htable hsound
    have hrun := openDatabase_used E hd hloader htable hsound hregistry dbPath h
    rw [hown] at hrun
    exact hrun

/-! ## Both directions -/

/-- `Persist` writes the hierarchy to the database of the `EntityPersister` exactly when the
`ResourcePersister` is closed or open on this database, and the text does not have the checksum a
new blob starts with; `EntityLoader::OpenDatabase(d)` reads it from `d` exactly when the
`ResourceLoader` is closed or open on `d`. -/
theorem hierarchy_in_own_database_iff {T D : Type} (P : PtreePaths) (A : Adapter T D Unit) (J : Json)
    (E : SqliteEngine) (crc : List UInt8 → UInt32) {e : Entity T D} {h : EntityHierarchy}
    {tables : Path → Option Table} {p : Path} (hp : p ≠ []) {resourcePersister : Sqlite}
    (hpersister : ClosedOrOpen resourcePersister) (htable : HasTable tables resourcePersister)
    (hrow : ∀ q, ((tables q).getD Table.empty).lastRow + 1 < 2 ^ 63) {statements : Nat}
    {calls : LTree Key (SaveCall Unit)} {s : SaveState PersisterWorld}
    (htraversal : (saveWithParentKey P A (fun _ _ => ()) (pure ()) e []).run
      ⟨h, ⟨⟨tables, []⟩, resourcePersister, ⟨some ⟨some p, statements⟩, p⟩⟩⟩ = .ok calls s)
    {text : List UInt8} (hwrite : J.write s.tree = .ok text) (hpos : text ≠ [])
    (hsmall : text.length < 2 ^ 31) (hread : ReadsSomething J) {resourceLoader : Sqlite}
    (hloader : ClosedOrOpen resourceLoader) {registry : ResourceLoader.Registry}
    (hregistry : ReadsHierarchy J registry) {d : Path} (hd : d ≠ []) (dbPath : Path)
    (h' : EntityHierarchy) :
    (StoresIn p tables text ((EntityPersister.persist P A J E crc e).run
        ⟨h, ⟨⟨tables, []⟩, resourcePersister, ⟨some ⟨some p, statements⟩, p⟩⟩⟩) ↔
      crc text ≠ 0xFFFFFFFF ∧ ClosedOrOn p resourcePersister) ∧
    (ReadsOwn J E resourceLoader registry d dbPath h' ↔ ClosedOrOn d resourceLoader) :=
  ⟨storesIn_iff E crc hp hpersister htable hrow htraversal hwrite hpos hsmall,
    readsOwn_iff E hread hloader hregistry hd dbPath h'⟩

/-- A database `q` with the empty table. -/
def tablesOfQ : Path → Option Table := Function.update (fun _ => none) ['q'] (some Table.empty)

def openOn (p : Path) : Sqlite := ⟨some ⟨some p, 0⟩, p⟩

/-- An `EntityPersister` that has the database `d` open. -/
def withPersister (resourcePersister : Sqlite) : SaveState PersisterWorld :=
  ⟨EntityHierarchy.new, ⟨⟨tablesOfQ, []⟩, resourcePersister, openOn ['d']⟩⟩

theorem readsSomething_twoRootsJson : ReadsSomething twoRootsJson := by
  have htake : textM.takeWhile (· != 0) = textM := by decide +kernel
  refine ⟨textM, treeM, by decide +kernel, by decide +kernel, ?_, nofun⟩
  rw [htake]
  rfl

/-- Saving the entity `m` succeeds, and its hierarchy has a text. -/
theorem traversal_withPersister (resourcePersister : Sqlite) :
    ∃ calls s, (saveWithParentKey boostPaths (propertyAdapter Unit) (fun _ _ => ()) (pure ())
        entityM []).run (withPersister resourcePersister) = .ok calls s ∧
      twoRootsJson.write s.tree = .ok textM :=
  ⟨_, _, rfl, rfl⟩

theorem tablesOfQ_room (q : Path) : ((tablesOfQ q).getD Table.empty).lastRow + 1 < 2 ^ 63 := by
  have hempty : (tablesOfQ q).getD Table.empty = Table.empty := by
    unfold tablesOfQ
    by_cases hq : q = ['q']
    · rw [hq, Function.update_self]
      rfl
    · rw [Function.update_of_ne hq]
      rfl
  rw [hempty]
  decide

theorem openOn_hasTable : HasTable tablesOfQ (openOn ['q']) := by
  intro q statements hopen
  cases hopen
  exact ⟨Table.empty, Function.update_self _ _ _⟩

theorem not_closedOrOn_openOn : ¬ ClosedOrOn ['d'] (openOn ['q']) := by
  rintro (hclosed | ⟨statements, hopen⟩)
  · cases hclosed
  · cases hopen

theorem hierarchy_in_own_database_iff_sample :
    (StoresIn ['d'] tablesOfQ textM ((EntityPersister.persist boostPaths (propertyAdapter Unit)
        twoRootsJson plainEngine crc32 entityM).run (withPersister Sqlite.new)) ↔
      crc32 textM ≠ 0xFFFFFFFF ∧ ClosedOrOn ['d'] Sqlite.new) ∧
    (ReadsOwn twoRootsJson plainEngine Sqlite.new (fun _ => none) ['d'] [] EntityHierarchy.new ↔
      ClosedOrOn ['d'] Sqlite.new) := by
  have htable : HasTable tablesOfQ Sqlite.new := by
    intro q statements hopen
    cases hopen
  obtain ⟨calls, s, htraversal, hwrite⟩ := traversal_withPersister Sqlite.new
  exact hierarchy_in_own_database_iff boostPaths (propertyAdapter Unit) twoRootsJson plainEngine
    crc32 (List.cons_ne_nil _ _) (Or.inl rfl) htable tablesOfQ_room htraversal hwrite
    (by decide +kernel) (by decide +kernel) readsSomething_twoRootsJson (Or.inl rfl) (Or.inl rfl)
    (List.cons_ne_nil _ _) [] EntityHierarchy.new

/-- With the singletons open on another database, the hierarchy does not go to the own one, and is
not read from there. -/
theorem hierarchy_in_other_database :
    ¬ StoresIn ['d'] tablesOfQ textM ((EntityPersister.persist boostPaths (propertyAdapter Unit)
        twoRootsJson plainEngine crc32 entityM).run (withPersister (openOn ['q']))) ∧
    ¬ ReadsOwn twoRootsJson plainEngine (openOn ['q']) (fun _ => none) ['d'] []
      EntityHierarchy.new := by
  have hopen : ClosedOrOpen (openOn ['q']) := Or.inr ⟨['q'], 0, rfl⟩
  obtain ⟨calls, s, htraversal, hwrite⟩ := traversal_withPersister (openOn ['q'])
  have hstores := storesIn_iff plainEngine crc32 (List.cons_ne_nil _ _) hopen
    openOn_hasTable tablesOfQ_room htraversal hwrite (by decide +kernel) (by decide +kernel)
  have hregistry : ReadsHierarchy twoRootsJson fun _ => none := Or.inl rfl
  have hreads := readsOwn_iff plainEngine readsSomething_twoRootsJson hopen hregistry
    (List.cons_ne_nil 'd' []) [] EntityHierarchy.new
  exact ⟨fun h => not_closedOrOn_openOn (hstores.mp h).2,
    fun h => not_closedOrOn_openOn (hreads.mp h)⟩

end Azulejo
