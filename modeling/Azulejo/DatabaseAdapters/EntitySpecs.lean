import Azulejo.Adapters.Canonical
import Azulejo.DatabaseAdapters.EntityAdapters
import Azulejo.DatabaseAdapters.Specs

/-!
# The stored hierarchy

`storedHierarchy` is the hierarchy a table holds: the tree of its last hierarchy row.
`sendEntityHierarchyTreeToDatabase_run` and `openDatabase_run` say that this is what
`EntityPersister` writes and what `EntityLoader` reads.
-/

namespace Azulejo

open Stateful Sqlite AssocList

variable (J : Json) (E : SqliteEngine) (crc : List UInt8 → UInt32)

theorem plainLiteral_hierarchyKey : PlainLiteral ENTITY_HIERARCHY_BLOB_KEY := by
  constructor
  · intro h
    have helem : ENTITY_HIERARCHY_BLOB_KEY.elem '\'' = false := rfl
    rw [List.elem_iff.mpr h] at helem
    cases helem
  · exact not_mem_of_elem rfl

theorem hierarchyKey_ne_nil : ENTITY_HIERARCHY_BLOB_KEY ≠ [] := by
  intro h
  have hhead : ENTITY_HIERARCHY_BLOB_KEY.head? = some 'e' := rfl
  rw [h] at hhead
  cases hhead

/-- The rows that hold hierarchies. -/
def hierarchyRows (t : Option Table) : List Row :=
  (t.getD Table.empty).ofKey ENTITY_HIERARCHY_BLOB_KEY

/-- The hierarchy stored in a database: what its last hierarchy row is read as. -/
def storedHierarchy (t : Option Table) : Ptree :=
  match (hierarchyRows t).getLast? with
  | none => LTree.empty
  | some row =>
    match J.read (row.data.takeWhile (· != 0)) with
    | .ok tree => tree
    | .error _ => LTree.empty

/-- The hierarchy can be stored: its JSON text is read back as the tree, holds no NUL, fits
an `int`, and does not have the checksum a new object starts with. -/
def Storable (tree : Ptree) (text : List UInt8) : Prop :=
  J.write tree = .ok text ∧ J.read text = .ok tree ∧ 0 ∉ text ∧ text ≠ [] ∧
    text.length < 2 ^ 31 ∧ crc text ≠ 0xFFFFFFFF

/-! ## Writing -/

/-- The blob of a tree, before it is persisted. -/
def hierarchyBlob (tree : Ptree) (text : List UInt8) : IResource :=
  { EntityHierarchyBlob.new with
    data := some text, hierarchyTree := some tree, N := UInt64.ofNat text.length, M := 1 }

theorem ofTree_eq {tree : Ptree} {text : List UInt8} (h : J.write tree = .ok text) :
    EntityHierarchyBlob.ofTree J tree = .ok (hierarchyBlob tree text) := by
  unfold EntityHierarchyBlob.ofTree
  rw [h]
  rfl

theorem hierarchyBlob_fitsInt (tree : Ptree) {text : List UInt8} (hpos : text ≠ [])
    (hsmall : text.length < 2 ^ 31) : FitsInt (hierarchyBlob tree text) text := by
  have hN : (UInt64.ofNat text.length).toNat = text.length := by
    rw [UInt64.toNat_ofNat', Nat.mod_eq_of_lt (by omega)]
  have hone : (1 : UInt64).toNat < 2 ^ 31 := by decide
  refine ⟨rfl, ?_, hpos, hsmall, hone, ?_, hone⟩
  · show text.length = 1 * (UInt64.ofNat text.length).toNat * 1
    rw [hN, Nat.one_mul, Nat.mul_one]
  · show (UInt64.ofNat text.length).toNat < 2 ^ 31
    rwa [hN]

theorem onResourcePersister_ok {α : Type} {x : EStateM Exception SqliteState α}
    {w : PersisterWorld} {s : SqliteState} {a : α}
    (h : x.run ⟨w.disk, w.resourcePersister⟩ = .ok a s) :
    (EntityPersister.onResourcePersister x).run w =
      .ok a { w with disk := s.disk, resourcePersister := s.sqlite } := by
  unfold EntityPersister.onResourcePersister
  rw [zoom_run, h]

theorem onResourcePersister_error {α : Type} {x : EStateM Exception SqliteState α}
    {w : PersisterWorld} {s : SqliteState} {e : Exception}
    (h : x.run ⟨w.disk, w.resourcePersister⟩ = .error e s) :
    (EntityPersister.onResourcePersister x).run w =
      .error e { w with disk := s.disk, resourcePersister := s.sqlite } := by
  unfold EntityPersister.onResourcePersister
  rw [zoom_run, h]

theorem persistBlob_ok {blob r : IResource} {w : PersisterWorld} {s : SqliteState}
    (h : (ResourcePersister.persist E crc ENTITY_HIERARCHY_BLOB_KEY).run
      ⟨⟨w.disk, w.resourcePersister⟩, blob⟩ = .ok () ⟨s, r⟩) :
    (EntityPersister.persistBlob E crc blob).run w =
      .ok () { w with disk := s.disk, resourcePersister := s.sqlite } := by
  unfold EntityPersister.persistBlob
  apply onResourcePersister_ok
  rw [zoom_run, h]

theorem persistBlob_error {blob r : IResource} {w : PersisterWorld} {s : SqliteState}
    {e : Exception} (h : (ResourcePersister.persist E crc ENTITY_HIERARCHY_BLOB_KEY).run
      ⟨⟨w.disk, w.resourcePersister⟩, blob⟩ = .error e ⟨s, r⟩) :
    (EntityPersister.persistBlob E crc blob).run w =
      .error e { w with disk := s.disk, resourcePersister := s.sqlite } := by
  unfold EntityPersister.persistBlob
  apply onResourcePersister_error
  rw [zoom_run, h]

/-- The table after a hierarchy text was persisted. -/
def withHierarchy (t : Option Table) (text : List UInt8) : Table :=
  (t.getD Table.empty).insert ENTITY_HIERARCHY_BLOB_KEY 1 text.length 1 text

/-- The table after the blob of a hierarchy was given to `Persist`. A text whose checksum is the
one a new blob starts with is not written. -/
def withBlob (t : Option Table) (text : List UInt8) : Table :=
  if crc text = 0xFFFFFFFF then t.getD Table.empty else withHierarchy t text

/-- The blob goes to the database that the `ResourcePersister` has open. -/
theorem persistBlob_run (tree : Ptree) {text : List UInt8} (hpos : text ≠ [])
    (hsmall : text.length < 2 ^ 31) {tables : Path → Option Table} {q : Path} {t : Table}
    (ht : tables q = some t) (hrow : t.lastRow + 1 < 2 ^ 63) (statements : Nat)
    (database : Sqlite) :
    (EntityPersister.persistBlob E crc (hierarchyBlob tree text)).run
        ⟨⟨tables, []⟩, ⟨some ⟨some q, statements⟩, q⟩, database⟩ =
      .ok () ⟨⟨Function.update tables q (some (withBlob crc (some t) text)), []⟩,
        ⟨some ⟨some q, statements⟩, q⟩, database⟩ := by
  have hfits := hierarchyBlob_fitsInt tree hpos hsmall
  have hchecksum : (hierarchyBlob tree text).checksum crc = crc text := by
    unfold IResource.checksum
    rw [hfits.bytes_eq]
  by_cases hcrc : crc text = 0xFFFFFFFF
  · have hsame : (hierarchyBlob tree text).checksum crc = (hierarchyBlob tree text).checkSum :=
      hchecksum.trans hcrc
    have hpersist := persistBlob_ok E crc (w := ⟨⟨tables, []⟩, ⟨some ⟨some q, statements⟩, q⟩,
      database⟩) (persist_unchanged E crc hierarchyKey_ne_nil hsame _)
    have hkept : Function.update tables q (some (withBlob crc (some t) text)) = tables := by
      rw [withBlob, if_pos hcrc, Option.getD_some, ← ht, Function.update_eq_self]
    rw [hkept]
    exact hpersist
  · have hchanged : (hierarchyBlob tree text).checksum crc ≠ (hierarchyBlob tree text).checkSum :=
      fun hsame => hcrc (hchecksum.symm.trans hsame)
    have hpersist := persistBlob_ok E crc (w := ⟨⟨tables, []⟩, ⟨some ⟨some q, statements⟩, q⟩,
      database⟩) (persist_changed E crc hierarchyKey_ne_nil plainLiteral_hierarchyKey hfits hchanged
        ht hrow statements)
    have hinsert : t.insert ENTITY_HIERARCHY_BLOB_KEY (hierarchyBlob tree text).M.toNat
        (hierarchyBlob tree text).N.toNat (hierarchyBlob tree text).elementSize.toNat text =
          withBlob crc (some t) text := by
      have hN : (UInt64.ofNat text.length).toNat = text.length := by
        rw [UInt64.toNat_ofNat', Nat.mod_eq_of_lt (by omega)]
      rw [withBlob, if_neg hcrc]
      show Table.insert _ _ 1 (UInt64.ofNat text.length).toNat 1 text = _
      rw [hN]
      rfl
    rw [← hinsert]
    exact hpersist

/-- `SendEntityHierarchyTreeToDatabase` with a `ResourcePersister` that has a database open: the
blob goes there. -/
theorem sendEntityHierarchyTreeToDatabase_open {tree : Ptree} {text : List UInt8}
    (hwrite : J.write tree = .ok text) (hpos : text ≠ []) (hsmall : text.length < 2 ^ 31)
    {tables : Path → Option Table} {q : Path} {t : Table} (ht : tables q = some t)
    (hrow : t.lastRow + 1 < 2 ^ 63) (statements : Nat) (database : Sqlite) :
    (EntityPersister.sendEntityHierarchyTreeToDatabase J E crc tree).run
        ⟨⟨tables, []⟩, ⟨some ⟨some q, statements⟩, q⟩, database⟩ =
      .ok () ⟨⟨Function.update tables q (some (withBlob crc (some t) text)), []⟩,
        ⟨some ⟨some q, statements⟩, q⟩, database⟩ := by
  unfold EntityPersister.sendEntityHierarchyTreeToDatabase
  rw [bind_ok (lift_ok (ofTree_eq J hwrite) _), bind_ok (EStateM.run_get _)]
  simp only [Sqlite.isOpen, Option.isSome_some, Bool.not_true, Bool.false_eq_true, if_false]
  exact persistBlob_run E crc tree hpos hsmall ht hrow statements database

/-- `SendEntityHierarchyTreeToDatabase` with a `ResourcePersister` that has no database open: the
blob goes to the database of the `EntityPersister`. -/
theorem sendEntityHierarchyTreeToDatabase_closed {tree : Ptree} {text : List UInt8}
    (hwrite : J.write tree = .ok text) (hpos : text ≠ []) (hsmall : text.length < 2 ^ 31)
    {tables : Path → Option Table} {p q : Path} (hp : p ≠ [])
    (hrow : ((tables p).getD Table.empty).lastRow + 1 < 2 ^ 63) (db : Option Connection) :
    (EntityPersister.sendEntityHierarchyTreeToDatabase J E crc tree).run
        ⟨⟨tables, []⟩, ⟨none, q⟩, ⟨db, p⟩⟩ =
      .ok () ⟨⟨Function.update tables p (some (withBlob crc (tables p) text)), []⟩, ⟨none, p⟩,
        ⟨db, p⟩⟩ := by
  have hopen := openResourceDatabase_run E hp tables q
    "ResourcePersister already has a database open".toList
  have hpersist := persistBlob_run E crc tree hpos hsmall
    (Function.update_self p (some ((tables p).getD Table.empty)) tables) hrow 0 ⟨db, p⟩
  have hblob : withBlob crc (some ((tables p).getD Table.empty)) text =
      withBlob crc (tables p) text := rfl
  rw [Function.update_idem, hblob] at hpersist
  have hclose := closeDatabase_connected
    (Function.update tables p (some (withBlob crc (tables p) text))) p
  unfold EntityPersister.sendEntityHierarchyTreeToDatabase
  rw [bind_ok (lift_ok (ofTree_eq J hwrite) _), bind_ok (EStateM.run_get _)]
  simp only [Sqlite.isOpen, Option.isSome_none, Bool.not_false, if_true]
  rw [bind_ok (onResourcePersister_ok hopen)]
  have hclosed := onResourcePersister_ok (w := ⟨⟨Function.update tables p
    (some (withBlob crc (tables p) text)), []⟩, ⟨some ⟨some p, 0⟩, p⟩, ⟨db, p⟩⟩) hclose
  exact (bind_ok hpersist).trans hclosed

/-- With a hierarchy that can be stored: one new hierarchy row. -/
theorem sendEntityHierarchyTreeToDatabase_run {tree : Ptree} {text : List UInt8}
    (htext : Storable J crc tree text) {tables : Path → Option Table} {p q : Path} (hp : p ≠ [])
    (hrow : ((tables p).getD Table.empty).lastRow + 1 < 2 ^ 63) (db : Option Connection) :
    (EntityPersister.sendEntityHierarchyTreeToDatabase J E crc tree).run
        ⟨⟨tables, []⟩, ⟨none, q⟩, ⟨db, p⟩⟩ =
      .ok () ⟨⟨Function.update tables p (some (withHierarchy (tables p) text)), []⟩, ⟨none, p⟩,
        ⟨db, p⟩⟩ := by
  obtain ⟨hwrite, _, _, hpos, hsmall, hcrc⟩ := htext
  have hblob : withBlob crc (tables p) text = withHierarchy (tables p) text := if_neg hcrc
  rw [← hblob]
  exact sendEntityHierarchyTreeToDatabase_closed J E crc hwrite hpos hsmall hp hrow db

theorem sendHierarchy_ok {s : SaveState PersisterWorld} {w : PersisterWorld}
    (h : (EntityPersister.sendEntityHierarchyTreeToDatabase J E crc s.tree).run s.world =
      .ok () w) :
    (EntityPersister.sendHierarchy J E crc).run s = .ok () { s with world := w } := by
  unfold EntityPersister.sendHierarchy
  rw [bind_ok (EStateM.run_get _), zoom_run, h]

theorem sendHierarchy_error {s : SaveState PersisterWorld} {w : PersisterWorld} {e : Exception}
    (h : (EntityPersister.sendEntityHierarchyTreeToDatabase J E crc s.tree).run s.world =
      .error e w) :
    (EntityPersister.sendHierarchy J E crc).run s = .error e { s with world := w } := by
  unfold EntityPersister.sendHierarchy
  rw [bind_ok (EStateM.run_get _), zoom_run, h]

section Traversal

variable {T D : Type} {P : PtreePaths} {A : Adapter T D Unit} {e : Entity T D}
  {s s' : SaveState PersisterWorld}

variable (P A) in
/-- The traversal alone leaves the databases alone. -/
theorem keeps_world_traversal (e : Entity T D) :
    Keeps SaveState.world (saveWithParentKey P A (fun _ _ => ()) (pure ()) e [] :
      EStateM Exception (SaveState PersisterWorld) (LTree Key (SaveCall Unit))) :=
  saveWithParentKey_keeps_world (keeps_pure SaveState.world ()) e []

/-- `Persist` on an open database is the traversal, and then the sending. -/
theorem persist_opened (hopen : s.world.database.isOpen = true) (hkey : e.key ≠ []) :
    (EntityPersister.persist P A J E crc e).run s =
      (do
        let calls ← saveWithParentKey P A (fun _ _ => ()) (pure ()) e []
        EntityPersister.sendHierarchy J E crc
        pure calls).run s := by
  unfold EntityPersister.persist
  rw [bind_ok (EStateM.run_get _)]
  simp only [hopen, Bool.not_true, Bool.false_eq_true, if_false, if_neg hkey]
  unfold EntityPersister.persistWithParentKey
  rw [saveWithParentKey_finish]

/-- A traversal that returns is that of an entity with a key. -/
theorem of_traversal {calls : LTree Key (SaveCall Unit)}
    (htraversal : (saveWithParentKey P A (fun _ _ => ()) (pure ()) e []).run s = .ok calls s') :
    e.key ≠ [] ∧ s'.world = s.world := by
  refine ⟨?_, (keeps_world_traversal P A e).eq htraversal⟩
  intro hnone
  cases e with
  | mk key type data membersMap ctors =>
    simp only [saveWithParentKey, if_pos (show key = [] from hnone)] at htraversal
    cases htraversal

/-- The traversal and then the sending of the whole hierarchy. -/
theorem persist_of_traversal {calls : LTree Key (SaveCall Unit)}
    (hopen : s.world.database.isOpen = true)
    (htraversal : (saveWithParentKey P A (fun _ _ => ()) (pure ()) e []).run s = .ok calls s')
    {w : PersisterWorld}
    (hsend : (EntityPersister.sendEntityHierarchyTreeToDatabase J E crc s'.tree).run s.world =
      .ok () w) :
    (EntityPersister.persist P A J E crc e).run s = .ok calls { s' with world := w } := by
  obtain ⟨hkey, hworld⟩ := of_traversal htraversal
  rw [← hworld] at hsend
  rw [persist_opened J E crc hopen hkey, bind_ok htraversal,
    bind_ok (sendHierarchy_ok J E crc hsend)]
  rfl

/-- The sending of the hierarchy ends in an exception. -/
theorem persist_of_traversal_error {calls : LTree Key (SaveCall Unit)}
    (hopen : s.world.database.isOpen = true)
    (htraversal : (saveWithParentKey P A (fun _ _ => ()) (pure ()) e []).run s = .ok calls s')
    {w : PersisterWorld} {err : Exception}
    (hsend : (EntityPersister.sendEntityHierarchyTreeToDatabase J E crc s'.tree).run s.world =
      .error err w) :
    (EntityPersister.persist P A J E crc e).run s = .error err { s' with world := w } := by
  obtain ⟨hkey, hworld⟩ := of_traversal htraversal
  rw [← hworld] at hsend
  rw [persist_opened J E crc hopen hkey, bind_ok htraversal,
    bind_error (sendHierarchy_error J E crc hsend)]

end Traversal

/-- `Persist` of an entity tree on an open database, with a `ResourcePersister` that has no
database open: its structural tree becomes a root of the hierarchy, and the whole hierarchy
a new row of the database. -/
theorem persist_run {T D : Type} (P : PtreePaths) {A : Adapter T D Unit} {e : Entity T D}
    (he : Saveable A (fun _ => ()) e []) {h : EntityHierarchy}
    (hunique : h.serializationStructure.UniqueAlong [e.key]) {text : List UInt8}
    (htext : Storable J crc
      (h.serializationStructure.set [e.key] (canonical A (fun _ => ()) e [])) text)
    {tables : Path → Option Table} {p q : Path} (hp : p ≠ [])
    (hrow : ((tables p).getD Table.empty).lastRow + 1 < 2 ^ 63) (statements : Nat) :
    (EntityPersister.persist P A J E crc e).run
        ⟨h, ⟨⟨tables, []⟩, ⟨none, q⟩, ⟨some ⟨some p, statements⟩, p⟩⟩⟩ =
      .ok (saveCalls A (fun _ => ()) e [])
        ⟨{ h with serializationStructure :=
            h.serializationStructure.set [e.key] (canonical A (fun _ => ()) e []) },
          ⟨⟨Function.update tables p (some (withHierarchy (tables p) text)), []⟩, ⟨none, p⟩,
            ⟨some ⟨some p, statements⟩, p⟩⟩⟩ := by
  have hsend := sendEntityHierarchyTreeToDatabase_run J E crc htext (q := q) hp hrow
    (some ⟨some p, statements⟩)
  have hplain : ∀ k ∈ ([] : List Key), PlainKey k := by simp
  rw [← dotted_nil] at he
  have hsave := @saveWithParentKey_eq _ _ _ _ P _ (fun _ _ => ())
    (EntityPersister.sendHierarchy J E crc) _ []
    ⟨h, ⟨⟨tables, []⟩, ⟨none, q⟩, ⟨some ⟨some p, statements⟩, p⟩⟩⟩ he hplain hunique
  simp only [dotted_nil, List.nil_append] at hsave
  unfold EntityPersister.persist
  rw [bind_ok (EStateM.run_get _)]
  simp only [Sqlite.isOpen, Option.isSome_some, Bool.not_true, Bool.false_eq_true, if_false,
    if_neg he.plain_key.1]
  unfold EntityPersister.persistWithParentKey
  rw [hsave]
  unfold afterSave
  simp only [if_true]
  exact bind_ok (sendHierarchy_ok J E crc hsend)

/-! ## The hierarchy rows -/

theorem hierarchyRows_withHierarchy (t : Option Table) (text : List UInt8) :
    hierarchyRows (some (withHierarchy t text)) = hierarchyRows t ++
      [⟨(t.getD Table.empty).lastRow + 1, ENTITY_HIERARCHY_BLOB_KEY, 1, text.length, 1, text⟩] := by
  exact Table.ofKey_insert_self _ _ _ _ _ _

/-- A new hierarchy row is as sound as the others. -/
theorem sound_hierarchyRows {text : List UInt8} (hpos : text ≠ []) (hsmall : text.length < 2 ^ 31)
    {t : Option Table} (hrow : (t.getD Table.empty).lastRow + 1 < 2 ^ 31)
    (hsound : ∀ r ∈ hierarchyRows t, r.Sound) :
    ∀ r ∈ hierarchyRows (some (withHierarchy t text)), r.Sound := by
  intro r hr
  rw [hierarchyRows_withHierarchy] at hr
  rcases List.mem_append.mp hr with hr | hr
  · exact hsound r hr
  · rw [List.mem_singleton.mp hr]
    have hone : 1 < 2 ^ 31 := by omega
    exact ⟨hrow, hone, hsmall, hone, by simp, hpos, hsmall⟩

variable {J} {crc} in
theorem sound_withHierarchy {tree : Ptree} {text : List UInt8} (htext : Storable J crc tree text)
    {t : Option Table} (hrow : (t.getD Table.empty).lastRow + 1 < 2 ^ 31)
    (hsound : ∀ r ∈ hierarchyRows t, r.Sound) :
    ∀ r ∈ hierarchyRows (some (withHierarchy t text)), r.Sound := by
  obtain ⟨_, _, _, hpos, hsmall, _⟩ := htext
  exact sound_hierarchyRows hpos hsmall hrow hsound

variable {J} in
/-- The text that was persisted last is what is stored, if it is read as a tree. -/
theorem storedHierarchy_of_read {tree : Ptree} {text : List UInt8}
    (hread : J.read (text.takeWhile (· != 0)) = .ok tree) (t : Option Table) :
    storedHierarchy J (some (withHierarchy t text)) = tree := by
  unfold storedHierarchy
  rw [hierarchyRows_withHierarchy, List.getLast?_concat]
  simp only [hread]

variable {J} {crc} in
/-- What was persisted last is what is stored. -/
theorem storedHierarchy_withHierarchy {tree : Ptree} {text : List UInt8}
    (htext : Storable J crc tree text) (t : Option Table) :
    storedHierarchy J (some (withHierarchy t text)) = tree := by
  obtain ⟨_, hread, hnul, _⟩ := htext
  have htake : text.takeWhile (· != 0) = text := by
    apply List.takeWhile_eq_self_iff.mpr
    intro b hb
    have hne : b ≠ 0 := by
      rintro rfl
      exact hnul hb
    simp [hne]
  exact storedHierarchy_of_read (by rw [htake, hread]) t

/-! ## Reading -/

/-- The registry makes hierarchies under the key of the hierarchy, or will. -/
def ReadsHierarchy (registry : ResourceLoader.Registry) : Prop :=
  registry ENTITY_HIERARCHY_BLOB_KEY = none ∨
    registry ENTITY_HIERARCHY_BLOB_KEY = some (EntityHierarchyBlob.resourceClass J)

/-- The registry after the hierarchy was asked for. -/
def withHierarchyClass (registry : ResourceLoader.Registry) : ResourceLoader.Registry :=
  Function.update registry ENTITY_HIERARCHY_BLOB_KEY (some (EntityHierarchyBlob.resourceClass J))

theorem assign_ok {data : List UInt8} {tree : Ptree} (hpos : data ≠ [])
    (hread : J.read (data.takeWhile (· != 0)) = .ok tree) (r : IResource) :
    (EntityHierarchyBlob.assign J data).run r =
      .ok () { r with data := some data, hierarchyTree := some tree } := by
  have hmake : EntityHierarchyBlob.makeHierarchyTree J data = .ok tree := by
    unfold EntityHierarchyBlob.makeHierarchyTree
    rw [hread]
    rfl
  unfold EntityHierarchyBlob.assign
  rw [if_neg hpos, bind_ok (EStateM.run_modify _ _), bind_ok (lift_ok hmake _),
    EStateM.run_modify]

theorem assign_error {data : List UInt8} {e : Str} (hpos : data ≠ [])
    (hread : J.read (data.takeWhile (· != 0)) = .error e) (r : IResource) :
    (EntityHierarchyBlob.assign J data).run r =
      .error (.runtimeError ("Could not MakeHierarchyTree from buffer: ".toList ++ e))
        { r with data := some data } := by
  have hmake : EntityHierarchyBlob.makeHierarchyTree J data =
      .error (.runtimeError ("Could not MakeHierarchyTree from buffer: ".toList ++ e)) := by
    unfold EntityHierarchyBlob.makeHierarchyTree
    rw [hread]
    rfl
  unfold EntityHierarchyBlob.assign
  rw [if_neg hpos, bind_ok (EStateM.run_modify _ _), bind_error (lift_error hmake _)]

theorem fillResource_hierarchy (numbers : RowNumbers) (data : List UInt8) :
    (ResourceLoader.fillResource numbers data (EntityHierarchyBlob.resourceClass J)).run
        EntityHierarchyBlob.new =
      (EntityHierarchyBlob.assign J data).run
        { EntityHierarchyBlob.new with N := numbers.m, M := numbers.n } := by
  have hrow : IResource.setRowSize numbers.m EntityHierarchyBlob.new =
      .ok { EntityHierarchyBlob.new with N := numbers.m } := rfl
  have hcolumn : IResource.setColumnSize numbers.n { EntityHierarchyBlob.new with N := numbers.m } =
      .ok { EntityHierarchyBlob.new with N := numbers.m, M := numbers.n } := rfl
  unfold ResourceLoader.fillResource
  rw [bind_ok (EStateM.run_get _), bind_ok (lift_ok hrow _), bind_ok (EStateM.run_set _ _),
    bind_ok (EStateM.run_get _), bind_ok (lift_ok hcolumn _), bind_ok (EStateM.run_set _ _)]
  rfl

/-- Loading the hierarchy from an open database: the stored hierarchy, or a
`std::runtime_error`, and then there is none. -/
theorem load_hierarchy {registry : ResourceLoader.Registry}
    (hc : registry ENTITY_HIERARCHY_BLOB_KEY = some (EntityHierarchyBlob.resourceClass J))
    {tables : Path → Option Table} {p : Path} {t : Table} (ht : tables p = some t)
    (hsound : ∀ r ∈ hierarchyRows (some t), r.Sound) (statements : Nat) :
    (∃ r, (ResourceLoader.load E registry ENTITY_HIERARCHY_BLOB_KEY).run
        (connected tables p statements) =
        .ok r (connected (Function.update tables p (some t)) p statements) ∧
      r.hierarchyTree = some (storedHierarchy J (some t))) ∨
    (∃ what, (ResourceLoader.load E registry ENTITY_HIERARCHY_BLOB_KEY).run
        (connected tables p statements) =
        .error (.runtimeError what) (connected (Function.update tables p (some t)) p statements) ∧
      storedHierarchy J (some t) = LTree.empty) := by
  have hrows : hierarchyRows (some t) = t.ofKey ENTITY_HIERARCHY_BLOB_KEY := rfl
  unfold storedHierarchy
  rw [hrows] at hsound ⊢
  cases hlast : (t.ofKey ENTITY_HIERARCHY_BLOB_KEY).getLast? with
  | none =>
    obtain ⟨what, hload⟩ := load_connected_none E registry hierarchyKey_ne_nil
      plainLiteral_hierarchyKey ht (List.getLast?_eq_none_iff.mp hlast) statements
    exact .inr ⟨what, hload, rfl⟩
  | some row =>
    have hrow := hsound row (List.mem_of_getLast? hlast)
    have hload := load_connected E hierarchyKey_ne_nil plainLiteral_hierarchyKey hc ht hsound
      hlast statements
    rw [show (EntityHierarchyBlob.resourceClass J).construct = EntityHierarchyBlob.new from rfl,
      fillResource_hierarchy] at hload
    cases hread : J.read (row.data.takeWhile (· != 0)) with
    | ok tree =>
      rw [assign_ok J hrow.pos hread] at hload
      refine .inl ⟨_, hload, ?_⟩
      simp only [hread]
    | error e =>
      rw [assign_error J hrow.pos hread] at hload
      refine .inr ⟨_, hload, ?_⟩
      simp only [hread]

theorem onResourceLoader_ok {α : Type} {x : EStateM Exception SqliteState α} {w : LoaderWorld}
    {s : SqliteState} {a : α} (h : x.run ⟨w.disk, w.resourceLoader⟩ = .ok a s) :
    (EntityLoader.onResourceLoader x).run w =
      .ok a { w with disk := s.disk, resourceLoader := s.sqlite } := by
  unfold EntityLoader.onResourceLoader
  rw [zoom_run, h]

theorem onResourceLoader_error {α : Type} {x : EStateM Exception SqliteState α} {w : LoaderWorld}
    {s : SqliteState} {e : Exception} (h : x.run ⟨w.disk, w.resourceLoader⟩ = .error e s) :
    (EntityLoader.onResourceLoader x).run w =
      .error e { w with disk := s.disk, resourceLoader := s.sqlite } := by
  unfold EntityLoader.onResourceLoader
  rw [zoom_run, h]

theorem EntityLoader.onDatabase_ok {α : Type} {x : EStateM Exception SqliteState α}
    {w : LoaderWorld} {s : SqliteState} {a : α} (h : x.run ⟨w.disk, w.database⟩ = .ok a s) :
    (onDatabase x).run w = .ok a { w with disk := s.disk, database := s.sqlite } := by
  unfold onDatabase
  rw [zoom_run, h]

theorem EntityLoader.onDatabase_error {α : Type} {x : EStateM Exception SqliteState α}
    {w : LoaderWorld} {s : SqliteState} {e : Exception} (h : x.run ⟨w.disk, w.database⟩ = .error e s) :
    (onDatabase x).run w = .error e { w with disk := s.disk, database := s.sqlite } := by
  unfold onDatabase
  rw [zoom_run, h]

/-- The registry in which `GetEntityHierarchyTree` looks the class of hierarchies up. -/
def registered (registry : ResourceLoader.Registry) : ResourceLoader.Registry :=
  if ResourceLoader.hasPersistenceKey registry ENTITY_HIERARCHY_BLOB_KEY then registry
  else Function.update registry ENTITY_HIERARCHY_BLOB_KEY
    (some (EntityHierarchyBlob.resourceClass J))

/-- The class of hierarchies is registered when there is none. -/
theorem EntityLoader.register_run {α : Type} (x : EStateM Exception LoaderWorld α)
    (w : LoaderWorld) :
    (do
      if !ResourceLoader.hasPersistenceKey w.registry ENTITY_HIERARCHY_BLOB_KEY then
        let registry ← lift (ResourceLoader.registerResource w.registry ENTITY_HIERARCHY_BLOB_KEY
          (EntityHierarchyBlob.resourceClass J))
        modify fun w => { w with registry := registry }
      x : EStateM Exception LoaderWorld α).run w =
      x.run { w with registry := registered J w.registry } := by
  cases hhas : ResourceLoader.hasPersistenceKey w.registry ENTITY_HIERARCHY_BLOB_KEY with
  | true =>
    simp only [registered, hhas, Bool.not_true, Bool.false_eq_true, if_false, if_true]
  | false =>
    have hregister : ResourceLoader.registerResource w.registry ENTITY_HIERARCHY_BLOB_KEY
        (EntityHierarchyBlob.resourceClass J) =
        .ok (Function.update w.registry ENTITY_HIERARCHY_BLOB_KEY
          (some (EntityHierarchyBlob.resourceClass J))) := by
      simp only [ResourceLoader.registerResource, if_neg hierarchyKey_ne_nil, hhas,
        Bool.false_eq_true, if_false]
      rfl
    simp only [registered, hhas, Bool.not_false, if_true, Bool.false_eq_true, if_false]
    rw [bind_ok (lift_ok hregister _), bind_ok (EStateM.run_modify _ _)]

theorem registered_eq {registry : ResourceLoader.Registry} (h : ReadsHierarchy J registry) :
    registered J registry = withHierarchyClass J registry := by
  unfold registered ResourceLoader.hasPersistenceKey
  rcases h with hnone | hsome
  · rw [hnone]
    rfl
  · rw [withHierarchyClass, ← hsome, Function.update_eq_self, ite_self]

theorem loadHierarchyTree_run {tables : Path → Option Table} {p : Path} {t : Table}
    (ht : tables p = some t) (hsound : ∀ r ∈ hierarchyRows (some t), r.Sound)
    (registry : ResourceLoader.Registry) (database : Sqlite) (h : EntityHierarchy) :
    (EntityLoader.loadHierarchyTree E false).run
        ⟨⟨tables, []⟩, ⟨some ⟨some p, 0⟩, p⟩, withHierarchyClass J registry, database, h⟩ =
      .ok (storedHierarchy J (some t))
        ⟨⟨Function.update tables p (some t), []⟩, ⟨none, p⟩, withHierarchyClass J registry,
          database, h⟩ := by
  have hload := load_hierarchy J E (Function.update_self _ _ _ :
    withHierarchyClass J registry _ = _) ht hsound 0
  have hclose := onResourceLoader_ok (w := ⟨⟨Function.update tables p (some t), []⟩,
    ⟨some ⟨some p, 0⟩, p⟩, withHierarchyClass J registry, database, h⟩)
    (closeDatabase_connected (Function.update tables p (some t)) p)
  unfold EntityLoader.loadHierarchyTree
  rw [bind_ok (EStateM.run_get _)]
  rcases hload with ⟨r, hok, htree⟩ | ⟨what, herror, hempty⟩
  · rw [bind_ok (attempt_ok (onResourceLoader_ok hok))]
    simp only [Bool.not_false, if_true, htree]
    exact bind_ok hclose
  · rw [bind_ok (attempt_error (onResourceLoader_error herror)), hempty]
    simp only [Bool.not_false, if_true]
    exact bind_ok hclose

/-- A `ResourceLoader` that had a database open keeps it open. -/
theorem loadHierarchyTree_open {tables : Path → Option Table} {p : Path} {t : Table}
    (ht : tables p = some t) (hsound : ∀ r ∈ hierarchyRows (some t), r.Sound) (statements : Nat)
    (registry : ResourceLoader.Registry) (database : Sqlite) (h : EntityHierarchy) :
    (EntityLoader.loadHierarchyTree E true).run
        ⟨⟨tables, []⟩, ⟨some ⟨some p, statements⟩, p⟩, withHierarchyClass J registry, database, h⟩ =
      .ok (storedHierarchy J (some t))
        ⟨⟨tables, []⟩, ⟨some ⟨some p, statements⟩, p⟩, withHierarchyClass J registry, database,
          h⟩ := by
  have hload := load_hierarchy J E (Function.update_self _ _ _ :
    withHierarchyClass J registry _ = _) ht hsound statements
  rw [← ht, Function.update_eq_self, ht] at hload
  unfold EntityLoader.loadHierarchyTree
  rw [bind_ok (EStateM.run_get _)]
  rcases hload with ⟨r, hok, htree⟩ | ⟨what, herror, hempty⟩
  · rw [bind_ok (attempt_ok (onResourceLoader_ok hok))]
    simp only [Bool.not_true, Bool.false_eq_true, if_false, htree]
    rfl
  · rw [bind_ok (attempt_error (onResourceLoader_error herror)), hempty]
    simp only [Bool.not_true, Bool.false_eq_true, if_false]
    rfl

/-- The registration of the class of hierarchies, when there is none. -/
theorem registerHierarchy_run {registry : ResourceLoader.Registry}
    (hregistry : ReadsHierarchy J registry) {α : Type} (x : EStateM Exception LoaderWorld α)
    (disk : Disk) (resourceLoader database : Sqlite) (h : EntityHierarchy) :
    (do
      if !ResourceLoader.hasPersistenceKey registry ENTITY_HIERARCHY_BLOB_KEY then
        let registry ← lift (ResourceLoader.registerResource registry ENTITY_HIERARCHY_BLOB_KEY
          (EntityHierarchyBlob.resourceClass J))
        modify fun w => { w with registry := registry }
      x : EStateM Exception LoaderWorld α).run ⟨disk, resourceLoader, registry, database, h⟩ =
      x.run ⟨disk, resourceLoader, withHierarchyClass J registry, database, h⟩ := by
  rw [← registered_eq J hregistry]
  exact EntityLoader.register_run J x ⟨disk, resourceLoader, registry, database, h⟩

/-- `GetEntityHierarchyTree` with a `ResourceLoader` that has a database open: the hierarchy of
that database. -/
theorem getEntityHierarchyTree_open {tables : Path → Option Table} {q : Path} {t : Table}
    (ht : tables q = some t) (hsound : ∀ r ∈ hierarchyRows (some t), r.Sound) (statements : Nat)
    {registry : ResourceLoader.Registry} (hregistry : ReadsHierarchy J registry)
    (database : Sqlite) (h : EntityHierarchy) :
    (EntityLoader.getEntityHierarchyTree J E).run
        ⟨⟨tables, []⟩, ⟨some ⟨some q, statements⟩, q⟩, registry, database, h⟩ =
      .ok (storedHierarchy J (some t))
        ⟨⟨tables, []⟩, ⟨some ⟨some q, statements⟩, q⟩, withHierarchyClass J registry, database,
          h⟩ := by
  have hload := loadHierarchyTree_open J E ht hsound statements registry database h
  unfold EntityLoader.getEntityHierarchyTree
  rw [bind_ok (EStateM.run_get _)]
  simp only [Sqlite.isOpen, Option.isSome_some, Bool.not_true, Bool.false_eq_true, if_false]
  exact (registerHierarchy_run J hregistry _ _ _ _ _).trans hload

/-- `GetEntityHierarchyTree` with a `ResourceLoader` that has no database open. -/
theorem getEntityHierarchyTree_run {tables : Path → Option Table} {p q : Path} (hp : p ≠ [])
    {registry : ResourceLoader.Registry} (hregistry : ReadsHierarchy J registry)
    (hsound : ∀ r ∈ hierarchyRows (tables p), r.Sound) (db : Option Connection)
    (h : EntityHierarchy) :
    (EntityLoader.getEntityHierarchyTree J E).run
        ⟨⟨tables, []⟩, ⟨none, q⟩, registry, ⟨db, p⟩, h⟩ =
      .ok (storedHierarchy J (tables p))
        ⟨⟨Function.update tables p (some ((tables p).getD Table.empty)), []⟩, ⟨none, p⟩,
          withHierarchyClass J registry, ⟨db, p⟩, h⟩ := by
  have hopen := openResourceDatabase_run E hp tables q
    "ResourceLoader already has a database set".toList
  have hload := loadHierarchyTree_run J E
    (Function.update_self p (some ((tables p).getD Table.empty)) tables) hsound registry ⟨db, p⟩ h
  rw [Function.update_idem] at hload
  unfold EntityLoader.getEntityHierarchyTree
  rw [bind_ok (EStateM.run_get _)]
  simp only [Sqlite.isOpen, Option.isSome_none, Bool.not_false, if_true]
  rw [bind_ok (onResourceLoader_ok hopen)]
  exact (registerHierarchy_run J hregistry _ _ _ _ _).trans hload

/-- `EntityLoader::OpenDatabase` makes the tree it gets its hierarchy. -/
theorem openDatabase_of_tree {tables : Path → Option Table} {p : Path} (hp : p ≠ [])
    {resourceLoader : Sqlite} {registry : ResourceLoader.Registry} {h : EntityHierarchy}
    {tree : Ptree} {w : LoaderWorld}
    (htree : (EntityLoader.getEntityHierarchyTree J E).run
      ⟨⟨tables, []⟩, resourceLoader, registry, ⟨some ⟨some p, 0⟩, p⟩, h⟩ = .ok tree w)
    (dbPath : Path) :
    (EntityLoader.openDatabase J E p).run
        ⟨⟨tables, []⟩, resourceLoader, registry, ⟨none, dbPath⟩, h⟩ =
      .ok () { w with hierarchy := { w.hierarchy with serializationStructure := tree } } := by
  have hopen : (EntityLoader.onDatabase (openPath p)).run
      ⟨⟨tables, []⟩, resourceLoader, registry, ⟨none, dbPath⟩, h⟩ =
        .ok () ⟨⟨tables, []⟩, resourceLoader, registry, ⟨some ⟨some p, 0⟩, p⟩, h⟩ := by
    exact EntityLoader.onDatabase_ok
      (w := ⟨⟨tables, []⟩, resourceLoader, registry, ⟨none, dbPath⟩, h⟩)
      (openPath_run hp tables ⟨none, dbPath⟩)
  unfold EntityLoader.openDatabase
  rw [bind_ok (EStateM.run_get _)]
  simp only [Sqlite.isOpen, Option.isSome_none, Bool.false_eq_true, if_false]
  rw [bind_ok hopen, bind_ok htree, EStateM.run_modify]

/-- `EntityLoader::OpenDatabase` with a `ResourceLoader` that has no database open reads the
stored hierarchy. -/
theorem openDatabase_run {tables : Path → Option Table} {p q : Path} (hp : p ≠ [])
    {registry : ResourceLoader.Registry} (hregistry : ReadsHierarchy J registry)
    (hsound : ∀ r ∈ hierarchyRows (tables p), r.Sound) (dbPath : Path) (h : EntityHierarchy) :
    (EntityLoader.openDatabase J E p).run
        ⟨⟨tables, []⟩, ⟨none, q⟩, registry, ⟨none, dbPath⟩, h⟩ =
      .ok () ⟨⟨Function.update tables p (some ((tables p).getD Table.empty)), []⟩, ⟨none, p⟩,
        withHierarchyClass J registry, ⟨some ⟨some p, 0⟩, p⟩,
        { h with serializationStructure := storedHierarchy J (tables p) }⟩ :=
  openDatabase_of_tree J E hp
    (getEntityHierarchyTree_run J E hp hregistry hsound (some ⟨some p, 0⟩) h) dbPath

end Azulejo
