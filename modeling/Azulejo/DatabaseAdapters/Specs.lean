import Azulejo.DatabaseAdapters.Calls
import Mathlib.Tactic.Ring

/-!
# The resource adapters on a connected database

One lemma for each operation, on a database that is open and when no call of the library
fails from outside: what it returns, and what it leaves in the table.
-/

namespace Azulejo

open Stateful Sqlite SqliteBlob

variable (E : SqliteEngine) (crc : List UInt8 → UInt32)

/-- The state of a `Sqlite` that has the file `p` open; no call is going to fail. -/
def connected (tables : Path → Option Table) (p : Path) (statements : Nat) : SqliteState :=
  ⟨⟨tables, []⟩, ⟨some ⟨some p, statements⟩, p⟩⟩

@[simp] theorem table_connected (tables : Path → Option Table) (p : Path) (n : Nat) :
    table (connected tables p n) = tables p := rfl

@[simp] theorem isOpen_connected (tables : Path → Option Table) (p : Path) (n : Nat) :
    (connected tables p n).sqlite.isOpen = true := rfl

theorem call_run {α : Type} {s : SqliteState} (h : s.disk.faults = [])
    (result : SqliteState → Except Str α) : (call result).run s = .ok (result s) s := by
  simp only [call, EStateM.run, h]

theorem call_connected {α : Type} (result : SqliteState → Except Str α)
    (tables : Path → Option Table) (p : Path) (n : Nat) :
    (call result).run (connected tables p n) =
      .ok (result (connected tables p n)) (connected tables p n) :=
  call_run rfl result

/-! ## Statements -/

/-- A statement that SQLite runs, and whose rows the callback accepts. -/
theorem execute_connected {β : Type} {sql : Str} {tables : Path → Option Table} {p : Path}
    {n : Nat} {t' : Option Table} {rows : List (List Str)}
    {rowCallback : β → List Str → Except Exception β} {b b' : β}
    (hexec : E.exec (cString sql) (tables p) = (t', .ok rows))
    (hrows : rows.foldlM rowCallback b = .ok b') :
    (execute E sql rowCallback b).run (connected tables p n) =
      .ok b' (connected (Function.update tables p t') p n) := by
  rw [execute_runs E (isOpen_connected tables p n) rfl rfl, table_connected, hexec]
  simp only [hrows]
  rfl

theorem openPath_run {p : Path} (hp : p ≠ []) (tables : Path → Option Table) (sqlite : Sqlite) :
    (openPath p).run ⟨⟨tables, []⟩, sqlite⟩ = .ok () (connected tables p 0) :=
  openPath_succeeds hp rfl

/-- `OpenDatabase` of a resource adapter: the table is there afterwards, with the rows it
had. -/
theorem openResourceDatabase_run {p : Path} (hp : p ≠ []) (tables : Path → Option Table)
    (dbPath : Path) (alreadyOpen : Str) :
    (openResourceDatabase E alreadyOpen p).run ⟨⟨tables, []⟩, ⟨none, dbPath⟩⟩ =
      .ok () (connected
        (Function.update tables p (some ((tables p).getD Table.empty))) p 0) :=
  openResourceDatabase_succeeds E rfl hp rfl rfl alreadyOpen

theorem closeDatabase_connected (tables : Path → Option Table) (p : Path) :
    closeDatabase.run (connected tables p 0) = .ok () ⟨⟨tables, []⟩, ⟨none, p⟩⟩ :=
  closeDatabase_opened ⟨tables, []⟩ p

/-! ## Persisting -/

theorem toInt_of_lt {size : UInt64} (h : size.toNat < 2 ^ 31) : toInt size = (size.toNat : Int) := by
  have hmod : size.toNat % 2 ^ 32 = size.toNat := Nat.mod_eq_of_lt (by omega)
  unfold toInt
  simp only [hmod, h, if_true]

/-- The insertion of a resource that fits the library's `int`s: one new row. -/
theorem insertBlob_connected {key : Str} (hkey : PlainLiteral key) {m n sizeOf size : UInt64}
    {bytes : List UInt8} (hpos : size ≠ 0) (hsize : size.toNat < 2 ^ 31)
    (hlength : size.toNat ≤ bytes.length) (hm : m.toNat < 2 ^ 63) (hn : n.toNat < 2 ^ 63)
    (hsizeOf : sizeOf.toNat < 2 ^ 63) {tables : Path → Option Table} {p : Path} {t : Table}
    (ht : tables p = some t) (hrow : t.lastRow + 1 < 2 ^ 63) (statements : Nat) :
    (insertBlob E (Sql.insertRow key m n sizeOf) (some bytes) size).run
        (connected tables p statements) =
      .ok () (connected (Function.update tables p (some
        (t.insert key m.toNat n.toNat sizeOf.toNat (bytes.take size.toNat)))) p statements) := by
  have hprepare : prepareV2 E (Sql.insertRow key m n sizeOf) (connected tables p statements) =
      .ok () := by
    rw [prepareV2_eq_ok, table_connected, cString_insertRow hkey, ht]
    exact ⟨rfl, E.prepare_insertRow key m n sizeOf t hkey⟩
  have hbind : E.bindBlob (cString (Sql.insertRow key m n sizeOf)) bytes (toInt size) =
      .ok (bytes.take size.toNat) := by
    have hlimit : size.toNat ≤ E.lengthLimit :=
      (Nat.le_sub_one_of_lt hsize).trans E.lengthLimit_largest
    rw [cString_insertRow hkey, toInt_of_lt hsize,
      E.bindBlob_insertRow key m n sizeOf bytes size.toNat hkey hlength hlimit]
  have hstep : E.step (cString (Sql.insertRow key m n sizeOf)) (bytes.take size.toNat) (tables p) =
      (some (t.insert key m.toNat n.toNat sizeOf.toNat (bytes.take size.toNat)), .ok ()) := by
    rw [cString_insertRow hkey, ht, E.step_insertRow key m n sizeOf _ t hkey hm hn hsizeOf hrow]
  rw [(insertBlob_eq_ok E).mpr ⟨rfl, hpos, by simp [connected], bytes, _, rfl,
    hprepare, hbind, by rw [table_connected, hstep], rfl⟩, inserted, table_connected, hstep]
  rfl

/-- A resource with data whose dimensions describe its bytes and, like their number, fit an
`int`. -/
structure FitsInt (r : IResource) (bytes : List UInt8) : Prop where
  data : r.data = some bytes
  length : bytes.length = r.M.toNat * r.N.toNat * r.elementSize.toNat
  pos : bytes ≠ []
  small : bytes.length < 2 ^ 31
  M : r.M.toNat < 2 ^ 31
  N : r.N.toNat < 2 ^ 31
  elementSize : r.elementSize.toNat < 2 ^ 31

theorem FitsInt.size_eq {r : IResource} {bytes : List UInt8} (h : FitsInt r bytes) :
    r.size.toNat = bytes.length := by
  have hsmall := h.small
  have hproduct : r.elementSize.toNat * r.M.toNat * r.N.toNat = bytes.length := by
    rw [h.length]
    ring
  rw [IResource.toNat_size, hproduct, Nat.mod_eq_of_lt (by omega)]

theorem FitsInt.bytes_eq {r : IResource} {bytes : List UInt8} (h : FitsInt r bytes) :
    r.bytes = bytes := by
  unfold IResource.bytes
  rw [h.data, Option.getD_some, h.size_eq, List.take_length]

theorem FitsInt.size_ne_zero {r : IResource} {bytes : List UInt8} (h : FitsInt r bytes) :
    r.size ≠ 0 := by
  intro hzero
  have hlength := h.size_eq
  rw [hzero] at hlength
  exact h.pos (List.eq_nil_of_length_eq_zero hlength.symm)

/-- `Persist` of a resource whose checksum changed records it before it inserts. -/
theorem persist_open {key : Str} (hne : key ≠ []) {s : PersistState}
    (hchanged : s.resource.checksum crc ≠ s.resource.checkSum)
    (hopen : s.database.sqlite.isOpen = true) :
    (ResourcePersister.persist E crc key).run s =
      (zoom PersistState.database (fun s database => { s with database := database })
        (insertBlob E (Sql.insertRow key s.resource.M s.resource.N s.resource.elementSize)
          s.resource.data s.resource.size)).run
        { s with resource :=
          { s.resource with checkSum := s.resource.checksum crc, dirty := true } } := by
  unfold ResourcePersister.persist
  rw [if_neg hne, bind_ok (EStateM.run_get _)]
  simp only [IResource.updateChecksum_changed hchanged]
  rw [bind_ok (EStateM.run_set _ _)]
  simp only [hopen, Bool.not_true, Bool.false_eq_true, if_false, if_true]
  rfl

theorem persist_closed {key : Str} (hne : key ≠ []) {s : PersistState}
    (hchanged : s.resource.checksum crc ≠ s.resource.checkSum)
    (hclosed : s.database.sqlite.isOpen = false) :
    ∃ err, (ResourcePersister.persist E crc key).run s = .error err
      { s with resource :=
        { s.resource with checkSum := s.resource.checksum crc, dirty := true } } := by
  unfold ResourcePersister.persist
  rw [if_neg hne, bind_ok (EStateM.run_get _)]
  simp only [IResource.updateChecksum_changed hchanged]
  rw [bind_ok (EStateM.run_set _ _)]
  simp only [hclosed, Bool.not_false, if_true]
  exact ⟨_, rfl⟩

/-- `Persist` of a resource whose checksum changed: one new row, with the column size as `m`
and the row size as `n`. -/
theorem persist_changed {key : Str} (hne : key ≠ []) (hkey : PlainLiteral key) {r : IResource}
    {bytes : List UInt8} (hr : FitsInt r bytes) (hchanged : r.checksum crc ≠ r.checkSum)
    {tables : Path → Option Table} {p : Path} {t : Table} (ht : tables p = some t)
    (hrow : t.lastRow + 1 < 2 ^ 63) (statements : Nat) :
    (ResourcePersister.persist E crc key).run ⟨connected tables p statements, r⟩ =
      .ok () ⟨connected (Function.update tables p (some
        (t.insert key r.M.toNat r.N.toNat r.elementSize.toNat bytes))) p statements,
        { r with checkSum := r.checksum crc, dirty := true }⟩ := by
  have hinsert := insertBlob_connected E hkey hr.size_ne_zero
    (by rw [hr.size_eq]; exact hr.small) (Nat.le_of_eq hr.size_eq)
    (Nat.lt_trans hr.M (by omega)) (Nat.lt_trans hr.N (by omega))
    (Nat.lt_trans hr.elementSize (by omega)) ht hrow statements
  rw [hr.size_eq, List.take_length, ← hr.data] at hinsert
  have hopens := @persist_open E crc key hne ⟨connected tables p statements, r⟩ hchanged
    (isOpen_connected tables p statements)
  rw [hopens]
  exact zoom_ok hinsert

/-- `Persist` of a resource whose checksum is the recorded one stores nothing. -/
theorem persist_unchanged {key : Str} (hne : key ≠ []) {r : IResource}
    (hsame : r.checksum crc = r.checkSum) (s : SqliteState) :
    (ResourcePersister.persist E crc key).run ⟨s, r⟩ = .ok () ⟨s, { r with dirty := false }⟩ := by
  unfold ResourcePersister.persist
  rw [if_neg hne, bind_ok (EStateM.run_get _)]
  simp only [IResource.updateChecksum_unchanged hsame]
  rw [bind_ok (EStateM.run_set _ _)]
  rfl

/-- `Load` of the persister: the rows of the key are gone. -/
theorem unpersist_connected {key : Str} (hne : key ≠ []) (hkey : PlainLiteral key)
    {tables : Path → Option Table} {p : Path} {t : Table} (ht : tables p = some t)
    (statements : Nat) :
    (ResourcePersister.unpersist E key).run (connected tables p statements) =
      .ok () (connected (Function.update tables p (some (t.delete key))) p statements) := by
  have hexec : E.exec (cString (Sql.deleteKey key)) (tables p) = (some (t.delete key), .ok []) := by
    rw [cString_deleteKey hkey, ht, E.exec_deleteKey key t hkey]
  unfold ResourcePersister.unpersist
  rw [if_neg hne, bind_ok (EStateM.run_get _)]
  simp only [isOpen_connected, Bool.not_true, Bool.false_eq_true, if_false]
  exact execute_connected E hexec rfl

/-! ## What a returned `Persist` has done -/

theorem of_table_eq_some {s : SqliteState} {t : Table} (h : table s = some t) :
    ∃ file statements, s.sqlite.db = some ⟨some file, statements⟩ ∧ s.disk.tables file = some t := by
  obtain ⟨disk, ⟨db, dbPath⟩⟩ := s
  cases db with
  | none => cases h
  | some connection =>
    obtain ⟨file, statements⟩ := connection
    cases file with
    | none => cases h
    | some file => exact ⟨file, statements, rfl, h⟩

theorem tables_setTable {s : SqliteState} {file : Path} {statements : Nat}
    (h : s.sqlite.db = some ⟨some file, statements⟩) (t : Option Table) :
    (setTable t s).disk.tables = Function.update s.disk.tables file t := by
  simp only [setTable, h]

/-- The statement is accepted only when the table is there. -/
theorem of_prepare_insertRow {key : Str} (hkey : PlainLiteral key) {m n sizeOf : UInt64}
    {t : Option Table} (h : E.prepare (cString (Sql.insertRow key m n sizeOf)) t = .ok ()) :
    ∃ t', t = some t' := by
  cases t with
  | some t' => exact ⟨t', rfl⟩
  | none =>
    obtain ⟨what, hnone⟩ := E.prepare_insertRow_none key m n sizeOf hkey
    rw [cString_insertRow hkey, hnone] at h
    cases h

/-- The statement succeeds only by inserting the row. -/
theorem of_step_insertRow {key : Str} (hkey : PlainLiteral key) {m n sizeOf : UInt64}
    (hm : m.toNat < 2 ^ 63) (hn : n.toNat < 2 ^ 63) (hsizeOf : sizeOf.toNat < 2 ^ 63)
    {data : List UInt8} {t : Table} {t' : Option Table}
    (h : E.step (cString (Sql.insertRow key m n sizeOf)) data (some t) = (t', .ok ())) :
    t' = some (t.insert key m.toNat n.toNat sizeOf.toNat data) := by
  rw [cString_insertRow hkey] at h
  by_cases hrow : t.lastRow + 1 < 2 ^ 63
  · rw [E.step_insertRow key m n sizeOf data t hkey hm hn hsizeOf hrow] at h
    cases h
    rfl
  · obtain ⟨t'', what, hfull⟩ :=
      E.step_insertRow_full key m n sizeOf data t hkey (Nat.not_lt.mp hrow)
    rw [hfull] at h
    cases h

/-- Without data there is nothing to insert. -/
theorem insertBlob_zero (sql : Str) (bytes : List UInt8) (s : SqliteState) :
    ∃ e, (insertBlob E sql (some bytes) 0).run s = .error e s := ⟨_, rfl⟩

/-- `SqliteBlob::InsertBlob` returns only after it has inserted the row into the table of the
open file. -/
theorem of_insertBlob_ok {key : Str} (hkey : PlainLiteral key) {m n sizeOf size : UInt64}
    {bytes : List UInt8} (hsize : size.toNat < 2 ^ 31) (hlength : size.toNat ≤ bytes.length)
    (hm : m.toNat < 2 ^ 63) (hn : n.toNat < 2 ^ 63) (hsizeOf : sizeOf.toNat < 2 ^ 63)
    {s s' : SqliteState}
    (h : (insertBlob E (Sql.insertRow key m n sizeOf) (some bytes) size).run s = .ok () s') :
    size ≠ 0 ∧ ∃ file statements t, s.sqlite.db = some ⟨some file, statements⟩ ∧
      s.disk.tables file = some t ∧ s'.disk.tables = Function.update s.disk.tables file
        (some (t.insert key m.toNat n.toNat sizeOf.toNat (bytes.take size.toNat))) := by
  obtain ⟨_, hpos, _, _, bound, hdata, hprepare, hbind, hstep, rfl⟩ := (insertBlob_eq_ok E).mp h
  cases hdata
  obtain ⟨t, ht⟩ := of_prepare_insertRow E hkey ((prepareV2_eq_ok E).mp hprepare).2
  obtain ⟨file, statements, hdb, htable⟩ := of_table_eq_some ht
  rw [toInt_of_lt hsize] at hbind
  obtain rfl := E.bindBlob_exact _ bytes size.toNat bound hlength hbind
  rw [ht] at hstep
  have hrow : (E.step (cString (Sql.insertRow key m n sizeOf)) (bytes.take size.toNat)
      (some t)).1 = some (t.insert key m.toNat n.toNat sizeOf.toNat (bytes.take size.toNat)) :=
    of_step_insertRow E hkey hm hn hsizeOf (Prod.ext rfl hstep)
  refine ⟨hpos, file, statements, t, hdb, htable, ?_⟩
  rw [inserted, ht, hrow]
  exact tables_setTable (s := takeFault (takeFault (takeFault s))) hdb _

/-- `Persist` returns without a write when the checksum is the recorded one, and otherwise
only after the insertion. -/
theorem of_persist_ok {key : Str} {s s' : PersistState}
    (h : (ResourcePersister.persist E crc key).run s = .ok () s') :
    (s.resource.checksum crc = s.resource.checkSum ∧ s'.database = s.database) ∨
    (s.resource.checksum crc ≠ s.resource.checkSum ∧
      (insertBlob E (Sql.insertRow key s.resource.M s.resource.N s.resource.elementSize)
        s.resource.data s.resource.size).run s.database = .ok () s'.database) := by
  by_cases hne : key = []
  · unfold ResourcePersister.persist at h
    rw [if_pos hne] at h
    cases h
  by_cases hsame : s.resource.checksum crc = s.resource.checkSum
  · left
    rw [persist_unchanged E crc hne hsame] at h
    cases h
    exact ⟨hsame, rfl⟩
  · right
    cases hopen : s.database.sqlite.isOpen with
    | false =>
      obtain ⟨err, hthrows⟩ := persist_closed E crc hne hsame hopen
      rw [hthrows] at h
      cases h
    | true =>
      rw [persist_open E crc hne hsame hopen] at h
      obtain ⟨database, hinsert, rfl⟩ := of_zoom_ok h
      exact ⟨hsame, hinsert⟩

/-! ## Loading -/

theorem Table.ofKey_insert_self (t : Table) (key : Str) (m n sizeOf : Nat) (data : List UInt8) :
    (t.insert key m n sizeOf data).ofKey key =
      t.ofKey key ++ [⟨t.lastRow + 1, key, m, n, sizeOf, data⟩] := by
  simp [Table.ofKey, Table.insert]

theorem Table.ofKey_insert_ne (t : Table) {key key' : Str} (h : key' ≠ key) (m n sizeOf : Nat)
    (data : List UInt8) : (t.insert key' m n sizeOf data).ofKey key = t.ofKey key := by
  simp [Table.ofKey, Table.insert, h]

theorem Table.ofKey_delete_self (t : Table) (key : Str) : (t.delete key).ofKey key = [] := by
  simp [Table.ofKey, Table.delete, List.filter_filter]

theorem Table.ofKey_delete_ne (t : Table) {key key' : Str} (h : key' ≠ key) :
    (t.delete key').ofKey key = t.ofKey key := by
  unfold Table.ofKey Table.delete
  rw [List.filter_filter]
  apply List.filter_congr
  intro r _
  by_cases hr : r.resourceKey = key
  · simp [hr, h.symm]
  · simp [hr]

/-- A row whose numbers fit an `int` and describe its data. -/
structure Row.Sound (r : Row) : Prop where
  row : r.row < 2 ^ 31
  m : r.m < 2 ^ 31
  n : r.n < 2 ^ 31
  sizeOf : r.sizeOf < 2 ^ 31
  length : r.data.length = r.m * r.n * r.sizeOf
  pos : r.data ≠ []
  small : r.data.length < 2 ^ 31

theorem stoi_ofNat {n : Nat} (h : n < 2 ^ 31) : stoi (DecimalText.ofNat n) = .ok (n : Int) := by
  unfold stoi
  rw [DecimalText.scanInt_ofNat]
  have hrange : -(2 ^ 31) ≤ (n : Int) ∧ (n : Int) < 2 ^ 31 := by
    constructor
    · omega
    · omega
  simp only [if_pos hrange]
  rfl

/-- What the row callback takes from a row. -/
def Row.numbers (r : Row) : RowNumbers :=
  ⟨r.row, UInt64.ofNat r.m, UInt64.ofNat r.n, UInt64.ofNat r.sizeOf⟩

theorem ofInt_natCast (n : Nat) : UInt64.ofInt (n : Int) = UInt64.ofNat n := by
  apply UInt64.toNat_inj.mp
  simp only [UInt64.ofInt, UInt64.toNat_ofNat']
  omega

theorem pKeyHandler_columns {r : Row} (h : r.Sound) (old : RowNumbers) :
    pKeyHandler old r.columns = .ok r.numbers := by
  unfold pKeyHandler
  simp only [Row.columns, List.getD_cons_succ, List.getD_cons_zero, stoi_ofNat h.row,
    stoi_ofNat h.m, stoi_ofNat h.n, stoi_ofNat h.sizeOf]
  show Except.ok (RowNumbers.mk _ _ _ _) = _
  rw [ofInt_natCast, ofInt_natCast, ofInt_natCast]
  rfl

/-- The callback ends with the numbers of the last row. -/
theorem foldlM_pKeyHandler {rows : List Row} (h : ∀ r ∈ rows, r.Sound) (init : RowNumbers) :
    (rows.map Row.columns).foldlM pKeyHandler init =
      .ok ((rows.getLast?.map Row.numbers).getD init) := by
  induction rows generalizing init with
  | nil => rfl
  | cons r rows ih =>
    rw [List.map_cons, List.foldlM_cons, pKeyHandler_columns (h r List.mem_cons_self)]
    show (rows.map Row.columns).foldlM pKeyHandler r.numbers = _
    rw [ih (fun s hs => h s (List.mem_cons_of_mem r hs)), List.getLast?_cons]
    cases rows.getLast? <;> rfl

theorem find?_row {rows : List Row} (hinc : rows.Pairwise fun r s => r.row < s.row) {r : Row}
    (h : r ∈ rows) : rows.find? (fun s => (s.row : Int) == (r.row : Int)) = some r := by
  induction rows with
  | nil => cases h
  | cons s rows ih =>
    rw [List.pairwise_cons] at hinc
    rcases List.mem_cons.mp h with rfl | hmem
    · simp
    · have hlt : s.row < r.row := hinc.1 r hmem
      have hne : ((s.row : Int) == (r.row : Int)) = false := by
        simp only [beq_eq_false_iff_ne]
        omega
      rw [List.find?_cons, hne]
      exact ih hinc.2 hmem

theorem Table.rowById_of_mem {t : Table} {r : Row} (h : r ∈ t.rows) :
    t.rowById (r.row : Int) = some r :=
  find?_row t.increasing h

theorem Table.mem_of_ofKey {t : Table} {key : Str} {r : Row} (h : r ∈ t.ofKey key) :
    r ∈ t.rows :=
  List.mem_of_mem_filter h

/-- The buffer `Load` reads for a sound row is the row's data. -/
theorem size_numbers {r : Row} (h : r.Sound) :
    (r.numbers.m * r.numbers.n * r.numbers.sizeOf).toNat = r.data.length := by
  have hsmall := h.small
  rw [h.length] at hsmall ⊢
  have hm := h.m
  have hn := h.n
  have hs := h.sizeOf
  have hmn : r.m * r.n < 2 ^ 62 := by
    have := Nat.mul_lt_mul'' hm hn
    omega
  simp only [Row.numbers, UInt64.toNat_mul, UInt64.toNat_ofNat']
  rw [Nat.mod_eq_of_lt (show r.m < 2 ^ 64 by omega), Nat.mod_eq_of_lt (show r.n < 2 ^ 64 by omega),
    Nat.mod_eq_of_lt (show r.sizeOf < 2 ^ 64 by omega),
    Nat.mod_eq_of_lt (show r.m * r.n < 2 ^ 64 by omega), Nat.mod_eq_of_lt (by omega)]

theorem read_connected {cell : List UInt8} {size : UInt64} (hsize : size.toNat = cell.length)
    (hpos : cell ≠ []) (hsmall : cell.length < 2 ^ 31) (tables : Path → Option Table) (p : Path)
    (statements : Nat) :
    (SqliteBlob.read E cell size 0).run (connected tables p statements) =
      .ok cell (connected tables p statements) := by
  have hne : size ≠ 0 := by
    intro hzero
    rw [hzero] at hsize
    exact hpos (List.eq_nil_of_length_eq_zero hsize.symm)
  have hread := E.blobRead_inside cell cell.length 0 (by omega)
  rw [List.drop_zero, List.take_length, Nat.cast_zero] at hread
  have hfits : ¬ 2 ^ 63 ≤ size.toNat := by omega
  unfold SqliteBlob.read
  simp only [if_neg hne, Int.lt_irrefl, if_neg hfits, if_false]
  rw [bind_ok (call_connected _ tables p statements)]
  simp only
  rw [bind_ok (call_connected _ tables p statements)]
  simp only [toInt_of_lt (show size.toNat < 2 ^ 31 by omega), hsize, hread, Nat.sub_self,
    List.replicate_zero, List.append_nil]
  rfl

/-- `Load` of a key with rows: the new resource is filled from the last of them. -/
theorem load_connected {registry : ResourceLoader.Registry} {key : Str} {c : ResourceClass}
    (hne : key ≠ []) (hkey : PlainLiteral key) (hc : registry key = some c)
    {tables : Path → Option Table} {p : Path} {t : Table} (ht : tables p = some t)
    (hsound : ∀ r ∈ t.ofKey key, r.Sound) {r : Row} (hlast : (t.ofKey key).getLast? = some r)
    (statements : Nat) :
    (ResourceLoader.load E registry key).run (connected tables p statements) =
      match (ResourceLoader.fillResource r.numbers r.data c).run c.construct with
      | .ok () resource =>
        .ok resource (connected (Function.update tables p (some t)) p statements)
      | .error e _ => .error e (connected (Function.update tables p (some t)) p statements) := by
  have hmem : r ∈ t.ofKey key := List.mem_of_getLast? hlast
  have hr : r.Sound := hsound r hmem
  have hexec : E.exec (cString (Sql.selectKey key)) (tables p) =
      (some t, .ok ((t.ofKey key).map Row.columns)) := by
    rw [cString_selectKey hkey, ht, E.exec_selectKey key t hkey]
  have hrows : ((t.ofKey key).map Row.columns).foldlM pKeyHandler ⟨-1, 0, 0, 0⟩ =
      .ok r.numbers := by
    rw [foldlM_pKeyHandler hsound, hlast]
    rfl
  have hblob : E.blobOpen Sql.tableName Sql.dataKey r.numbers.iRow (some t) = .ok r.data :=
    E.blobOpen_some t _ r (Table.rowById_of_mem (Table.mem_of_ofKey hmem))
  have hopen : (openBlob E Sql.tableName Sql.dataKey r.numbers.iRow).run
        (connected (Function.update tables p (some t)) p statements) =
      .ok r.data (connected (Function.update tables p (some t)) p statements) := by
    unfold openBlob
    rw [bind_ok (call_connected _ _ p statements)]
    simp only [table_connected, Function.update_self, hblob]
    rfl
  have hgen : ResourceLoader.generateResource registry key = .ok c := by
    simp only [ResourceLoader.generateResource, if_neg hne, hc]
    rfl
  unfold ResourceLoader.load
  rw [if_neg hne, bind_ok (EStateM.run_get _)]
  simp only [isOpen_connected, Bool.not_true, Bool.false_eq_true, if_false]
  rw [bind_ok (execute_connected E hexec hrows), bind_ok hopen,
    bind_ok (read_connected E (size_numbers hr) hr.pos hr.small _ p statements),
    bind_ok (lift_ok hgen _)]
  cases (ResourceLoader.fillResource r.numbers r.data c).run c.construct <;> rfl

/-- Ids are natural numbers, so there is no row -1. -/
theorem Table.rowById_neg_one (t : Table) : t.rowById (-1) = none := by
  apply List.find?_eq_none.mpr
  intro r _
  have hne : (r.row : Int) ≠ -1 := by omega
  simp [hne]

/-- `Load` of a key without rows throws. -/
theorem load_connected_none (registry : ResourceLoader.Registry) {key : Str} (hne : key ≠ [])
    (hkey : PlainLiteral key) {tables : Path → Option Table} {p : Path} {t : Table}
    (ht : tables p = some t) (hnone : t.ofKey key = []) (statements : Nat) :
    ∃ what, (ResourceLoader.load E registry key).run (connected tables p statements) =
      .error (.runtimeError what)
        (connected (Function.update tables p (some t)) p statements) := by
  have hexec : E.exec (cString (Sql.selectKey key)) (tables p) = (some t, .ok []) := by
    rw [cString_selectKey hkey, ht, E.exec_selectKey key t hkey, hnone]
    rfl
  obtain ⟨what, hblob⟩ := E.blobOpen_none t (-1) t.rowById_neg_one
  refine ⟨"Could not open SQLite3 blob at ".toList ++ Sql.tableName ++ " col=".toList ++
    Sql.dataKey ++ " row=".toList ++ DecimalText.ofInt (-1), ?_⟩
  have hopen : (openBlob E Sql.tableName Sql.dataKey (-1)).run
        (connected (Function.update tables p (some t)) p statements) =
      .error (.runtimeError ("Could not open SQLite3 blob at ".toList ++ Sql.tableName ++
          " col=".toList ++ Sql.dataKey ++ " row=".toList ++ DecimalText.ofInt (-1)))
        (connected (Function.update tables p (some t)) p statements) := by
    unfold openBlob
    rw [bind_ok (call_connected _ _ p statements)]
    simp only [table_connected, Function.update_self, hblob]
    rfl
  unfold ResourceLoader.load
  rw [if_neg hne, bind_ok (EStateM.run_get _)]
  simp only [isOpen_connected, Bool.not_true, Bool.false_eq_true, if_false]
  rw [bind_ok (execute_connected E hexec (show List.foldlM pKeyHandler _ [] = .ok _ from rfl)),
    bind_error hopen]

end Azulejo
