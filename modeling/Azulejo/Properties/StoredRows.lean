import Azulejo.DatabaseAdapters.RowStore
import Azulejo.DatabaseAdapters.TableSpecs
import Azulejo.Properties.ResourceTable
import Azulejo.Properties.WriteThrough

/-!
# The databases hold the map

Over any run of calls on any resources, keys and databases, of which any may fail at any call of
the library, also when the program is ended and started again, the tables hold what the map says.
So `Load` returns what was stored last, and throws when there is nothing.
-/

namespace Azulejo

open Stateful Sqlite SqliteBlob

variable {E : SqliteEngine} {crc : List UInt8 → UInt32}

/-! ## Rows -/

/-- The tables hold what the map says, and their rows can be read; no id is larger than `limit`. -/
structure RowsHold (rows : StoredRows) (limit : Nat) (tables : Path → Option Table) : Prop where
  last : ∀ file key,
    ((tables file).bind fun t => (t.ofKey key).getLast?.map Row.data) = rows file key
  sound : ∀ file t, tables file = some t → ∀ row ∈ t.rows, row.Sound
  ids : ∀ file t, tables file = some t → t.lastRow ≤ limit

theorem RowsHold.mono {rows : StoredRows} {limit limit' : Nat} {tables : Path → Option Table}
    (h : RowsHold rows limit tables) (hle : limit ≤ limit') : RowsHold rows limit' tables :=
  ⟨h.last, h.sound, fun file t ht => le_trans (h.ids file t ht) hle⟩

section

variable {rows : StoredRows} {limit : Nat} {tables : Path → Option Table}

/-- A database that is opened has its table. -/
theorem RowsHold.created (h : RowsHold rows limit tables) (p : Path) :
    RowsHold rows limit (Function.update tables p (some ((tables p).getD Table.empty))) := by
  have hcases : ∀ file t, Function.update tables p (some ((tables p).getD Table.empty)) file =
      some t → tables file = some t ∨ t = Table.empty := by
    intro file t ht
    by_cases hfile : file = p
    · subst hfile
      rw [Function.update_self] at ht
      cases htable : tables file with
      | none => exact Or.inr (by rw [htable] at ht; exact (Option.some.inj ht).symm)
      | some t' => exact Or.inl (by rw [htable] at ht; exact ht)
    · rw [Function.update_of_ne hfile] at ht
      exact Or.inl ht
  refine ⟨fun file key => ?_, fun file t ht => ?_, fun file t ht => ?_⟩
  · rw [← h.last file key]
    by_cases hfile : file = p
    · subst hfile
      rw [Function.update_self]
      cases tables file <;> rfl
    · rw [Function.update_of_ne hfile]
  · rcases hcases file t ht with hold | rfl
    · exact h.sound file t hold
    · nofun
  · rcases hcases file t ht with hold | rfl
    · exact h.ids file t hold
    · exact Nat.zero_le limit

/-- One table is changed, and with it the rows of one key. -/
theorem RowsHold.changed (h : RowsHold rows limit tables) {file : Path} {t : Table}
    (ht : tables file = some t) (t' : Table) (key : Str)
    (hothers : ∀ key', key' ≠ key → t'.ofKey key' = t.ofKey key')
    (hsound : ∀ row ∈ t'.rows, row.Sound) (hids : t'.lastRow ≤ limit + 1) :
    RowsHold (Function.update rows file (Function.update (rows file) key
        ((t'.ofKey key).getLast?.map Row.data))) (limit + 1)
      (Function.update tables file (some t')) := by
  refine ⟨fun file' key' => ?_, fun file' t'' ht' => ?_, fun file' t'' ht' => ?_⟩
  · by_cases hfile : file' = file
    · subst hfile
      rw [Function.update_self, Function.update_self, Option.bind_some]
      by_cases hkey : key' = key
      · rw [hkey, Function.update_self]
      · rw [Function.update_of_ne hkey, hothers key' hkey, ← h.last file' key', ht]
        rfl
    · rw [Function.update_of_ne hfile, Function.update_of_ne hfile]
      exact h.last file' key'
  · by_cases hfile : file' = file
    · subst hfile
      rw [Function.update_self] at ht'
      cases ht'
      exact hsound
    · rw [Function.update_of_ne hfile] at ht'
      exact h.sound file' t'' ht'
  · by_cases hfile : file' = file
    · subst hfile
      rw [Function.update_self] at ht'
      cases ht'
      exact hids
    · rw [Function.update_of_ne hfile] at ht'
      exact le_trans (h.ids file' t'' ht') (Nat.le_succ limit)

theorem RowsHold.inserted (h : RowsHold rows limit tables) {file : Path} {t : Table}
    (ht : tables file = some t) (key : Str) {r : IResource} {bytes : List UInt8}
    (hr : FitsInt r bytes) (hlimit : limit + 1 < 2 ^ 31) :
    RowsHold (rows.apply (.put file key bytes)) (limit + 1) (Function.update tables file
      (some (t.insert key r.M.toNat r.N.toNat r.elementSize.toNat bytes))) := by
  have hids := h.ids file t ht
  have hchanged := h.changed ht
    (t.insert key r.M.toNat r.N.toNat r.elementSize.toNat bytes) key
    (fun key' hne => Table.ofKey_insert_ne t (Ne.symm hne) _ _ _ _) ?_ (Nat.succ_le_succ hids)
  · rw [Table.ofKey_insert_self, List.getLast?_concat] at hchanged
    exact hchanged
  · intro row hrow
    rcases List.mem_append.mp hrow with hold | hnew
    · exact h.sound file t ht row hold
    · rw [List.mem_singleton.mp hnew]
      exact ⟨by show t.lastRow + 1 < 2 ^ 31; omega, hr.M, hr.N, hr.elementSize, hr.length, hr.pos,
        hr.small⟩

theorem RowsHold.deleted (h : RowsHold rows limit tables) {file : Path} {t : Table}
    (ht : tables file = some t) (key : Str) :
    RowsHold (rows.apply (.remove file key)) (limit + 1)
      (Function.update tables file (some (t.delete key))) := by
  have hchanged := h.changed ht (t.delete key) key
    (fun key' hne => Table.ofKey_delete_ne t (Ne.symm hne))
    (fun row hrow => h.sound file t ht row (List.mem_of_mem_filter hrow))
    (le_trans (h.ids file t ht) (Nat.le_succ limit))
  rw [Table.ofKey_delete_self] at hchanged
  exact hchanged

end

/-! ## Persisting -/

/-- The resource has no data, or its dimensions describe its bytes, which are not too many for an
`int`. -/
def Describes (r : IResource) : Prop := r.data = none ∨ ∃ bytes, Small r bytes

theorem Small.nonempty {r : IResource} {bytes : List UInt8} (h : Small r bytes) (hsize : r.size ≠ 0) :
    bytes ≠ [] := by
  rintro rfl
  refine hsize (UInt64.toNat_inj.mp ?_)
  have hlength := h.length
  rw [List.length_nil] at hlength
  rw [IResource.toNat_size, Nat.mul_assoc, Nat.mul_comm, ← hlength]
  rfl

theorem Describes.fitsInt {r : IResource} (h : Describes r) (hsize : r.size ≠ 0)
    (hdata : r.data ≠ none) : ∃ bytes, FitsInt r bytes := by
  rcases h with hnone | ⟨bytes, hsmall⟩
  · exact absurd hnone hdata
  · exact ⟨bytes, hsmall.fitsInt (hsmall.nonempty hsize)⟩

/-- How `Persist` ends: with an exception and the tables as they were, with nothing to write, or
with a new row in the table of the open file. -/
theorem persist_ends (E : SqliteEngine) (crc : List UInt8 → UInt32) {key : Str}
    (hkey : PlainLiteral key) {s : PersistState} (hr : Describes s.resource)
    (hrow : ∀ t, table s.database = some t → t.lastRow + 1 < 2 ^ 63) :
    (∃ e s', (ResourcePersister.persist E crc key).run s = .error e s' ∧
        s'.database.disk.tables = s.database.disk.tables) ∨
      (∃ s', (ResourcePersister.persist E crc key).run s = .ok () s' ∧
        s.resource.checksum crc = s.resource.checkSum ∧ s'.database = s.database) ∨
      ∃ s' bytes file statements t, (ResourcePersister.persist E crc key).run s = .ok () s' ∧
        s.resource.checksum crc ≠ s.resource.checkSum ∧ FitsInt s.resource bytes ∧
        s.database.sqlite.db = some ⟨some file, statements⟩ ∧
        s.database.disk.tables file = some t ∧
        s'.database.disk.tables = Function.update s.database.disk.tables file
          (some (t.insert key s.resource.M.toNat s.resource.N.toNat
            s.resource.elementSize.toNat bytes)) := by
  cases hrun : (ResourcePersister.persist E crc key).run s with
  | error e s' =>
    refine Or.inl ⟨e, s', rfl, persist_error_tables hkey (fun hsize hdata => ?_) hrow hrun⟩
    obtain ⟨bytes, hfits⟩ := hr.fitsInt hsize hdata
    exact ⟨hfits.M.trans (by decide), hfits.N.trans (by decide), hfits.elementSize.trans (by decide)⟩
  | ok u s' =>
    rcases of_persist_ok E crc hrun with ⟨hsame, hkeeps⟩ | ⟨hchanged, hinsert⟩
    · exact Or.inr (Or.inl ⟨s', rfl, hsame, hkeeps⟩)
    · obtain ⟨-, hsize, -, data, -, hdata, -⟩ := (insertBlob_eq_ok E).mp hinsert
      obtain ⟨bytes, hfits⟩ := hr.fitsInt hsize (by rw [hdata]; exact Option.some_ne_none _)
      rw [hfits.data] at hinsert
      have hlength := hfits.size_eq
      obtain ⟨-, file, statements, t, hdb, ht, htables⟩ := of_insertBlob_ok E hkey
        (by rw [hlength]; exact hfits.small) (Nat.le_of_eq hlength) (hfits.M.trans (by decide))
        (hfits.N.trans (by decide)) (hfits.elementSize.trans (by decide)) hinsert
      rw [hlength, List.take_length] at htables
      exact Or.inr (Or.inr ⟨s', bytes, file, statements, t, rfl, hchanged, hfits, hdb, ht, htables⟩)

namespace RowStore

/-! ## One call -/

/-- The keys hold no quotes, and resources that are persisted are not too large. -/
def Plain (s : RowStore) : RowStoreCall × List (Option Str) → Prop
  | (.persist i key, _) => PlainLiteral key ∧ Describes (s.resources i)
  | (.unpersist key, _) => PlainLiteral key
  | (.load key, _) => PlainLiteral key
  | _ => True

variable (crc) {registry : ResourceLoader.Registry}

theorem rowsHold_step (hE : RefusesMissingTable E) {rows : StoredRows} {limit : Nat} {s : RowStore}
    (h : RowsHold rows limit s.tables) {c : RowStoreCall × List (Option Str)} (hc : s.Plain c)
    (hlimit : limit + 1 < 2 ^ 31) :
    RowsHold (Runs.run StoredRows.apply rows (s.operations E crc c)) (limit + 1)
      (s.step E crc registry c).tables := by
  have hkeeps := h.mono (Nat.le_succ limit)
  have hopens : ∀ (p : Path) (tables : Path → Option Table),
      tables = s.tables ∨
        tables = Function.update s.tables p (some ((s.tables p).getD Table.empty)) →
      RowsHold rows (limit + 1) tables := by
    rintro p tables (rfl | rfl)
    · exact hkeeps
    · exact hkeeps.created p
  obtain ⟨call, faults⟩ := c
  cases call with
  | mutate i M N data => exact hkeeps
  | openPersister dbPath => exact hopens dbPath _ (openResourceDatabase_tables _ _ _)
  | openLoader dbPath => exact hopens dbPath _ (openResourceDatabase_tables _ _ _)
  | closePersister =>
    rw [show (s.step E crc registry (.closePersister, faults)).tables = s.tables from
      closeDatabase_tables (s.atPersister faults)]
    exact hkeeps
  | closeLoader =>
    rw [show (s.step E crc registry (.closeLoader, faults)).tables = s.tables from
      closeDatabase_tables (s.atLoader faults)]
    exact hkeeps
  | restart resources => exact hkeeps
  | load key =>
    rw [show (s.step E crc registry (.load key, faults)).tables = s.tables from
      load_tables hE registry hc (s.atLoader faults)]
    exact hkeeps
  | unpersist key =>
    rcases unpersist_ends hE hc (s.atPersister faults) with
      ⟨e, s', hrun, htables⟩ | ⟨s', file, statements, t, hrun, hdb, ht, htables⟩
    · simp only [operations, step, hrun, Runs.run]
      rw [show (s.withPersister (finalState (.error e s'))).tables = s.tables from htables]
      exact hkeeps
    · have hfile : connectedFile s.persister = some file := by
        rw [connectedFile, show s.persister.db = _ from hdb]
        rfl
      simp only [operations, step, hrun, hfile, Option.toList_some, List.map_cons, List.map_nil,
        Runs.run]
      rw [show (s.withPersister (finalState (.ok () s'))).tables = _ from htables]
      exact h.deleted ht key
  | persist i key =>
    obtain ⟨hkey, hr⟩ := hc
    have hrow : ∀ t, table (s.atPersister faults) = some t → t.lastRow + 1 < 2 ^ 63 := by
      intro t htable
      obtain ⟨file, -, -, ht⟩ := of_table_eq_some htable
      have hids := h.ids file t ht
      omega
    rcases persist_ends E crc hkey (s := ⟨s.atPersister faults, s.resources i⟩) hr hrow with
      ⟨e, s', hrun, htables⟩ | ⟨s', hrun, hsame, hdatabase⟩ |
      ⟨s', bytes, file, statements, t, hrun, hchanged, hfits, hdb, ht, htables⟩
    · simp only [operations, step, hrun, Runs.run]
      rw [show (s.withPersister (finalState (.error e s')).database).tables = s.tables from htables]
      exact hkeeps
    · simp only [operations, step, hrun]
      rw [if_neg (not_not.mpr hsame)]
      rw [show (s.withPersister (finalState (.ok () s')).database).tables = s.tables from
        congrArg (fun d => d.disk.tables) hdatabase]
      exact hkeeps
    · have hfile : connectedFile s.persister = some file := by
        rw [connectedFile, show s.persister.db = _ from hdb]
        rfl
      simp only [operations, step, hrun]
      rw [if_pos hchanged, hfile, hfits.bytes_eq]
      simp only [Option.toList_some, List.map_cons, List.map_nil, Runs.run]
      rw [show (s.withPersister (finalState (.ok () s')).database).tables = _ from htables]
      exact h.inserted ht key hfits hlimit

/-! ## A run -/

theorem rowsHold_run (hE : RefusesMissingTable E) {rows : StoredRows} {limit : Nat} {s : RowStore}
    (h : RowsHold rows limit s.tables) {calls : List (RowStoreCall × List (Option Str))}
    (hcalls : Runs.Meets (step E crc registry) Plain s calls)
    (hlimit : limit + calls.length < 2 ^ 31) :
    RowsHold (Runs.run StoredRows.apply rows (s.operationsOf E crc registry calls))
      (limit + calls.length) (Runs.run (step E crc registry) s calls).tables := by
  induction calls generalizing rows limit s with
  | nil => exact h
  | cons c calls ih =>
    rw [List.length_cons] at hlimit ⊢
    rw [operationsOf, Runs.run_append, ← Nat.add_assoc, Nat.add_right_comm]
    exact ih (rowsHold_step crc hE h hcalls.1 (by omega)) hcalls.2 (by omega)

end RowStore

/-! ## Loading -/

/-- The bytes of a sound row are read whole. -/
theorem loadBlob_returns {registry : ResourceLoader.Registry} {key : Str} (hne : key ≠ [])
    {c : ResourceClass} (hreg : registry key = some c) (hc : StoresBytes c) {t : Table} {row : Row}
    (hmem : row ∈ t.rows) (hrow : row.Sound) {s s' : SqliteState} (htable : table s = some t)
    {r : IResource} (h : (loadBlob E registry key row.numbers).run s = .ok r s') :
    r.data = some row.data := by
  unfold loadBlob at h
  obtain ⟨cell, s₁, hcell, h⟩ := of_bind_ok h
  obtain ⟨⟨-, hopened⟩, -⟩ := (openBlob_ok_iff E).mp hcell
  rw [show row.numbers.iRow = (row.row : Int) from rfl, htable,
    E.blobOpen_some t _ row (Table.rowById_of_mem hmem)] at hopened
  cases hopened
  obtain ⟨blob, s₂, hread, h⟩ := of_bind_ok h
  have hsize : row.numbers.size.toNat = row.data.length := size_numbers hrow
  obtain ⟨-, -, -, -, bytes, hbytes, rfl⟩ := (read_ok_iff E).mp ⟨s₂, hread⟩
  have hinside := E.blobRead_inside row.data row.data.length 0 (by omega)
  rw [List.drop_zero, List.take_length, Nat.cast_zero] at hinside
  rw [toInt_of_lt (by rw [hsize]; exact hrow.small), hsize, hinside] at hbytes
  cases hbytes
  rw [hsize, Nat.sub_self, List.replicate_zero, List.append_nil] at h
  have hgenerate : ResourceLoader.generateResource registry key = .ok c := by
    simp only [ResourceLoader.generateResource, if_neg hne, hreg]
    rfl
  rw [bind_ok (lift_ok hgenerate _)] at h
  simp only [fillResource_run hc row.numbers hrow.pos] at h
  cases h
  rfl

/-- A `Load` that returns has found a row of the key, and gives the data of the last one. -/
theorem load_returns_last (hE : RefusesMissingTable E) {registry : ResourceLoader.Registry}
    {key : Str} (hne : key ≠ []) (hkey : PlainLiteral key) {c : ResourceClass}
    (hreg : registry key = some c) (hc : StoresBytes c) {file : Path} {statements : Nat}
    {s s' : SqliteState} (hdb : s.sqlite.db = some ⟨some file, statements⟩)
    (hsound : ∀ t, s.disk.tables file = some t → ∀ row ∈ t.rows, row.Sound) {r : IResource}
    (h : (ResourceLoader.load E registry key).run s = .ok r s') :
    ∃ t row, s.disk.tables file = some t ∧ (t.ofKey key).getLast? = some row ∧
      r.data = some row.data := by
  have hopen : s.sqlite.isOpen = true := by
    rw [Sqlite.isOpen, hdb]
    rfl
  have htable : table s = s.disk.tables file := by
    unfold table
    rw [hdb]
  rw [load_eq E registry hne hopen] at h
  obtain ⟨numbers, s₁, hexecute, hblob⟩ := of_bind_ok h
  obtain ⟨-, -, t', rows, hexec, hfold, rfl⟩ := (execute_rows_ok E hopen).mp hexecute
  rw [cString_selectKey hkey, htable] at hexec
  cases ht : s.disk.tables file with
  | none =>
    obtain ⟨what, hmissing⟩ := hE.selectKey key hkey
    rw [ht, hmissing] at hexec
    cases hexec
  | some t =>
    rw [ht, E.exec_selectKey key t hkey] at hexec
    cases hexec
    have hrows : ∀ row ∈ t.ofKey key, row.Sound := fun row hrow =>
      hsound t ht row (Table.mem_of_ofKey hrow)
    rw [foldlM_pKeyHandler hrows] at hfold
    have hstored : table (setTable (some t) (takeFault s)) = some t := by
      unfold table setTable
      simp only [show (takeFault s).sqlite.db = _ from hdb, Function.update_self]
    cases hlast : (t.ofKey key).getLast? with
    | none =>
      -- there is no row -1
      obtain rfl : RowNumbers.mk (-1) 0 0 0 = numbers := by
        rw [hlast] at hfold
        exact Except.ok.inj hfold
      unfold loadBlob at hblob
      obtain ⟨cell, s₂, hcell, -⟩ := of_bind_ok hblob
      obtain ⟨⟨-, hopened⟩, -⟩ := (openBlob_ok_iff E).mp hcell
      obtain ⟨what, hnone⟩ := E.blobOpen_none t (-1) t.rowById_neg_one
      rw [hstored, hnone] at hopened
      cases hopened
    | some row =>
      obtain rfl : row.numbers = numbers := by
        rw [hlast] at hfold
        exact Except.ok.inj hfold
      have hmem := List.mem_of_getLast? hlast
      exact ⟨t, row, rfl, hlast, loadBlob_returns hne hreg hc (Table.mem_of_ofKey hmem)
        (hrows row hmem) hstored hblob⟩

open RowStore in
/-- After any run of calls, whichever of them fail and wherever the program was started again: with
the loader open on a database, `Load` returns the bytes that were stored last under the key there
when no call of the library fails, and whatever it returns when some do are these bytes. -/
theorem last_persisted_is_loaded (hE : RefusesMissingTable E) (crc : List UInt8 → UInt32)
    (registry : ResourceLoader.Registry) (resources : Nat → IResource)
    {calls : List (RowStoreCall × List (Option Str))}
    (hcalls : Runs.Meets (step E crc registry) Plain (new resources) calls)
    (hcount : calls.length < 2 ^ 31) {file : Path} {statements : Nat}
    (hloader : (Runs.run (step E crc registry) (new resources) calls).loader =
      ⟨some ⟨some file, statements⟩, file⟩)
    {key : Str} (hne : key ≠ []) (hkey : PlainLiteral key) {c : ResourceClass}
    (hreg : registry key = some c) (hc : StoresBytes c) :
    let s := Runs.run (step E crc registry) (new resources) calls
    let stored := storedBy E crc registry resources calls file key
    (∀ bytes, stored = some bytes → ∃ r s',
        (ResourceLoader.load E registry key).run (s.atLoader []) = .ok r s' ∧ r.data = some bytes) ∧
      ∀ faults r s', (ResourceLoader.load E registry key).run (s.atLoader faults) = .ok r s' →
        r.data ≠ none ∧ r.data = stored := by
  intro s stored
  have hempty : RowsHold (fun _ _ => none) 0 (new resources).tables := ⟨fun _ _ => rfl, nofun, nofun⟩
  have hholds : RowsHold (storedBy E crc registry resources calls) (0 + calls.length) s.tables :=
    rowsHold_run crc hE hempty hcalls (by omega)
  have hlast := hholds.last file key
  constructor
  · intro bytes hbytes
    rw [show storedBy E crc registry resources calls file key = some bytes from hbytes] at hlast
    obtain ⟨t, ht, hdata⟩ := Option.bind_eq_some_iff.mp hlast
    obtain ⟨row, hrow, rfl⟩ := Option.map_eq_some_iff.mp hdata
    have hrows : ∀ row ∈ t.ofKey key, row.Sound := fun row hmem =>
      hholds.sound file t ht row (Table.mem_of_ofKey hmem)
    have hload := load_connected E hne hkey hreg ht hrows hrow statements
    rw [fillResource_run hc row.numbers (hrows row (List.mem_of_getLast? hrow)).pos] at hload
    rw [RowStore.atLoader, show s.loader = _ from hloader]
    exact ⟨_, _, hload, rfl⟩
  · intro faults r s' hrun
    have hdb : (s.atLoader faults).sqlite.db = some ⟨some file, statements⟩ := by
      rw [RowStore.atLoader, show s.loader = _ from hloader]
    obtain ⟨t, row, ht, hrow, hdata⟩ := load_returns_last hE hne hkey hreg hc hdb
      (fun t ht => hholds.sound file t ht) hrun
    rw [show s.tables file = some t from ht, Option.bind_some, hrow] at hlast
    rw [hdata]
    exact ⟨Option.some_ne_none _, hlast⟩

theorem RowStore.openLoader_loader {registry : ResourceLoader.Registry} {s : RowStore}
    (hnew : s.loader = Sqlite.new) {p : Path} (hp : p ≠ []) :
    (step E crc registry s (.openLoader p, [])).loader = ⟨some ⟨some p, 0⟩, p⟩ := by
  have hopens := openResourceDatabase_run E hp s.tables []
    "ResourceLoader already has a database set".toList
  simp only [RowStore.step, RowStore.withLoader, RowStore.atLoader, hnew]
  unfold ResourceLoader.openDatabase
  rw [show Sqlite.new = ⟨none, []⟩ from rfl, hopens]
  rfl

theorem plainEngine_refusesMissingTable : RefusesMissingTable plainEngine := by
  refine ⟨fun key _ => ⟨PlainEngine.noTable, ?_⟩, fun key _ => ⟨PlainEngine.noTable, ?_⟩⟩
  · simp only [plainEngine, PlainEngine.exec, PlainEngine.deleteKey_ne_createTable, if_false]
  · simp only [plainEngine, PlainEngine.exec, PlainEngine.selectKey_ne_createTable, if_false]

/-- A resource is persisted; what it is changed to is not, since the bytes cannot be bound. Then the
program is started again. -/
def secondBindFails : List (RowStoreCall × List (Option Str)) :=
  [(.openPersister ['d'], []), (.persist 0 ['k'], []), (.mutate 0 1 1 (some [9]), []),
    (.persist 0 ['k'], [none, some "disk I/O error".toList]),
    (.restart fun _ => byteResource 1 1 [0], []), (.openLoader ['d'], [])]

open RowStore in
theorem last_persisted_is_loaded_secondBindFails :
    ∃ r s', (ResourceLoader.load plainEngine vectorRegistry ['k']).run
        ((Runs.run (step plainEngine crc32 vectorRegistry) (new fun _ => byteResource 2 1 [7, 8])
          secondBindFails).atLoader []) = .ok r s' ∧ r.data = some [7, 8] := by
  have hk : PlainLiteral ['k'] := by simp [PlainLiteral]
  have hcalls : Runs.Meets (step plainEngine crc32 vectorRegistry) Plain
      (new fun _ => byteResource 2 1 [7, 8]) secondBindFails := by
    refine ⟨trivial, ⟨hk, Or.inr ⟨[7, 8], rfl, by decide, by decide⟩⟩, trivial,
      ⟨hk, Or.inr ⟨[9], ?_, ?_, ?_⟩⟩, trivial, trivial, trivial⟩
    · decide +kernel
    · decide +kernel
    · decide
  have hstored : storedBy plainEngine crc32 vectorRegistry (fun _ => byteResource 2 1 [7, 8])
      secondBindFails ['d'] ['k'] = some [7, 8] := by decide +kernel
  have hloader : (Runs.run (step plainEngine crc32 vectorRegistry)
      (new fun _ => byteResource 2 1 [7, 8]) secondBindFails).loader =
        ⟨some ⟨some ['d'], 0⟩, ['d']⟩ := by
    simp only [secondBindFails, Runs.run]
    exact openLoader_loader rfl (List.cons_ne_nil _ _)
  exact (last_persisted_is_loaded plainEngine_refusesMissingTable crc32 vectorRegistry _ hcalls
    (by decide) hloader (List.cons_ne_nil _ _) hk rfl (vectorClass_storesBytes 1)).1 _ hstored

end Azulejo
