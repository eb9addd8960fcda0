import Azulejo.DatabaseAdapters.Specs
import Azulejo.DatabaseAdapters.PlainEngine

/-!
# Resources through the database

`ResourcePersister::Persist` stores the column size as `m` and the row size as `n`;
`ResourceLoader::Load` gives `m` to `SetRowSize` and `n` to `SetColumnSize`.
-/

namespace Azulejo

open Stateful Sqlite

/-- The new resource takes `m` as its row size and `n` as its column size. -/
theorem fillResource_run {c : ResourceClass} (hc : StoresBytes c) (numbers : RowNumbers)
    {bytes : List UInt8} (hbytes : bytes ≠ []) :
    (ResourceLoader.fillResource numbers bytes c).run c.construct =
      .ok () { c.construct with M := numbers.n, N := numbers.m, data := some bytes } := by
  have hrow : IResource.setRowSize numbers.m c.construct =
      .ok { c.construct with N := numbers.m } := by
    simp only [IResource.setRowSize, hc.N, ne_eq, not_true_eq_false, false_and, if_false]
    rfl
  have hcolumn : IResource.setColumnSize numbers.n { c.construct with N := numbers.m } =
      .ok { c.construct with M := numbers.n, N := numbers.m } := by
    simp only [IResource.setColumnSize, hc.M, ne_eq, not_true_eq_false, false_and, if_false]
    rfl
  unfold ResourceLoader.fillResource
  rw [bind_ok (EStateM.run_get _), bind_ok (lift_ok hrow _), bind_ok (EStateM.run_set _ _),
    bind_ok (EStateM.run_get _), bind_ok (lift_ok hcolumn _), bind_ok (EStateM.run_set _ _)]
  exact hc.assign bytes _ hbytes

/-- The run returned a resource with the dimensions and the bytes of `r`. -/
def LoadsBack {σ : Type} (result : EStateM.Result Exception σ IResource) (r : IResource) : Prop :=
  ∃ r' s, result = .ok r' s ∧ r'.M = r.M ∧ r'.N = r.N ∧ r'.data = some r.bytes

variable (E : SqliteEngine)

/-- A key whose last row is `row` loads as `r` when the row has `r`'s dimensions the other way
round. -/
theorem loadsBack_iff (registry : ResourceLoader.Registry) {key : Str} {c : ResourceClass}
    (hne : key ≠ []) (hkey : PlainLiteral key) (hreg : registry key = some c)
    (hc : StoresBytes c) {tables : Path → Option Table} {p : Path} {t : Table}
    (ht : tables p = some t) (hsound : ∀ row ∈ t.ofKey key, row.Sound) (r : IResource)
    (statements : Nat) :
    LoadsBack ((ResourceLoader.load E registry key).run (connected tables p statements)) r ↔
      ∃ row, (t.ofKey key).getLast? = some row ∧ row.m = r.N.toNat ∧ row.n = r.M.toNat ∧
        row.data = r.bytes := by
  cases hlast : (t.ofKey key).getLast? with
  | none =>
    obtain ⟨what, hrun⟩ : ∃ what, (ResourceLoader.load E registry key).run
        (connected tables p statements) = .error (.runtimeError what) _ :=
      load_connected_none E registry hne hkey ht (List.getLast?_eq_none_iff.mp hlast) statements
    constructor
    · rintro ⟨r', s, hok, _⟩
      rw [hrun] at hok
      cases hok
    · rintro ⟨row, hrow, _⟩
      cases hrow
  | some row =>
    have hrow : row.Sound := hsound row (List.mem_of_getLast? hlast)
    have hrun := load_connected E hne hkey hreg ht hsound hlast statements
    rw [fillResource_run hc row.numbers hrow.pos] at hrun
    have hm : ∀ n : UInt64, UInt64.ofNat row.m = n ↔ row.m = n.toNat := by
      intro n
      have := hrow.m
      rw [← UInt64.toNat_inj, UInt64.toNat_ofNat', Nat.mod_eq_of_lt (by omega)]
    have hn : ∀ n : UInt64, UInt64.ofNat row.n = n ↔ row.n = n.toNat := by
      intro n
      have := hrow.n
      rw [← UInt64.toNat_inj, UInt64.toNat_ofNat', Nat.mod_eq_of_lt (by omega)]
    constructor
    · rintro ⟨r', s, hok, hM, hN, hdata⟩
      rw [hrun] at hok
      cases hok
      exact ⟨row, rfl, (hm r.N).mp hN, (hn r.M).mp hM, Option.some.inj hdata⟩
    · rintro ⟨row', hrow', hM, hN, hdata⟩
      cases hrow'
      exact ⟨_, _, hrun, (hn r.M).mpr hN, (hm r.N).mpr hM, congrArg some hdata⟩

/-- Loading a resource right after persisting it gives it back exactly when it was written
now and its two dimensions are equal, or when it was not written now and the last row of the
key already has its bytes and its dimensions the other way round. -/
theorem persist_load_iff (E : SqliteEngine) (crc : List UInt8 → UInt32)
    (registry : ResourceLoader.Registry) (key : Str) (c : ResourceClass) (r : IResource)
    (bytes : List UInt8) (tables : Path → Option Table) (p : Path) (t : Table)
    (statements statements' : Nat) (hne : key ≠ []) (hkey : PlainLiteral key)
    (hreg : registry key = some c) (hc : StoresBytes c) (hr : FitsInt r bytes)
    (ht : tables p = some t) (hrow : t.lastRow + 1 < 2 ^ 31)
    (hsound : ∀ row ∈ t.ofKey key, row.Sound) :
    ∃ s, (ResourcePersister.persist E crc key).run ⟨connected tables p statements, r⟩ =
        .ok () s ∧
      (LoadsBack ((ResourceLoader.load E registry key).run
          ⟨s.database.disk, ⟨some ⟨some p, statements'⟩, p⟩⟩) r ↔
        (r.checksum crc ≠ r.checkSum ∧ r.M = r.N) ∨
        (r.checksum crc = r.checkSum ∧ ∃ row, (t.ofKey key).getLast? = some row ∧
          row.m = r.N.toNat ∧ row.n = r.M.toNat ∧ row.data = r.bytes)) := by
  by_cases hsame : r.checksum crc = r.checkSum
  · refine ⟨_, persist_unchanged E crc hne hsame _, ?_⟩
    have hload := loadsBack_iff E registry hne hkey hreg hc ht hsound r statements'
    simp only [hsame, ne_eq, not_true_eq_false, false_and, false_or, true_and]
    exact hload
  · refine ⟨_, persist_changed E crc hne hkey hr hsame ht (by omega) statements, ?_⟩
    have hsound' : ∀ row ∈ (t.insert key r.M.toNat r.N.toNat r.elementSize.toNat bytes).ofKey key,
        row.Sound := by
      intro row hmem
      rw [Table.ofKey_insert_self, List.mem_append] at hmem
      rcases hmem with hmem | hmem
      · exact hsound row hmem
      · rw [List.mem_singleton.mp hmem]
        exact ⟨hrow, hr.M, hr.N, hr.elementSize, hr.length, hr.pos, hr.small⟩
    have hload := loadsBack_iff E registry hne hkey hreg hc (Function.update_self p _ tables) hsound' r
      statements'
    have hlast : ((t.insert key r.M.toNat r.N.toNat r.elementSize.toNat bytes).ofKey key).getLast?
        = some ⟨t.lastRow + 1, key, r.M.toNat, r.N.toNat, r.elementSize.toNat, bytes⟩ := by
      rw [Table.ofKey_insert_self, List.getLast?_concat]
    rw [hlast] at hload
    simp only [hsame, ne_eq, not_false_eq_true, true_and, false_and, or_false]
    refine hload.trans ?_
    constructor
    · rintro ⟨row, hrow', hM, _, _⟩
      cases hrow'
      exact UInt64.toNat_inj.mp hM
    · intro hMN
      exact ⟨_, rfl, by simp [hMN], by simp [hMN], hr.bytes_eq.symm⟩

/-! ## A resource of two columns and one row -/

def emptyTables : Path → Option Table := fun _ => some Table.empty

def vectorRegistry : ResourceLoader.Registry := fun _ => some (vectorClass 1)

theorem byteResource_fitsInt {M N : UInt64} {bytes : List UInt8}
    (hlength : bytes.length = M.toNat * N.toNat) (hpos : bytes ≠ [])
    (hsmall : bytes.length < 2 ^ 31) (hM : M.toNat < 2 ^ 31) (hN : N.toNat < 2 ^ 31) :
    FitsInt (byteResource M N bytes) bytes where
  data := rfl
  length := hlength.trans (Nat.mul_one _).symm
  pos := hpos
  small := hsmall
  M := hM
  N := hN
  elementSize := by
    show (1 : UInt64).toNat < 2 ^ 31
    decide

theorem byteResource_fitsInt_square : FitsInt (byteResource 2 2 [1, 2, 3, 4]) [1, 2, 3, 4] :=
  byteResource_fitsInt rfl (by simp) (by decide) (by decide) (by decide)

theorem byteResource_fitsInt_row : FitsInt (byteResource 2 1 [7, 8]) [7, 8] :=
  byteResource_fitsInt rfl (by simp) (by decide) (by decide) (by decide)

/-- A square resource comes back. -/
theorem persist_load_iff_sample :
    ∃ s, (ResourcePersister.persist plainEngine crc32 ['k']).run
        ⟨connected emptyTables ['d'] 0, byteResource 2 2 [1, 2, 3, 4]⟩ = .ok () s ∧
      LoadsBack ((ResourceLoader.load plainEngine vectorRegistry ['k']).run
        ⟨s.database.disk, ⟨some ⟨some ['d'], 0⟩, ['d']⟩⟩) (byteResource 2 2 [1, 2, 3, 4]) := by
  have hfresh : (byteResource 2 2 [1, 2, 3, 4]).checksum crc32 ≠
      (byteResource 2 2 [1, 2, 3, 4]).checkSum := by decide +kernel
  obtain ⟨s, hrun, hiff⟩ := persist_load_iff plainEngine crc32 vectorRegistry ['k'] (vectorClass 1)
    (byteResource 2 2 [1, 2, 3, 4]) [1, 2, 3, 4] emptyTables ['d'] Table.empty 0 0 (by simp)
    (by simp [PlainLiteral]) rfl (vectorClass_storesBytes 1) byteResource_fitsInt_square rfl
    (by decide) (by simp [Table.ofKey, Table.empty])
  exact ⟨s, hrun, hiff.mpr (Or.inl ⟨hfresh, rfl⟩)⟩

/-- A resource of two columns and one row comes back with its dimensions exchanged. -/
theorem persist_load_swaps_dimensions :
    ∃ s, (ResourcePersister.persist plainEngine crc32 ['k']).run
        ⟨connected emptyTables ['d'] 0, byteResource 2 1 [7, 8]⟩ = .ok () s ∧
      ¬ LoadsBack ((ResourceLoader.load plainEngine vectorRegistry ['k']).run
        ⟨s.database.disk, ⟨some ⟨some ['d'], 0⟩, ['d']⟩⟩) (byteResource 2 1 [7, 8]) := by
  have hkey : PlainLiteral ['k'] := by simp [PlainLiteral]
  have hfresh : (byteResource 2 1 [7, 8]).checksum crc32 ≠ (byteResource 2 1 [7, 8]).checkSum := by
    decide +kernel
  refine ⟨_, persist_changed plainEngine crc32 (by simp) hkey byteResource_fitsInt_row hfresh rfl
    (by decide) 0, ?_⟩
  have hsound : ∀ row ∈ (Table.empty.insert ['k'] 2 1 1 [7, 8]).ofKey ['k'], row.Sound := by
    intro row hrow
    rw [Table.ofKey_insert_self] at hrow
    cases List.mem_singleton.mp hrow
    exact ⟨by decide, by decide, by decide, by decide, rfl, by simp, by decide⟩
  have hload := loadsBack_iff plainEngine vectorRegistry (by simp) hkey rfl
    (vectorClass_storesBytes 1) (Function.update_self ['d'] _ emptyTables) hsound
    (byteResource 2 1 [7, 8]) 0
  apply mt hload.mp
  rintro ⟨row, hlast, hm, _⟩
  rw [Table.ofKey_insert_self] at hlast
  cases hlast
  exact absurd hm (by decide)

end Azulejo
