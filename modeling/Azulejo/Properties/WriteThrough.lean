import Azulejo.DatabaseAdapters.Specs
import Azulejo.DatabaseAdapters.PlainEngine
import Azulejo.FilesystemAdapters.Specs
import Azulejo.Lib.Runs

/-!
# Which writes of a resource reach the store

`Serialize` and `Persist` write only when the resource's checksum is not the one it recorded
last, at whatever key and place that was. Over a history of calls the recorded checksum is the
one at the last of them that got to the comparison.
-/

namespace Azulejo

open Stateful Sqlite SqliteBlob

variable (crc : List UInt8 → UInt32) (E : SqliteEngine)

/-! ## The history -/

/-- The files, the connection of the `ResourcePersister`, one resource, and the checksum at
the last call on it that compared checksums. -/
structure WriteState where
  files : Files
  database : SqliteState
  resource : IResource
  lastChecksum : UInt32

/-- The calls of a history; `mutate` gives the resource new dimensions and data. -/
inductive WriteCall where
  | mutate (M N : UInt64) (data : Option (List UInt8))
  | serialize (faults : SerializeFaults) (key path : Str)
  | unserialize (faults : ResourceSerializer.UnserializeFaults) (key path : Str)
  | openDatabase (dbPath : Path)
  | closeDatabase
  | persist (key : Str)
  | unpersist (key : Str)

/-- The `Serialize` gets as far as comparing checksums. -/
def Compares (faults : SerializeFaults) (key path : Str) : Prop :=
  key ≠ [] ∧ path ≠ [] ∧ faults.createDirectories = false

instance (faults : SerializeFaults) (key path : Str) : Decidable (Compares faults key path) :=
  inferInstanceAs (Decidable (_ ∧ _ ∧ _))

/-- The state after a call, whether it returned or threw. -/
def writeStep (s : WriteState) : WriteCall → WriteState
  | .mutate M N data => { s with resource := { s.resource with M := M, N := N, data := data } }
  | .serialize faults key path =>
    let t := finalState ((ResourceSerializer.serialize crc faults key path).run
      ⟨s.files, s.resource⟩)
    { s with
      files := t.files
      resource := t.resource
      lastChecksum := if Compares faults key path then s.resource.checksum crc
        else s.lastChecksum }
  | .unserialize faults key path =>
    { s with files := finalState ((ResourceSerializer.unserialize faults key path).run s.files) }
  | .openDatabase dbPath =>
    { s with database := finalState ((ResourcePersister.openDatabase E dbPath).run s.database) }
  | .closeDatabase =>
    { s with database := finalState (closeDatabase.run s.database) }
  | .persist key =>
    let t := finalState ((ResourcePersister.persist E crc key).run ⟨s.database, s.resource⟩)
    { s with
      database := t.database
      resource := t.resource
      lastChecksum := if key ≠ [] then s.resource.checksum crc else s.lastChecksum }
  | .unpersist key =>
    { s with database := finalState ((ResourcePersister.unpersist E key).run s.database) }

/-! ## The recorded checksum -/

/-- Comparing checksums is the only thing `Serialize` does to the resource. -/
theorem resource_serialize (faults : SerializeFaults) (key path : Str) (s : SerializeState) :
    (finalState ((ResourceSerializer.serialize crc faults key path).run s)).resource =
      if Compares faults key path then (s.resource.updateChecksum crc).2 else s.resource := by
  unfold ResourceSerializer.serialize
  by_cases hkey : key = []
  · have hcompares : ¬ Compares faults key path := fun h => h.1 hkey
    rw [if_pos hkey, if_neg hcompares]
    rfl
  rw [if_neg hkey]
  by_cases hreach : path = [] ∨ faults.createDirectories = true
  · have hcompares : ¬ Compares faults key path := by
      rintro ⟨_, hpath, hdirectories⟩
      rcases hreach with hnil | htrue
      · exact hpath hnil
      · rw [hdirectories] at htrue
        cases htrue
    rw [if_pos hreach, if_neg hcompares]
    rfl
  rw [not_or] at hreach
  have hcompares : Compares faults key path :=
    ⟨hkey, hreach.1, Bool.not_eq_true _ |>.mp hreach.2⟩
  rw [if_neg (not_or.mpr hreach), if_pos hcompares, bind_ok (EStateM.run_get s)]
  by_cases hchanged : s.resource.checksum crc = s.resource.checkSum
  · simp only [IResource.updateChecksum_unchanged hchanged]
    rw [bind_ok (EStateM.run_set _ _)]
    rfl
  simp only [IResource.updateChecksum_changed hchanged]
  rw [bind_ok (EStateM.run_set _ _)]
  cases faults.openFile <;> cases faults.rename <;> rfl

/-- Comparing checksums is the only thing `Persist` does to the resource. -/
theorem resource_persist (key : Str) (s : PersistState) :
    (finalState ((ResourcePersister.persist E crc key).run s)).resource =
      if key ≠ [] then (s.resource.updateChecksum crc).2 else s.resource := by
  unfold ResourcePersister.persist
  by_cases hkey : key = []
  · rw [if_pos hkey, if_neg (not_not.mpr hkey)]
    rfl
  rw [if_neg hkey, bind_ok (EStateM.run_get s)]
  simp only [if_pos hkey]
  by_cases hchanged : s.resource.checksum crc = s.resource.checkSum
  · simp only [IResource.updateChecksum_unchanged hchanged]
    rw [bind_ok (EStateM.run_set _ _)]
    rfl
  simp only [IResource.updateChecksum_changed hchanged]
  rw [bind_ok (EStateM.run_set _ _)]
  simp only [if_true]
  cases hopen : s.database.sqlite.isOpen with
  | false =>
    simp only [Bool.not_false, if_true]
    rfl
  | true =>
    simp only [Bool.not_true, Bool.false_eq_true, if_false]
    rw [zoom_run]
    cases (insertBlob E (Sql.insertRow key s.resource.M s.resource.N s.resource.elementSize)
      s.resource.data _).run s.database <;> rfl

/-- The recorded checksum is the one of the last comparison. -/
def Recorded (s : WriteState) : Prop := s.resource.checkSum = s.lastChecksum

theorem writeStep_recorded {s : WriteState} (hs : Recorded s) (c : WriteCall) :
    Recorded (writeStep crc E s c) := by
  unfold Recorded at hs ⊢
  cases c with
  | serialize faults key path =>
    simp only [writeStep, resource_serialize]
    by_cases hcompares : Compares faults key path
    · rw [if_pos hcompares, if_pos hcompares, IResource.checkSum_updateChecksum]
    · rw [if_neg hcompares, if_neg hcompares]
      exact hs
  | persist key =>
    simp only [writeStep, resource_persist]
    by_cases hkey : key ≠ []
    · rw [if_pos hkey, if_pos hkey, IResource.checkSum_updateChecksum]
    · rw [if_neg hkey, if_neg hkey]
      exact hs
  | mutate M N data => exact hs
  | unserialize faults key path => exact hs
  | openDatabase dbPath => exact hs
  | closeDatabase => exact hs
  | unpersist key => exact hs

/-! ## Writes that return -/

/-- The last row of the key in a table has the dimensions and the bytes of the resource. -/
def StoredAs (t : Table) (key : Str) (r : IResource) (bytes : List UInt8) : Prop :=
  ∃ row, (t.ofKey key).getLast? = some row ∧ row.m = r.M.toNat ∧ row.n = r.N.toNat ∧
    row.sizeOf = r.elementSize.toNat ∧ row.data = bytes

theorem storedAs_insert (t : Table) (key : Str) (r : IResource) (bytes : List UInt8) :
    StoredAs (t.insert key r.M.toNat r.N.toNat r.elementSize.toNat bytes) key r bytes := by
  refine ⟨⟨t.lastRow + 1, key, r.M.toNat, r.N.toNat, r.elementSize.toNat, bytes⟩, ?_, rfl, rfl, rfl,
    rfl⟩
  rw [Table.ofKey_insert_self, List.getLast?_concat]

/-- A resource whose dimensions describe its bytes, which are not too many for an `int`. -/
structure Small (r : IResource) (bytes : List UInt8) : Prop where
  data : r.data = some bytes
  length : bytes.length = r.M.toNat * r.N.toNat * r.elementSize.toNat
  small : bytes.length < 2 ^ 31

theorem Small.fitsInt {r : IResource} {bytes : List UInt8} (h : Small r bytes)
    (hpos : bytes ≠ []) : FitsInt r bytes := by
  have hlength := h.length
  have hsmall := h.small
  have hne : r.M.toNat * r.N.toNat * r.elementSize.toNat ≠ 0 := by
    rw [← hlength]
    exact mt List.eq_nil_of_length_eq_zero hpos
  obtain ⟨hMN, hE⟩ := Nat.mul_ne_zero_iff.mp hne
  obtain ⟨hM, hN⟩ := Nat.mul_ne_zero_iff.mp hMN
  have hMN_le : r.M.toNat * r.N.toNat ≤ bytes.length := by
    rw [hlength]
    exact Nat.le_mul_of_pos_right _ (Nat.pos_of_ne_zero hE)
  have hE_le : r.elementSize.toNat ≤ bytes.length := by
    rw [hlength]
    exact Nat.le_mul_of_pos_left _ (Nat.pos_of_ne_zero hMN)
  have hM_le : r.M.toNat ≤ r.M.toNat * r.N.toNat :=
    Nat.le_mul_of_pos_right _ (Nat.pos_of_ne_zero hN)
  have hN_le : r.N.toNat ≤ r.M.toNat * r.N.toNat :=
    Nat.le_mul_of_pos_left _ (Nat.pos_of_ne_zero hM)
  exact ⟨h.data, hlength, hpos, hsmall, by omega, by omega, by omega⟩

/-- A `Persist` that returned although the checksum had changed has stored the resource. -/
theorem persist_stores {key : Str} (hkey : PlainLiteral key) {s s' : PersistState}
    {bytes : List UInt8} (hr : Small s.resource bytes)
    (hrun : (ResourcePersister.persist E crc key).run s = .ok () s')
    (hchanged : s.resource.checksum crc ≠ s.resource.checkSum) :
    ∃ file statements t, s.database.sqlite.db = some ⟨some file, statements⟩ ∧
      s'.database.disk.tables file = some t ∧ StoredAs t key s.resource bytes := by
  rcases of_persist_ok E crc hrun with ⟨hsame, _⟩ | ⟨_, hinsert⟩
  · exact absurd hsame hchanged
  · rw [hr.data] at hinsert
    have hbytes : bytes ≠ [] := by
      intro hnil
      have hzero : s.resource.size = 0 := by
        have hlength := hr.length
        rw [hnil, List.length_nil] at hlength
        apply UInt64.toNat_inj.mp
        rw [IResource.toNat_size, Nat.mul_assoc, Nat.mul_comm, ← hlength]
        rfl
      obtain ⟨e, herror⟩ := insertBlob_zero E (Sql.insertRow key s.resource.M s.resource.N
        s.resource.elementSize) bytes s.database
      rw [hzero, herror] at hinsert
      cases hinsert
    have hfits := hr.fitsInt hbytes
    have hsize := hfits.size_eq
    have hsmall := hr.small
    obtain ⟨_, file, statements, t, hdb, _, htables⟩ := of_insertBlob_ok E hkey
      (by omega) (by omega) (Nat.lt_trans hfits.M (by omega)) (Nat.lt_trans hfits.N (by omega))
      (Nat.lt_trans hfits.elementSize (by omega)) hinsert
    rw [hsize, List.take_length] at htables
    refine ⟨file, statements, _, hdb, ?_, storedAs_insert t key s.resource bytes⟩
    rw [htables, Function.update_self]

/-- A `Serialize` that returned although the checksum had changed, without losing a byte, has
stored the resource. -/
theorem serialize_stores {faults : SerializeFaults} {key path : Str} {s s' : SerializeState}
    (hrun : (ResourceSerializer.serialize crc faults key path).run s = .ok () s')
    (hchanged : s.resource.checksum crc ≠ s.resource.checkSum)
    (hlossless : faults.bytesTaken s.resource.bytes.length = 16 + s.resource.bytes.length) :
    s'.files (resourceFile path key) = some (encoding s.resource) := by
  by_cases hreplaces : Replaces crc faults key path s.resource
  · rw [serialize_replaces crc hreplaces] at hrun
    cases hrun
    show replaced faults key path s.resource s.files (resourceFile path key) = _
    rw [replaced_self, (content_eq_encoding faults s.resource).mpr hlossless]
  · exact absurd ((serialize_keeps crc hreplaces).2 s' hrun).1 hchanged

/-- A `Serialize` that returned with an unchanged checksum has written nothing. -/
theorem serialize_skips {faults : SerializeFaults} {key path : Str} {s s' : SerializeState}
    (hrun : (ResourceSerializer.serialize crc faults key path).run s = .ok () s')
    (hsame : s.resource.checksum crc = s.resource.checkSum) :
    s'.files = s.files := by
  have hkeeps : ¬ Replaces crc faults key path s.resource := fun h => h.changed hsame
  exact ((serialize_keeps crc hkeeps).2 s' hrun).2

/-- After any history, a `Serialize` or `Persist` that returns has written nothing if the checksum
is the one at the last call that compared. If it differs, the resource is stored under its key and
place. -/
theorem write_through_when_changed (crc : List UInt8 → UInt32) (E : SqliteEngine)
    (start : WriteState) (hnew : start.resource.checkSum = 0xFFFFFFFF)
    (hlast : start.lastChecksum = 0xFFFFFFFF) (calls : List WriteCall) :
    let s := Runs.run (writeStep crc E) start calls
    (∀ (faults : SerializeFaults) (key path : Str) (s' : SerializeState),
      (ResourceSerializer.serialize crc faults key path).run ⟨s.files, s.resource⟩ = .ok () s' →
      (s.resource.checksum crc = s.lastChecksum → s'.files = s.files) ∧
      (s.resource.checksum crc ≠ s.lastChecksum →
        faults.bytesTaken s.resource.bytes.length = 16 + s.resource.bytes.length →
        s'.files (resourceFile path key) = some (encoding s.resource))) ∧
    (∀ (key : Str) (s' : PersistState),
      (ResourcePersister.persist E crc key).run ⟨s.database, s.resource⟩ = .ok () s' →
      (s.resource.checksum crc = s.lastChecksum → s'.database = s.database) ∧
      (s.resource.checksum crc ≠ s.lastChecksum →
        ∀ bytes, PlainLiteral key → Small s.resource bytes → ∃ file statements t,
          s.database.sqlite.db = some ⟨some file, statements⟩ ∧
          s'.database.disk.tables file = some t ∧ StoredAs t key s.resource bytes)) := by
  intro s
  have hrecorded : Recorded s :=
    Runs.invariant_of_forall Recorded (fun _ c hs => writeStep_recorded crc E hs c)
      (hnew.trans hlast.symm) calls
  clear_value s
  unfold Recorded at hrecorded
  rw [← hrecorded]
  refine ⟨?_, ?_⟩
  · intro faults key path s' hrun
    exact ⟨fun hsame => serialize_skips crc hrun hsame,
      fun hchanged hlossless => serialize_stores crc hrun hchanged hlossless⟩
  · intro key s' hrun
    refine ⟨?_, fun hchanged bytes hkey hsmall => persist_stores crc E hkey hsmall hrun hchanged⟩
    intro hsame
    rcases of_persist_ok E crc hrun with ⟨_, hkeeps⟩ | ⟨hchanged, _⟩
    · exact hkeeps
    · exact absurd hsame hchanged

/-! ## One resource under two keys -/

/-- A database that is open, with an empty table. -/
def emptyDatabase : SqliteState := connected (fun _ => some Table.empty) ['d'] 0

/-- A new resource, no files and this database. -/
def newWrites : WriteState :=
  ⟨fun _ => none, emptyDatabase, byteResource 2 1 [7, 8], 0xFFFFFFFF⟩

/-- Serialized under `a`, changed, and serialized or persisted under `b`: the file of `b` is
written, and the row of `b`. -/
theorem write_through_when_changed_sample :
    let s := Runs.run (writeStep crc32 plainEngine) newWrites
      [.serialize SerializeFaults.none ['a'] ['d'], .mutate 2 1 (some [9, 9])]
    (∃ s', (ResourceSerializer.serialize crc32 SerializeFaults.none ['b'] ['d']).run
        ⟨s.files, s.resource⟩ = .ok () s' ∧
      s'.files (resourceFile ['d'] ['b']) = some (encoding s.resource)) ∧
    ∃ s', (ResourcePersister.persist plainEngine crc32 ['b']).run ⟨s.database, s.resource⟩ =
        .ok () s' ∧
      ∃ file statements t, s.database.sqlite.db = some ⟨some file, statements⟩ ∧
        s'.database.disk.tables file = some t ∧ StoredAs t ['b'] s.resource [9, 9] := by
  intro s
  have hchanged : s.resource.checksum crc32 ≠ s.resource.checkSum := by decide +kernel
  have hlast : s.resource.checksum crc32 ≠ s.lastChecksum := by decide +kernel
  have hrun := serialize_replaces crc32 (s := ⟨s.files, s.resource⟩)
    (⟨List.cons_ne_nil _ _, List.cons_ne_nil _ _, rfl, hchanged, rfl, rfl⟩ :
      Replaces crc32 SerializeFaults.none ['b'] ['d'] s.resource)
  have hkey : PlainLiteral ['b'] := by simp [PlainLiteral]
  have hsmall : Small s.resource [9, 9] := ⟨rfl, by decide +kernel, by decide⟩
  have hdatabase : s.database = emptyDatabase := rfl
  have hpersist : (ResourcePersister.persist plainEngine crc32 ['b']).run
      ⟨emptyDatabase, s.resource⟩ = .ok () _ :=
    persist_changed plainEngine crc32 (List.cons_ne_nil _ _) hkey
      (hsmall.fitsInt (List.cons_ne_nil _ _)) hchanged rfl (by decide) 0
  rw [← hdatabase] at hpersist
  have hboth := write_through_when_changed crc32 plainEngine newWrites rfl rfl
    [.serialize SerializeFaults.none ['a'] ['d'], .mutate 2 1 (some [9, 9])]
  exact ⟨⟨_, hrun, (hboth.1 _ _ _ _ hrun).2 hlast (by decide +kernel)⟩,
    _, hpersist, (hboth.2 _ _ hpersist).2 hlast _ hkey hsmall⟩

/-- Serialized under `a` and then unchanged under `b`: the call returns without a file. -/
theorem second_key_is_not_written :
    let s := Runs.run (writeStep crc32 plainEngine) newWrites
      [.serialize SerializeFaults.none ['a'] ['d']]
    ∃ s', (ResourceSerializer.serialize crc32 SerializeFaults.none ['b'] ['d']).run
        ⟨s.files, s.resource⟩ = .ok () s' ∧
      s'.files (resourceFile ['d'] ['b']) ≠ some (encoding s.resource) := by
  intro s
  have hfile : (match (ResourceSerializer.serialize crc32 SerializeFaults.none ['b'] ['d']).run
      ⟨s.files, s.resource⟩ with
    | .ok _ s' => s'.files (resourceFile ['d'] ['b'])
    | .error _ _ => some []) = none := by decide +kernel
  cases hrun : (ResourceSerializer.serialize crc32 SerializeFaults.none ['b'] ['d']).run
      ⟨s.files, s.resource⟩ with
  | error e s' =>
    rw [hrun] at hfile
    cases hfile
  | ok u s' =>
    rw [hrun] at hfile
    refine ⟨s', rfl, ?_⟩
    rw [show s'.files (resourceFile ['d'] ['b']) = none from hfile]
    exact (Option.some_ne_none _).symm

end Azulejo
