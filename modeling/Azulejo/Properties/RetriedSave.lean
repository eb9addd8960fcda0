import Azulejo.Properties.WriteThrough

/-!
# Repeating a save that failed

`Persist` and `Serialize` record the new checksum before the steps that can fail. A call that
throws after that has lost the change: repeated with the same data, it finds the checksum it
has recorded and returns without writing.
-/

namespace Azulejo

open Stateful Sqlite SqliteBlob

variable (crc : List UInt8 → UInt32) (E : SqliteEngine)

/-- The checksum and the dirty flag are the same. -/
def SameTracking (r r' : IResource) : Prop := r'.checkSum = r.checkSum ∧ r'.dirty = r.dirty

/-- If the `Serialize` throws after its key check, it leaves the change-tracking state as it
was, and the same call with nothing failing, whatever the files are by then, does not return
without the file. -/
def SerializeRetriable (faults : SerializeFaults) (key path : Str) (s : SerializeState) : Prop :=
  key ≠ [] → ∀ err s', (ResourceSerializer.serialize crc faults key path).run s = .error err s' →
    SameTracking s.resource s'.resource ∧
      ∀ files s'', (ResourceSerializer.serialize crc SerializeFaults.none key path).run
          ⟨files, s'.resource⟩ = .ok () s'' →
        s''.files (resourceFile path key) = some (encoding s.resource)

/-- The insertion that `Persist` makes for a resource. -/
def insertion (key : Str) (r : IResource) : EStateM Exception SqliteState Unit :=
  insertBlob E (Sql.insertRow key r.M r.N r.elementSize) r.data r.size

/-- If the `Persist` throws after its key check, it leaves the change-tracking state as it was,
and the same call, whatever the database is by then, does not return without the insertion. -/
def PersistRetriable (key : Str) (s : PersistState) : Prop :=
  key ≠ [] → ∀ err s', (ResourcePersister.persist E crc key).run s = .error err s' →
    SameTracking s.resource s'.resource ∧
      ∀ database s'', (ResourcePersister.persist E crc key).run ⟨database, s'.resource⟩ =
          .ok () s'' →
        (insertion E key s.resource).run database = .ok () s''.database

/-! ## How `Serialize` ends -/

theorem serialize_unreached {faults : SerializeFaults} {key path : Str} (hkey : key ≠ [])
    (h : path = [] ∨ faults.createDirectories = true) (s : SerializeState) :
    ∃ err, (ResourceSerializer.serialize crc faults key path).run s = .error err s := by
  unfold ResourceSerializer.serialize
  rw [if_neg hkey, if_pos h]
  exact ⟨_, rfl⟩

theorem serialize_unchanged {faults : SerializeFaults} {key path : Str}
    (h : Compares faults key path) {s : SerializeState}
    (hsame : s.resource.checksum crc = s.resource.checkSum) :
    (ResourceSerializer.serialize crc faults key path).run s =
      .ok () ⟨s.files, { s.resource with dirty := false }⟩ := by
  obtain ⟨hkey, hpath, hdirectories⟩ := h
  have hreach : ¬ (path = [] ∨ faults.createDirectories = true) := by simp [hpath, hdirectories]
  unfold ResourceSerializer.serialize
  rw [if_neg hkey, if_neg hreach, bind_ok (EStateM.run_get s)]
  simp only [IResource.updateChecksum_unchanged hsame]
  rw [bind_ok (EStateM.run_set _ _)]
  rfl

/-- The temporary file cannot be opened or renamed, when the new checksum is recorded
already. -/
theorem serialize_fails {faults : SerializeFaults} {key path : Str}
    (h : Compares faults key path) {s : SerializeState}
    (hchanged : s.resource.checksum crc ≠ s.resource.checkSum)
    (hfault : faults.openFile = true ∨ faults.rename = true) :
    ∃ err files, (ResourceSerializer.serialize crc faults key path).run s =
      .error err ⟨files, { s.resource with checkSum := s.resource.checksum crc, dirty := true }⟩ := by
  obtain ⟨hkey, hpath, hdirectories⟩ := h
  have hreach : ¬ (path = [] ∨ faults.createDirectories = true) := by simp [hpath, hdirectories]
  unfold ResourceSerializer.serialize
  rw [if_neg hkey, if_neg hreach, bind_ok (EStateM.run_get s)]
  simp only [IResource.updateChecksum_changed hchanged]
  rw [bind_ok (EStateM.run_set _ _)]
  cases hopen : faults.openFile with
  | true => exact ⟨_, _, rfl⟩
  | false =>
    have hrename : faults.rename = true := hfault.resolve_left (by simp [hopen])
    rw [hrename]
    exact ⟨_, _, rfl⟩

/-- A `Serialize` that failed after it recorded the checksum writes no file when it is
repeated. -/
theorem serialize_failed_then_skips {faults faults' : SerializeFaults} {key path : Str}
    (h : Compares faults key path) (h' : Compares faults' key path) {s s' : SerializeState}
    {err : Exception}
    (hrun : (ResourceSerializer.serialize crc faults key path).run s = .error err s')
    (files : Files) :
    (ResourceSerializer.serialize crc faults' key path).run ⟨files, s'.resource⟩ =
      .ok () ⟨files, { s'.resource with dirty := false }⟩ := by
  have hresource := resource_serialize crc faults key path s
  rw [hrun, if_pos h] at hresource
  obtain ⟨dirty, hafter⟩ := @IResource.updateChecksum_snd crc s.resource
  rw [hafter] at hresource
  have hs' : s'.resource = { s.resource with checkSum := s.resource.checksum crc, dirty := dirty } :=
    hresource
  apply serialize_unchanged crc h'
  rw [hs']
  rfl

/-! ## How `InsertBlob` and `Persist` end -/

/-- `Persist` goes on to its insertion. -/
structure Attempts (key : Str) (r : IResource) : Prop where
  key : key ≠ []
  changed : r.checksum crc ≠ r.checkSum

theorem persist_inserts {key : Str} {s : PersistState} (h : Attempts crc key s.resource)
    {database : SqliteState} (hinsert : (insertion E key s.resource).run s.database =
      .ok () database) :
    (ResourcePersister.persist E crc key).run s =
      .ok () ⟨database, { s.resource with checkSum := s.resource.checksum crc, dirty := true }⟩ := by
  have hopen : s.database.sqlite.isOpen = true :=
    ((insertBlob_returns_iff E _ _ _ _).mp ⟨_, hinsert⟩).opened
  rw [persist_open E crc h.key h.changed hopen]
  exact zoom_ok hinsert

/-- The insertion fails, when the new checksum is recorded already. -/
theorem persist_fails {key : Str} {s : PersistState} (h : Attempts crc key s.resource)
    (hfails : ¬ Inserts E (Sql.insertRow key s.resource.M s.resource.N s.resource.elementSize)
      s.resource.data s.resource.size s.database) :
    ∃ err database, (ResourcePersister.persist E crc key).run s = .error err
      ⟨database, { s.resource with checkSum := s.resource.checksum crc, dirty := true }⟩ := by
  cases hopen : s.database.sqlite.isOpen with
  | false =>
    obtain ⟨err, hthrows⟩ := persist_closed E crc h.key h.changed hopen
    exact ⟨err, _, hthrows⟩
  | true =>
    rw [persist_open E crc h.key h.changed hopen]
    cases hrun : (insertBlob E (Sql.insertRow key s.resource.M s.resource.N
        s.resource.elementSize) s.resource.data s.resource.size).run s.database with
    | ok u database => exact absurd ((insertBlob_returns_iff E _ _ _ _).mp ⟨_, hrun⟩) hfails
    | error err database => exact ⟨err, _, zoom_error hrun⟩

/-- A `Persist` that failed after its key check inserts nothing when it is repeated. -/
theorem persist_failed_then_skips {key : Str} (hkey : key ≠ []) {s s' : PersistState}
    {err : Exception} (hrun : (ResourcePersister.persist E crc key).run s = .error err s')
    (database : SqliteState) :
    (ResourcePersister.persist E crc key).run ⟨database, s'.resource⟩ =
      .ok () ⟨database, { s'.resource with dirty := false }⟩ := by
  have hresource := resource_persist crc E key s
  rw [hrun, if_pos hkey] at hresource
  obtain ⟨dirty, hafter⟩ := @IResource.updateChecksum_snd crc s.resource
  have hs' : s'.resource = { s.resource with checkSum := s.resource.checksum crc, dirty := dirty } :=
    hresource.trans hafter
  apply persist_unchanged E crc hkey
  rw [hs']
  rfl

/-! ## When a failed save can be retried -/

/-- A `Serialize` cannot fail after it has recorded a new checksum, and if it fails before,
there is a new checksum. -/
def SerializeSafe (faults : SerializeFaults) (key path : Str) (r : IResource) : Prop :=
  key = [] ∨ path = [] ∨
    (faults.createDirectories = true ∧ r.checksum crc ≠ r.checkSum) ∨
    (faults.createDirectories = false ∧
      (r.checksum crc = r.checkSum ∨ (faults.openFile = false ∧ faults.rename = false)))

/-- A `Persist` cannot fail after it has recorded a new checksum. -/
def PersistSafe (key : Str) (s : PersistState) : Prop :=
  Attempts crc key s.resource →
    Inserts E (Sql.insertRow key s.resource.M s.resource.N s.resource.elementSize)
      s.resource.data s.resource.size s.database

theorem bytesTaken_none (size : Nat) : SerializeFaults.none.bytesTaken size = 16 + size := by
  show 8 + (8 + (size + 0)) = 16 + size
  omega

theorem serializeRetriable_iff (faults : SerializeFaults) (key path : Str) (s : SerializeState) :
    SerializeRetriable crc faults key path s ↔ SerializeSafe crc faults key path s.resource := by
  by_cases hkey : key = []
  · exact iff_of_true (fun h => absurd hkey h) (Or.inl hkey)
  by_cases hpath : path = []
  · -- the directory of an empty path can never be created
    refine iff_of_true (fun _ err s' hrun => ?_) (Or.inr (Or.inl hpath))
    obtain ⟨err', hthrows⟩ := @serialize_unreached crc faults key path hkey (Or.inl hpath) s
    rw [hthrows] at hrun
    cases hrun
    refine ⟨⟨rfl, rfl⟩, fun files s'' hagain => ?_⟩
    obtain ⟨err'', hthrows'⟩ := @serialize_unreached crc SerializeFaults.none key path hkey
      (Or.inl hpath) ⟨files, s.resource⟩
    rw [hthrows'] at hagain
    cases hagain
  have hagain : Compares SerializeFaults.none key path := ⟨hkey, hpath, rfl⟩
  by_cases hdirectories : faults.createDirectories = true
  · -- it fails before it compares checksums
    obtain ⟨err', hthrows⟩ := @serialize_unreached crc faults key path hkey (Or.inr hdirectories) s
    by_cases hsame : s.resource.checksum crc = s.resource.checkSum
    · refine iff_of_false (fun h => ?_) ?_
      · have hfile := (h hkey err' s hthrows).2 (fun _ => none) _
          (serialize_unchanged crc hagain hsame)
        cases hfile
      · simp [SerializeSafe, hkey, hpath, hdirectories, hsame]
    · refine iff_of_true (fun _ err s' hrun => ?_)
        (Or.inr (Or.inr (Or.inl ⟨hdirectories, hsame⟩)))
      rw [hthrows] at hrun
      cases hrun
      exact ⟨⟨rfl, rfl⟩, fun files s'' hrun' =>
        serialize_stores crc (s := ⟨files, s.resource⟩) hrun' hsame (bytesTaken_none _)⟩
  have hdirectories' : faults.createDirectories = false := Bool.not_eq_true _ |>.mp hdirectories
  have hcompares : Compares faults key path := ⟨hkey, hpath, hdirectories'⟩
  by_cases hsame : s.resource.checksum crc = s.resource.checkSum
  · refine iff_of_true (fun _ err s' hrun => ?_)
      (Or.inr (Or.inr (Or.inr ⟨hdirectories', Or.inl hsame⟩)))
    rw [serialize_unchanged crc hcompares hsame] at hrun
    cases hrun
  by_cases hfault : faults.openFile = true ∨ faults.rename = true
  · -- the new checksum is recorded, and nothing takes it back
    refine iff_of_false (fun h => ?_) ?_
    · obtain ⟨err', files, hthrows⟩ := serialize_fails crc hcompares hsame hfault
      exact hsame (h hkey _ _ hthrows).1.1
    · simp [SerializeSafe, hkey, hpath, hdirectories', hsame]
      intro hopen
      exact hfault.resolve_left (by simp [hopen])
  · rw [not_or, Bool.not_eq_true, Bool.not_eq_true] at hfault
    refine iff_of_true (fun _ err s' hrun => ?_)
      (Or.inr (Or.inr (Or.inr ⟨hdirectories', Or.inr hfault⟩)))
    rw [serialize_replaces crc ⟨hkey, hpath, hdirectories', hsame, hfault.1, hfault.2⟩] at hrun
    cases hrun

theorem persistRetriable_iff (key : Str) (s : PersistState) :
    PersistRetriable crc E key s ↔ PersistSafe crc E key s := by
  by_cases hkey : key = []
  · exact iff_of_true (fun h => absurd hkey h) (fun h => absurd hkey h.key)
  by_cases hsame : s.resource.checksum crc = s.resource.checkSum
  · refine iff_of_true (fun _ err s' hrun => ?_) (fun h => absurd hsame h.changed)
    rw [persist_unchanged E crc hkey hsame] at hrun
    cases hrun
  have hattempts : Attempts crc key s.resource := ⟨hkey, hsame⟩
  by_cases hinserts : Inserts E (Sql.insertRow key s.resource.M s.resource.N
      s.resource.elementSize) s.resource.data s.resource.size s.database
  · refine iff_of_true (fun _ err s' hrun => ?_) (fun _ => hinserts)
    obtain ⟨database, hinsert⟩ := (insertBlob_returns_iff E _ _ _ _).mpr hinserts
    rw [persist_inserts crc E hattempts hinsert] at hrun
    cases hrun
  · -- the new checksum is recorded, and nothing takes it back
    refine iff_of_false (fun h => ?_) (fun h => hinserts (h hattempts))
    obtain ⟨err, database, hthrows⟩ := persist_fails crc E hattempts hinserts
    exact hsame (h hkey _ _ hthrows).1.1

/-- **A failed save is retriable only if it fails before it records the checksum.** `Serialize`
and `Persist`, from any state of the resource, the files and the database, leave a call that
throws after the key check repeatable exactly when they do not throw after the comparison of
checksums has found a change. -/
theorem failed_save_retriable_iff :
    (∀ (faults : SerializeFaults) (key path : Str) (s : SerializeState),
      SerializeRetriable crc faults key path s ↔ SerializeSafe crc faults key path s.resource) ∧
    (∀ (key : Str) (s : PersistState),
      PersistRetriable crc E key s ↔ PersistSafe crc E key s) :=
  ⟨serializeRetriable_iff crc, persistRetriable_iff crc E⟩

/-- A new resource whose database is not open, and one whose temporary file cannot be opened. -/
theorem failed_save_not_retriable :
    ¬ PersistRetriable crc32 plainEngine ['a'] ⟨⟨⟨fun _ => none, []⟩, Sqlite.new⟩,
      byteResource 2 1 [7, 8]⟩ ∧
    ¬ SerializeRetriable crc32 { SerializeFaults.none with openFile := true } ['a'] ['d']
      ⟨fun _ => none, byteResource 2 1 [7, 8]⟩ := by
  have hchanged : (byteResource 2 1 [7, 8]).checksum crc32 ≠ 0xFFFFFFFF := by decide +kernel
  constructor
  · rw [persistRetriable_iff]
    intro hsafe
    have hinserts := hsafe ⟨List.cons_ne_nil _ _, hchanged⟩
    cases hinserts.opened
  · rw [serializeRetriable_iff]
    rintro (hkey | hpath | ⟨hdirectories, _⟩ | ⟨_, hsame | ⟨hopen, _⟩⟩)
    · cases hkey
    · cases hpath
    · cases hdirectories
    · exact hchanged hsame
    · cases hopen

end Azulejo
