import Azulejo.FilesystemAdapters.FileStore
import Azulejo.Properties.ResourceFile

/-!
# The files hold the map

Over any run of calls on any resources, keys and directories, of which any may fail, the resource
files hold what the map says, as long as no stream loses bytes. So `Deserialize` returns what was
stored last, and throws when there is nothing.
-/

namespace Azulejo

open Stateful ResourceSerializer

variable (crc : List UInt8 → UInt32)

/-! ## Files that a call leaves alone -/

/-- A temporary file is no resource's file. -/
theorem temporaryFile_ne_resourceFile (path key path' key' : Str) :
    temporaryFile path key ≠ resourceFile path' key' := by
  intro h
  have htmp : (temporaryFile path key).getLast? = some 'p' := by
    unfold temporaryFile
    rw [getLast?_joinPath (by simp [RESOURCE_TMP_EXT]),
      List.getLast?_append_of_ne_nil _ (by simp [RESOURCE_TMP_EXT])]
    rfl
  have hbin : (resourceFile path' key').getLast? = some 'n' := by
    unfold resourceFile
    rw [getLast?_joinPath (by simp [RESOURCE_EXT]),
      List.getLast?_append_of_ne_nil _ (by simp [RESOURCE_EXT])]
    rfl
  rw [h, hbin] at htmp
  cases htmp

/-- A `Serialize` that does not get to its end changes no more than its temporary file. -/
theorem serialize_only_temporary {faults : SerializeFaults} {key path : Str} {s : SerializeState}
    (h : ¬ Replaces crc faults key path s.resource) {file : Path}
    (hfile : temporaryFile path key ≠ file) :
    (finalState ((serialize crc faults key path).run s)).files file = s.files file := by
  unfold serialize
  by_cases hkey : key = []
  · rw [if_pos hkey]
    rfl
  rw [if_neg hkey]
  by_cases hreach : path = [] ∨ faults.createDirectories = true
  · rw [if_pos hreach]
    rfl
  rw [if_neg hreach, bind_ok (EStateM.run_get s)]
  by_cases hchanged : s.resource.checksum crc = s.resource.checkSum
  · simp only [IResource.updateChecksum_unchanged hchanged]
    rw [bind_ok (EStateM.run_set _ _)]
    rfl
  simp only [IResource.updateChecksum_changed hchanged]
  rw [bind_ok (EStateM.run_set _ _)]
  cases hopen : faults.openFile with
  | true => rfl
  | false =>
    cases hrename : faults.rename with
    | true =>
      simp only [if_true, Bool.false_eq_true, if_false]
      rw [bind_ok (EStateM.run_modify _ _)]
      exact Function.update_of_ne (Ne.symm hfile) _ _
    | false =>
      rw [not_or] at hreach
      exact absurd ⟨hkey, hreach.1, Bool.not_eq_true _ |>.mp hreach.2, hchanged, hopen, hrename⟩ h

/-- An `Unserialize` removes the file if it can. -/
theorem unserialize_files (faults : UnserializeFaults) (key path : Str) (files : Files) :
    finalState ((unserialize faults key path).run files) =
      if key ≠ [] ∧ faults.permissions = false ∧ faults.remove = false then
        Function.update files (resourceFile path key) none
      else files := by
  unfold unserialize
  by_cases hkey : key = []
  · rw [if_pos hkey, if_neg fun h => h.1 hkey]
    rfl
  rw [if_neg hkey, bind_ok (EStateM.run_get files)]
  cases hfile : files (resourceFile path key) with
  | none =>
    have hsame : Function.update files (resourceFile path key) none = files := by
      rw [← hfile, Function.update_eq_self]
    rw [hsame, ite_self]
    rfl
  | some content =>
    simp only [Option.isSome_some, if_true]
    cases hpermissions : faults.permissions with
    | true => exact (if_neg fun h => Bool.noConfusion h.2.1).symm
    | false =>
      cases hremove : faults.remove with
      | true => exact (if_neg fun h => Bool.noConfusion h.2.2).symm
      | false => exact (if_pos ⟨hkey, rfl, rfl⟩).symm

namespace FileStore

/-! ## One call -/

def Stored.encode (stored : Stored) : List UInt8 :=
  LittleEndian.ofUInt64 stored.M ++ LittleEndian.ofUInt64 stored.N ++ stored.bytes

/-- The resource files hold what the map says. -/
def FilesHold (store : StoredResources) (files : Files) : Prop :=
  ∀ path key, files (resourceFile path key) = (store (resourceFile path key)).map Stored.encode

theorem holds_step {store : StoredResources} {s : FileStore} (h : FilesHold store s.files)
    {c : FileStoreCall} (hlossless : s.Lossless crc c) :
    FilesHold (Runs.run StoredResources.apply store (s.operations crc c)) (s.step crc c).files := by
  cases c with
  | mutate i M N data => exact h
  | serialize faults i key path =>
    by_cases hreplaces : Replaces crc faults key path (s.resources i)
    · have hcontent := (content_eq_encoding faults (s.resources i)).mpr (hlossless hreplaces)
      intro path' key'
      have hrun := serialize_replaces crc (s := ⟨s.files, s.resources i⟩) hreplaces
      simp only [operations, if_pos hreplaces, step, hrun, Runs.run]
      show replaced faults key path (s.resources i) s.files (resourceFile path' key') = _
      unfold replaced
      simp only [StoredResources.apply]
      rw [Function.update_of_ne (temporaryFile_ne_resourceFile _ _ _ _).symm]
      by_cases hsame : resourceFile path' key' = resourceFile path key
      · rw [hsame, Function.update_self, Function.update_self, hcontent]
        rfl
      · rw [Function.update_of_ne hsame, Function.update_of_ne hsame,
          Function.update_of_ne (temporaryFile_ne_resourceFile _ _ _ _).symm]
        exact h path' key'
    · intro path' key'
      simp only [operations, if_neg hreplaces, step, Runs.run]
      rw [serialize_only_temporary crc hreplaces (temporaryFile_ne_resourceFile _ _ _ _)]
      exact h path' key'
  | unserialize faults key path =>
    intro path' key'
    simp only [operations, step, unserialize_files]
    split
    · simp only [Runs.run, StoredResources.apply]
      by_cases hsame : resourceFile path' key' = resourceFile path key
      · rw [hsame, Function.update_self, Function.update_self]
        rfl
      · rw [Function.update_of_ne hsame, Function.update_of_ne hsame]
        exact h path' key'
    · exact h path' key'

/-! ## A run -/

theorem holds_run {store : StoredResources} {s : FileStore} (h : FilesHold store s.files)
    {calls : List FileStoreCall} (hlossless : Runs.Meets (step crc) (Lossless crc) s calls) :
    FilesHold (Runs.run StoredResources.apply store (s.operationsOf crc calls))
      (Runs.run (step crc) s calls).files := by
  induction calls generalizing store s with
  | nil => exact h
  | cons c calls ih =>
    rw [operationsOf, Runs.run_append]
    exact ih (holds_step crc h hlossless.1) hlossless.2

/-- A program that starts without resource files. -/
def new (resources : Nat → IResource) : FileStore := ⟨fun _ => none, resources⟩

/-- What the calls have stored. -/
def storedBy (resources : Nat → IResource) (calls : List FileStoreCall) : StoredResources :=
  Runs.run StoredResources.apply (fun _ => none) ((new resources).operationsOf crc calls)

end FileStore

open FileStore ResourceDeserializer in
/-- After any run of calls, whichever of them fail, `Deserialize` returns the dimensions and the
bytes that were stored last under the key in the directory, and throws if there are none. -/
theorem last_stored_is_loaded (resources : Nat → IResource) {calls : List FileStoreCall}
    (hlossless : Runs.Meets (step crc) (Lossless crc) (new resources) calls)
    (registry : Registry) {key path : Str} (hkey : key ≠ []) (hpath : path ≠ []) :
    let files := (Runs.run (step crc) (new resources) calls).files
    (∀ stored, storedBy crc resources calls (resourceFile path key) = some stored →
        ∀ c, registry key = some c → StoresBytes c → c.construct.data.getD [] = [] →
          ∃ r, deserialize registry files key path = .ok r ∧ r.M = stored.M ∧ r.N = stored.N ∧
            r.elementSize = c.construct.elementSize ∧ r.data.getD [] = stored.bytes) ∧
      (storedBy crc resources calls (resourceFile path key) = none →
        deserialize registry files key path = .error (.runtimeError
          ("Could not open input file: ".toList ++ resourceFile path key))) := by
  intro files
  have hholds : FilesHold (storedBy crc resources calls) files :=
    holds_run crc (fun _ _ => rfl) hlossless
  have hfile := hholds path key
  constructor
  · intro stored hstored c hc hstores hempty
    rw [hstored] at hfile
    obtain ⟨r, hfill, hr⟩ := fillFromFile_run hstores hempty stored.M stored.N stored.bytes
    rw [deserialize_sizes hkey hpath hfile hc, hfill]
    exact ⟨r, rfl, hr⟩
  · intro hnothing
    rw [hnothing] at hfile
    unfold deserialize
    rw [if_neg hkey, if_neg hpath]
    simp only [hfile, Option.map_none]
    rfl

/-- A resource is stored; what it is changed to is not, since the file cannot be renamed. -/
def secondRenameFails : List FileStoreCall :=
  [.serialize .none 0 ['k'] ['d'], .mutate 0 1 1 (some [9]),
    .serialize { SerializeFaults.none with rename := true } 0 ['k'] ['d']]

open FileStore in
theorem last_stored_is_loaded_secondRenameFails :
    ∃ r, ResourceDeserializer.deserialize (fun _ => some (vectorClass 1))
        (Runs.run (step crc32) (new fun _ => byteResource 2 1 [7, 8]) secondRenameFails).files
        ['k'] ['d'] = .ok r ∧ r.M = 2 ∧ r.N = 1 ∧ r.elementSize = 1 ∧ r.data.getD [] = [7, 8] := by
  have hlossless : Runs.Meets (step crc32) (Lossless crc32) (new fun _ => byteResource 2 1 [7, 8])
      secondRenameFails := ⟨fun _ => by decide +kernel, trivial, fun _ => by decide +kernel, trivial⟩
  have hstored : storedBy crc32 (fun _ => byteResource 2 1 [7, 8]) secondRenameFails
      (resourceFile ['d'] ['k']) = some ⟨2, 1, [7, 8]⟩ := by decide +kernel
  exact (last_stored_is_loaded crc32 _ hlossless (fun _ => some (vectorClass 1))
    (List.cons_ne_nil _ _) (List.cons_ne_nil _ _)).1 _ hstored (vectorClass 1) rfl
      (vectorClass_storesBytes 1) rfl

end Azulejo
