import Azulejo.FilesystemAdapters.Specs

/-!
# Resources through files

A complete file gives the resource back. Whether `Serialize` leaves a complete file depends on
the stream, whose state it does not look at again before it renames the temporary file.
-/

namespace Azulejo

open Stateful ResourceSerializer

/-! ## Round trip -/

/-- The new resource takes the two sizes, and the bytes when there are any. -/
theorem fillFromFile_run {c : ResourceClass} (hc : StoresBytes c)
    (hempty : c.construct.data.getD [] = []) (M N : UInt64) (bytes : List UInt8) :
    ∃ r, (ResourceDeserializer.fillResource M N bytes c).run c.construct = .ok () r ∧
      r.M = M ∧ r.N = N ∧ r.elementSize = c.construct.elementSize ∧ r.data.getD [] = bytes := by
  rw [ResourceDeserializer.fillResource_run (Or.inl hc.M) (Or.inl hc.N)]
  by_cases hbytes : bytes = []
  · subst hbytes
    exact ⟨_, rfl, rfl, rfl, rfl, hempty⟩
  · rw [if_pos hbytes]
    exact ⟨_, hc.assign bytes _ hbytes, rfl, rfl, rfl, rfl⟩

/-- The bytes behind `Data()` are as many as the dimensions say. -/
theorem bytes_of_length {r : IResource} {bytes : List UInt8} (hdata : r.data.getD [] = bytes)
    (hlength : bytes.length = r.elementSize.toNat * r.M.toNat * r.N.toNat)
    (hsize : bytes.length < 2 ^ 64) : r.bytes = bytes := by
  have htoNat : r.size.toNat = bytes.length := by
    rw [IResource.toNat_size, ← hlength, Nat.mod_eq_of_lt hsize]
  unfold IResource.bytes
  rw [hdata, htoNat, List.take_length]

/-- What `Serialize` wrote without losing a byte, `Deserialize` returns. -/
theorem file_round_trip (crc : List UInt8 → UInt32) (registry : ResourceDeserializer.Registry)
    (c : ResourceClass) (hc : StoresBytes c) (hempty : c.construct.data.getD [] = [])
    (r : IResource) (helement : c.construct.elementSize = r.elementSize) (bytes : List UInt8)
    (hdata : r.data.getD [] = bytes)
    (hlength : bytes.length = r.elementSize.toNat * r.M.toNat * r.N.toNat)
    (hsize : bytes.length < 2 ^ 64) (key path : Str) (hregistry : registry key = some c)
    (files : Files) (faults : SerializeFaults) (hchanged : r.checksum crc ≠ r.checkSum)
    (hwrites : faults.writeM = none ∧ faults.writeN = none ∧ faults.writeData = none ∧
      faults.close = none) (s : SerializeState)
    (hrun : (serialize crc faults key path).run ⟨files, r⟩ = .ok () s) :
    ∃ r', ResourceDeserializer.deserialize registry s.files key path = .ok r' ∧ r'.M = r.M ∧
      r'.N = r.N ∧ r'.elementSize = r.elementSize ∧ r'.data.getD [] = bytes := by
  obtain ⟨hwriteM, hwriteN, hwriteData, hclose⟩ := hwrites
  by_cases hreplaces : Replaces crc faults key path r
  · have hcomplete : (writeResource faults r).content = encoding r := by
      rw [content_eq_encoding]
      simp only [SerializeFaults.bytesTaken, hwriteM, hwriteN, hwriteData, hclose, Ofstream.taken]
      omega
    rw [serialize_replaces crc hreplaces] at hrun
    cases hrun
    have hfile : replaced faults key path r files (resourceFile path key) = some (encoding r) := by
      rw [replaced_self, hcomplete]
    rw [deserialize_encoding hreplaces.key hreplaces.path hfile hregistry,
      bytes_of_length hdata hlength hsize]
    obtain ⟨r', hfill, hM, hN, hsame, hbytes⟩ := fillFromFile_run hc hempty r.M r.N bytes
    rw [hfill]
    exact ⟨r', rfl, hM, hN, by rw [hsame, helement], hbytes⟩
  · obtain ⟨hsame, _⟩ := (serialize_keeps crc hreplaces).2 s hrun
    exact absurd hsame hchanged

/-- Three columns and one row of two-byte elements. -/
def pairResource : IResource :=
  { IResource.new 2 with M := 3, N := 1, data := some [1, 2, 3, 4, 5, 6] }

theorem file_round_trip_sample :
    ∃ s, (serialize crc32 SerializeFaults.none ['k'] ['d']).run ⟨fun _ => none, pairResource⟩ =
        .ok () s ∧
      ∃ r', ResourceDeserializer.deserialize (fun _ => some (vectorClass 2)) s.files ['k'] ['d'] =
          .ok r' ∧
        r'.M = 3 ∧ r'.N = 1 ∧ r'.elementSize = 2 ∧ r'.data.getD [] = [1, 2, 3, 4, 5, 6] := by
  have hchanged : pairResource.checksum crc32 ≠ pairResource.checkSum := by decide +kernel
  have hreplaces : Replaces crc32 SerializeFaults.none ['k'] ['d'] pairResource :=
    ⟨List.cons_ne_nil _ _, List.cons_ne_nil _ _, rfl, hchanged, rfl, rfl⟩
  have hrun : (serialize crc32 SerializeFaults.none ['k'] ['d']).run
      ⟨fun _ => none, pairResource⟩ = .ok () _ := serialize_replaces crc32 hreplaces
  refine ⟨_, hrun, ?_⟩
  exact file_round_trip crc32 (fun _ => some (vectorClass 2)) (vectorClass 2)
    (vectorClass_storesBytes 2) rfl pairResource rfl [1, 2, 3, 4, 5, 6] rfl rfl (by decide) ['k']
    ['d'] rfl (fun _ => none) SerializeFaults.none hchanged ⟨rfl, rfl, rfl, rfl⟩ _ hrun

/-! ## Failing writes -/

/-- After a `Serialize` the resource's file is as before or complete, and it is complete when
the call returned and the checksum had changed. -/
def KeepsOrCompletes (crc : List UInt8 → UInt32) (faults : SerializeFaults) (key path : Str)
    (s : SerializeState) : Prop :=
  let result := (serialize crc faults key path).run s
  let file := resourceFile path key
  ((finalState result).files file = s.files file ∨
      (finalState result).files file = some (encoding s.resource)) ∧
    ∀ s', result = .ok () s' → s.resource.checksum crc ≠ s.resource.checkSum →
      s'.files file = some (encoding s.resource)

/-- `Serialize` keeps or completes the file exactly when it does not get as far as the rename
or the stream lost no byte. -/
theorem failed_write_keeps_file_iff (crc : List UInt8 → UInt32) (faults : SerializeFaults)
    (key path : Str) (s : SerializeState) :
    KeepsOrCompletes crc faults key path s ↔
      (Replaces crc faults key path s.resource →
        faults.bytesTaken s.resource.bytes.length = 16 + s.resource.bytes.length) := by
  constructor
  · rintro ⟨_, hcomplete⟩ hreplaces
    have hfile := hcomplete _ (serialize_replaces crc hreplaces) hreplaces.changed
    simp only [replaced_self, Option.some.injEq] at hfile
    exact (content_eq_encoding faults s.resource).mp hfile
  · intro hlossless
    by_cases hreplaces : Replaces crc faults key path s.resource
    · have hcontent := (content_eq_encoding faults s.resource).mpr (hlossless hreplaces)
      unfold KeepsOrCompletes
      rw [serialize_replaces crc hreplaces]
      refine ⟨.inr ?_, ?_⟩
      · show replaced faults key path s.resource s.files (resourceFile path key) = _
        rw [replaced_self, hcontent]
      · intro s' hs' _
        cases hs'
        show replaced faults key path s.resource s.files (resourceFile path key) = _
        rw [replaced_self, hcontent]
    · obtain ⟨hkeeps, hreturns⟩ := serialize_keeps crc hreplaces
      refine ⟨.inl hkeeps, ?_⟩
      intro s' hs' hchanged
      exact absurd (hreturns s' hs').1 hchanged

/-- The disk is full after the first byte of the data. -/
theorem full_disk_truncates_file :
    ¬ KeepsOrCompletes crc32 { SerializeFaults.none with writeData := some 1 } ['k'] ['d']
      ⟨fun _ => some (encoding (byteResource 1 1 [5])), byteResource 2 1 [7, 8]⟩ := by
  rintro ⟨hfile, _⟩
  revert hfile
  decide +kernel

end Azulejo
