import Azulejo.FilesystemAdapters.ResourceAdapters

/-!
# What `Serialize` and `Deserialize` do to the files

A `Serialize` either replaces the resource's file or leaves it alone (`serialize_replaces`,
`serialize_keeps`); what it puts there is what the stream took.
-/

namespace Azulejo

open Stateful ResourceSerializer

/-- The file of a resource: its two sizes and its bytes. -/
def encoding (r : IResource) : List UInt8 :=
  LittleEndian.ofUInt64 r.M ++ LittleEndian.ofUInt64 r.N ++ r.bytes

theorem getLast?_joinPath {p q : Path} (h : q ≠ []) : (joinPath p q).getLast? = q.getLast? := by
  unfold joinPath
  split
  · rfl
  · split
    · exact List.getLast?_append_of_ne_nil p h
    · rw [List.getLast?_append_of_ne_nil p (List.cons_ne_nil _ _), List.getLast?_cons_of_ne_nil h]

/-- The temporary file is another file than the resource's own. -/
theorem temporaryFile_ne (path key : Str) : temporaryFile path key ≠ resourceFile path key := by
  intro h
  have htmp : (temporaryFile path key).getLast? = some 'p' := by
    unfold temporaryFile
    rw [getLast?_joinPath (by simp [RESOURCE_TMP_EXT]),
      List.getLast?_append_of_ne_nil _ (by simp [RESOURCE_TMP_EXT])]
    rfl
  have hbin : (resourceFile path key).getLast? = some 'n' := by
    unfold resourceFile
    rw [getLast?_joinPath (by simp [RESOURCE_EXT]),
      List.getLast?_append_of_ne_nil _ (by simp [RESOURCE_EXT])]
    rfl
  rw [h, hbin] at htmp
  cases htmp

/-! ## The stream -/

namespace Ofstream

/-- Writes one after the other, each with its fault. -/
def writes : List (List UInt8 × Option Nat) → Ofstream → Ofstream
  | [], outfile => outfile
  | (bytes, fault) :: pieces, outfile => writes pieces (outfile.write bytes fault)

/-- How many bytes of writes of the given sizes get through. -/
def taken : List (Nat × Option Nat) → Nat
  | [] => 0
  | (size, none) :: pieces => size + taken pieces
  | (size, some n) :: _ => min n size

theorem writes_of_bad (pieces : List (List UInt8 × Option Nat)) (content : List UInt8) :
    writes pieces ⟨content, false⟩ = ⟨content, false⟩ := by
  induction pieces with
  | nil => rfl
  | cons p pieces ih => exact ih

/-- What a stream takes is a prefix of what is written. -/
theorem content_writes (pieces : List (List UInt8 × Option Nat)) (content : List UInt8) :
    (writes pieces ⟨content, true⟩).content = content ++
      (pieces.map Prod.fst).flatten.take (taken (pieces.map fun p => (p.1.length, p.2))) := by
  induction pieces generalizing content with
  | nil => simp [writes]
  | cons p pieces ih =>
    obtain ⟨bytes, fault⟩ := p
    cases fault with
    | none =>
      show (writes pieces ⟨content ++ bytes, true⟩).content = _
      rw [ih, List.append_assoc]
      simp only [List.map_cons, List.flatten_cons, taken, List.take_length_add_append]
    | some n =>
      show (writes pieces ⟨content ++ bytes.take n, false⟩).content = _
      rw [writes_of_bad]
      simp only [List.map_cons, List.flatten_cons, taken]
      rw [List.take_append_of_le_length (Nat.min_le_right n bytes.length), List.take_eq_take_min]

theorem taken_le (pieces : List (Nat × Option Nat)) :
    taken pieces ≤ (pieces.map Prod.fst).sum := by
  induction pieces with
  | nil => exact Nat.le_refl 0
  | cons p pieces ih =>
    obtain ⟨size, fault⟩ := p
    rw [List.map_cons, List.sum_cons]
    cases fault with
    | none =>
      simp only [taken]
      omega
    | some n =>
      simp only [taken]
      omega

end Ofstream

/-- How many bytes of a file with `size` bytes of data get through the stream of a
`Serialize`. -/
def SerializeFaults.bytesTaken (faults : SerializeFaults) (size : Nat) : Nat :=
  let written := Ofstream.taken
    [(8, faults.writeM), (8, faults.writeN), (size, faults.writeData)]
  match faults.close with
  | some n => min n written
  | .none => written

theorem writeResource_eq (faults : SerializeFaults) (r : IResource) :
    writeResource faults r = Ofstream.close faults.close (Ofstream.writes
      [(LittleEndian.ofUInt64 r.M, faults.writeM), (LittleEndian.ofUInt64 r.N, faults.writeN),
        (r.bytes, faults.writeData)] Ofstream.opened) := rfl

theorem content_writeResource (faults : SerializeFaults) (r : IResource) :
    (writeResource faults r).content = (encoding r).take (faults.bytesTaken r.bytes.length) := by
  have hwrites := Ofstream.content_writes [(LittleEndian.ofUInt64 r.M, faults.writeM),
    (LittleEndian.ofUInt64 r.N, faults.writeN), (r.bytes, faults.writeData)] []
  simp only [List.map_cons, List.map_nil, List.flatten_cons, List.flatten_nil, List.append_nil,
    List.nil_append, LittleEndian.length_ofUInt64, ← List.append_assoc] at hwrites
  rw [writeResource_eq]
  unfold SerializeFaults.bytesTaken Ofstream.close
  cases faults.close with
  | none => exact hwrites
  | some n =>
    show (Ofstream.writes _ ⟨[], true⟩).content.take n = _
    rw [hwrites, List.take_take]
    rfl

theorem length_encoding (r : IResource) : (encoding r).length = 16 + r.bytes.length := by
  simp only [encoding, List.length_append, LittleEndian.length_ofUInt64]

theorem bytesTaken_le (faults : SerializeFaults) (size : Nat) :
    faults.bytesTaken size ≤ 16 + size := by
  have htaken := Ofstream.taken_le
    [(8, faults.writeM), (8, faults.writeN), (size, faults.writeData)]
  simp only [List.map_cons, List.map_nil, List.sum_cons, List.sum_nil] at htaken
  unfold SerializeFaults.bytesTaken
  cases faults.close with
  | none =>
    simp only
    omega
  | some n =>
    simp only
    omega

/-- The file is complete exactly when every byte got through. -/
theorem content_eq_encoding (faults : SerializeFaults) (r : IResource) :
    (writeResource faults r).content = encoding r ↔
      faults.bytesTaken r.bytes.length = 16 + r.bytes.length := by
  have hle := bytesTaken_le faults r.bytes.length
  have hlength := length_encoding r
  rw [content_writeResource]
  constructor
  · intro h
    have hcut := congrArg List.length h
    rw [List.length_take] at hcut
    omega
  · intro h
    apply List.take_of_length_le
    omega

/-! ## `Serialize` -/

section Serialize

variable (crc : List UInt8 → UInt32)

/-- The `Serialize` gets as far as renaming its temporary file. -/
structure Replaces (faults : SerializeFaults) (key path : Str) (r : IResource) : Prop where
  key : key ≠ []
  path : path ≠ []
  createDirectories : faults.createDirectories = false
  changed : r.checksum crc ≠ r.checkSum
  openFile : faults.openFile = false
  rename : faults.rename = false

/-- The files after a `Serialize` that renamed its temporary file. -/
def replaced (faults : SerializeFaults) (key path : Str) (r : IResource) (files : Files) : Files :=
  let content := (writeResource faults r).content
  let tmp := temporaryFile path key
  Function.update (Function.update (Function.update files tmp (some content))
    (resourceFile path key) (some content)) tmp none

@[simp] theorem replaced_self (faults : SerializeFaults) (key path : Str) (r : IResource)
    (files : Files) :
    replaced faults key path r files (resourceFile path key) =
      some (writeResource faults r).content := by
  unfold replaced
  rw [Function.update_of_ne (temporaryFile_ne path key).symm, Function.update_self]

theorem serialize_replaces {faults : SerializeFaults} {key path : Str} {s : SerializeState}
    (h : Replaces crc faults key path s.resource) :
    (serialize crc faults key path).run s =
      .ok () ⟨replaced faults key path s.resource s.files,
        { s.resource with checkSum := s.resource.checksum crc, dirty := true }⟩ := by
  obtain ⟨hkey, hpath, hdirectories, hchanged, hopen, hrename⟩ := h
  have hreach : ¬ (path = [] ∨ faults.createDirectories = true) := by simp [hpath, hdirectories]
  unfold serialize
  rw [if_neg hkey, if_neg hreach, bind_ok (EStateM.run_get s)]
  simp only [IResource.updateChecksum_changed hchanged]
  rw [bind_ok (EStateM.run_set _ _)]
  simp only [if_true, hopen, hrename, Bool.false_eq_true, if_false]
  rw [bind_ok (EStateM.run_modify _ _), EStateM.run_modify]
  rfl

/-- Otherwise the resource's file stays as it is, and the call returns only when the checksum
is the recorded one, and then all files stay. -/
theorem serialize_keeps {faults : SerializeFaults} {key path : Str} {s : SerializeState}
    (h : ¬ Replaces crc faults key path s.resource) :
    (finalState ((serialize crc faults key path).run s)).files (resourceFile path key) =
        s.files (resourceFile path key) ∧
      ∀ s', (serialize crc faults key path).run s = .ok () s' →
        s.resource.checksum crc = s.resource.checkSum ∧ s'.files = s.files := by
  unfold serialize
  by_cases hkey : key = []
  · rw [if_pos hkey]
    exact ⟨rfl, fun s' hs' => by cases hs'⟩
  rw [if_neg hkey]
  by_cases hreach : path = [] ∨ faults.createDirectories = true
  · rw [if_pos hreach]
    exact ⟨rfl, fun s' hs' => by cases hs'⟩
  rw [if_neg hreach, bind_ok (EStateM.run_get s)]
  by_cases hchanged : s.resource.checksum crc = s.resource.checkSum
  · simp only [IResource.updateChecksum_unchanged hchanged]
    rw [bind_ok (EStateM.run_set _ _)]
    exact ⟨rfl, fun s' hs' => by cases hs'; exact ⟨hchanged, rfl⟩⟩
  simp only [IResource.updateChecksum_changed hchanged]
  rw [bind_ok (EStateM.run_set _ _)]
  cases hopen : faults.openFile with
  | true =>
    simp only [if_true]
    exact ⟨rfl, fun s' hs' => by cases hs'⟩
  | false =>
    cases hrename : faults.rename with
    | true =>
      simp only [if_true, Bool.false_eq_true, if_false]
      rw [bind_ok (EStateM.run_modify _ _)]
      refine ⟨?_, fun s' hs' => by cases hs'⟩
      show Function.update s.files (temporaryFile path key) _ (resourceFile path key) = _
      exact Function.update_of_ne (temporaryFile_ne path key).symm _ _
    | false =>
      rw [not_or] at hreach
      exact absurd ⟨hkey, hreach.1, Bool.not_eq_true _ |>.mp hreach.2, hchanged, hopen, hrename⟩ h

end Serialize

/-! ## `Deserialize` -/

namespace ResourceDeserializer

/-- The first size in a file. -/
def columnSize (content : List UInt8) : UInt64 := LittleEndian.toUInt64 (content.take 8)

/-- The second size in a file. -/
def rowSize (content : List UInt8) : UInt64 := LittleEndian.toUInt64 ((content.drop 8).take 8)

/-- The bytes behind the two sizes. -/
def payload (content : List UInt8) : List UInt8 := content.drop 16

/-- `Deserialize` gets as far as the new resource: the file opens and has the two sizes, and the
key is registered. -/
structure Opens (registry : Registry) (files : Files) (key path : Str) (content : List UInt8)
    (c : ResourceClass) : Prop where
  key_ne : key ≠ []
  path_ne : path ≠ []
  file : files (resourceFile path key) = some content
  header : 16 ≤ content.length
  registered : registry key = some c

/-- With dimensions that the new object takes, `Assign` is called on the object that has them. -/
theorem fillResource_run {M N : UInt64} {data : List UInt8} {c : ResourceClass}
    (hcolumns : c.construct.M = 0 ∨ c.construct.M = M)
    (hrows : c.construct.N = 0 ∨ c.construct.N = N) :
    (fillResource M N data c).run c.construct =
      (if data ≠ [] then c.assign data else pure ()).run { c.construct with M := M, N := N } := by
  have hrows' : IResource.setRowSize N { c.construct with M := M } =
      .ok { c.construct with M := M, N := N } := IResource.setRowSize_eq hrows
  unfold fillResource
  rw [bind_ok (EStateM.run_get _), bind_ok (lift_ok (IResource.setColumnSize_eq hcolumns) _),
    bind_ok (EStateM.run_set _ _), bind_ok (EStateM.run_get _), bind_ok (lift_ok hrows' _),
    bind_ok (EStateM.run_set _ _)]

theorem deserialize_of_opens {registry : Registry} {files : Files} {key path : Str}
    {content : List UInt8} {c : ResourceClass} (h : Opens registry files key path content c) :
    deserialize registry files key path =
      match (fillResource (columnSize content) (rowSize content) (payload content) c).run
          c.construct with
      | .error e _ => .error e
      | .ok () resource => .ok resource := by
  have hgenerate : generateResource registry key = .ok c := by
    simp only [generateResource, if_neg h.key_ne, h.registered]
    rfl
  unfold deserialize
  simp only [if_neg h.key_ne, if_neg h.path_ne, h.file, if_neg (Nat.not_lt.mpr h.header), hgenerate]
  rfl

/-- A `Deserialize` that returns has got there. -/
theorem opens_of_deserialize {registry : Registry} {files : Files} {key path : Str}
    {r : IResource} (h : deserialize registry files key path = .ok r) :
    ∃ content c, Opens registry files key path content c := by
  unfold deserialize at h
  by_cases hkey : key = []
  · rw [if_pos hkey] at h
    cases h
  by_cases hpath : path = []
  · rw [if_neg hkey, if_pos hpath] at h
    cases h
  rw [if_neg hkey, if_neg hpath] at h
  cases hfile : files (resourceFile path key) with
  | none =>
    simp only [hfile] at h
    cases h
  | some content =>
    simp only [hfile] at h
    by_cases hheader : content.length < 16
    · rw [if_pos hheader] at h
      cases h
    rw [if_neg hheader] at h
    cases hregistered : registry key with
    | none =>
      simp only [generateResource, if_neg hkey, hregistered] at h
      cases h
    | some c => exact ⟨content, c, hkey, hpath, hfile, Nat.not_lt.mp hheader, hregistered⟩

end ResourceDeserializer

/-- Reading a file that has two sizes gives them and the bytes behind them. -/
theorem deserialize_sizes {registry : ResourceDeserializer.Registry} {files : Files}
    {key path : Str} {M N : UInt64} {bytes : List UInt8} (hkey : key ≠ []) (hpath : path ≠ [])
    (hfile : files (resourceFile path key) =
      some (LittleEndian.ofUInt64 M ++ LittleEndian.ofUInt64 N ++ bytes)) {c : ResourceClass}
    (hc : registry key = some c) :
    ResourceDeserializer.deserialize registry files key path =
      match (ResourceDeserializer.fillResource M N bytes c).run c.construct with
      | .error e _ => .error e
      | .ok () resource => .ok resource := by
  generalize hcontent : LittleEndian.ofUInt64 M ++ LittleEndian.ofUInt64 N ++ bytes = content
    at hfile
  have hlength : 16 ≤ content.length := by
    rw [← hcontent, List.length_append, List.length_append, LittleEndian.length_ofUInt64,
      LittleEndian.length_ofUInt64]
    omega
  have hM : ResourceDeserializer.columnSize content = M := by
    unfold ResourceDeserializer.columnSize
    rw [← hcontent, List.append_assoc, List.take_left' (LittleEndian.length_ofUInt64 M),
      LittleEndian.toUInt64_ofUInt64]
  have hN : ResourceDeserializer.rowSize content = N := by
    unfold ResourceDeserializer.rowSize
    rw [← hcontent, List.append_assoc, List.drop_left' (LittleEndian.length_ofUInt64 M),
      List.take_left' (LittleEndian.length_ofUInt64 N), LittleEndian.toUInt64_ofUInt64]
  have hdata : ResourceDeserializer.payload content = bytes := by
    unfold ResourceDeserializer.payload
    rw [← hcontent, List.drop_left' (by simp)]
  rw [ResourceDeserializer.deserialize_of_opens ⟨hkey, hpath, hfile, hlength, hc⟩, hM, hN, hdata]

/-- Reading a complete file gives the two sizes and the bytes. -/
theorem deserialize_encoding {registry : ResourceDeserializer.Registry} {files : Files}
    {key path : Str} {r : IResource} (hkey : key ≠ []) (hpath : path ≠ [])
    (hfile : files (resourceFile path key) = some (encoding r)) {c : ResourceClass}
    (hc : registry key = some c) :
    ResourceDeserializer.deserialize registry files key path =
      match (ResourceDeserializer.fillResource r.M r.N r.bytes c).run c.construct with
      | .error e _ => .error e
      | .ok () resource => .ok resource :=
  deserialize_sizes hkey hpath hfile hc

end Azulejo
