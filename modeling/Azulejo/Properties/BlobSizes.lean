import Azulejo.DatabaseAdapters.FaultSpecs
import Azulejo.Properties.RetriedSave

/-!
# Blob sizes as `int`s

`Read`, `Write` and `InsertBlob` take a `size_t` and give the library its low 32 bits as an `int`.
Below 2³¹ nothing is lost. From there to 2³² the count is negative, which the library refuses for
an open blob; beyond 2³² it may be a count the library accepts, of other bytes than the caller
asked for.
-/

namespace Azulejo

open Stateful Sqlite SqliteBlob

variable (E : SqliteEngine)

/-- The low 32 bits of a size. -/
def low (size : UInt64) : Nat := size.toNat % 2 ^ 32

theorem toInt_of_low {size : UInt64} (h : low size < 2 ^ 31) : toInt size = (low size : Int) := by
  unfold toInt
  exact if_pos h

theorem toInt_neg {size : UInt64} (h : 2 ^ 31 ≤ low size) : toInt size < 0 := by
  have hlow : low size < 2 ^ 32 := Nat.mod_lt _ (by omega)
  show (if low size < 2 ^ 31 then (low size : Int) else (low size : Int) - 2 ^ 32) < 0
  rw [if_neg (Nat.not_lt.mpr h)]
  omega

theorem low_of_lt {size : UInt64} (h : size.toNat < 2 ^ 32) : low size = size.toNat :=
  Nat.mod_eq_of_lt h

theorem low_le (size : UInt64) : low size ≤ size.toNat := Nat.mod_le _ _

/-- An open blob. The library has none of 2³¹ bytes or more. -/
structure OpenBlob where
  cell : List UInt8
  small : cell.length < 2 ^ 31

/-- The count that the library gets for a size is not negative, and the blob has that many bytes at
the offset. -/
def LowFits (blob : OpenBlob) (size : UInt64) (offset : Nat) : Prop :=
  low size < 2 ^ 31 ∧ offset + low size ≤ blob.cell.length

/-! ## The three calls -/

/-- `Read` throws, or returns the `size` bytes at the offset. -/
def ReadExact (blob : OpenBlob) (size : UInt64) (offset : Nat) (s : SqliteState) : Prop :=
  ∀ bytes s', (SqliteBlob.read E blob.cell size offset).run s = .ok bytes s' →
    offset + size.toNat ≤ blob.cell.length ∧ bytes = (blob.cell.drop offset).take size.toNat

/-- `Write` throws, or stores the `size` bytes of the buffer at the offset. -/
def WriteExact (blob : OpenBlob) (buff : Option (List UInt8)) (size : UInt64) (offset : Nat)
    (s : SqliteState) : Prop :=
  ∀ cell s', (SqliteBlob.write E blob.cell buff size offset).run s = .ok cell s' →
    offset + size.toNat ≤ blob.cell.length ∧ ∃ bytes, buff = some bytes ∧
      cell = blob.cell.take offset ++ bytes.take size.toNat ++
        blob.cell.drop (offset + size.toNat)

/-- `InsertBlob` throws, or binds the `size` bytes of the data. -/
def InsertExact (sql : Str) (bytes : List UInt8) (size : UInt64) (s : SqliteState) : Prop :=
  ∀ s', (insertBlob E sql (some bytes) size).run s = .ok () s' →
    E.bindBlob (cString sql) bytes (toInt size) = .ok (bytes.take size.toNat)

/-! ## What the library is asked -/

variable {E} {blob : OpenBlob} {size : UInt64} {offset : Nat}

theorem blobRead_ok_iff {got : List UInt8} :
    E.blobRead blob.cell (toInt size) offset = .ok got ↔
      LowFits blob size offset ∧ got = (blob.cell.drop offset).take (low size) := by
  by_cases hlow : low size < 2 ^ 31
  · rw [toInt_of_low hlow]
    by_cases hinside : offset + low size ≤ blob.cell.length
    · rw [E.blobRead_inside _ _ _ hinside, Except.ok.injEq]
      exact ⟨fun h => ⟨⟨hlow, hinside⟩, h.symm⟩, fun h => h.2.symm⟩
    · obtain ⟨what, hthrow⟩ := E.blobRead_outside blob.cell (low size) offset (by omega)
      rw [hthrow]
      exact iff_of_false nofun fun h => hinside h.1.2
  · obtain ⟨what, hthrow⟩ := E.blobRead_outside blob.cell (toInt size) offset
      (Or.inl (toInt_neg (Nat.not_lt.mp hlow)))
    rw [hthrow]
    exact iff_of_false nofun fun h => hlow h.1.1

theorem blobWrite_ok_iff {bytes cell : List UInt8} (hbytes : size.toNat ≤ bytes.length) :
    E.blobWrite blob.cell bytes (toInt size) offset = .ok cell ↔
      LowFits blob size offset ∧ cell = blob.cell.take offset ++ bytes.take (low size) ++
        blob.cell.drop (offset + low size) := by
  by_cases hlow : low size < 2 ^ 31
  · rw [toInt_of_low hlow]
    by_cases hinside : offset + low size ≤ blob.cell.length
    · rw [E.blobWrite_inside _ _ _ _ ((low_le size).trans hbytes) hinside, Except.ok.injEq]
      exact ⟨fun h => ⟨⟨hlow, hinside⟩, h.symm⟩, fun h => h.2.symm⟩
    · obtain ⟨what, hthrow⟩ := E.blobWrite_outside blob.cell bytes (low size) offset (by omega)
      rw [hthrow]
      exact iff_of_false nofun fun h => hinside h.1.2
  · obtain ⟨what, hthrow⟩ := E.blobWrite_outside blob.cell bytes (toInt size) offset
      (Or.inl (toInt_neg (Nat.not_lt.mp hlow)))
    rw [hthrow]
    exact iff_of_false nofun fun h => hlow h.1.1

/-- There is a buffer, and no fault meets the call that fills it. -/
theorem faults_take_two (hsize : size ≠ 0) (s : SqliteState) :
    (size.toNat < 2 ^ 63 ∧ ∀ fault ∈ s.disk.faults.take 2, fault = none) ↔
      ¬ NoBuffer size s ∧ nextFault (takeFault s) = none := by
  unfold NoBuffer
  simp [faults_take_succ, hsize, and_assoc]

/-- `Read` returns exactly when the library accepts the count, and then with zeros after the bytes
it has read. -/
theorem read_eq_ok {bytes : List UInt8} {s : SqliteState} :
    (∃ s', (SqliteBlob.read E blob.cell size offset).run s = .ok bytes s') ↔
      size ≠ 0 ∧ size.toNat < 2 ^ 63 ∧ (∀ fault ∈ s.disk.faults.take 2, fault = none) ∧
        LowFits blob size offset ∧
        bytes = (blob.cell.drop offset).take (low size) ++
          List.replicate (size.toNat - low size) 0 := by
  have hends := read_ends E blob.cell size (Int.natCast_nonneg offset) s
  generalize (SqliteBlob.read E blob.cell size offset).run s = r at hends
  cases hends with
  | refused hsize => exact iff_of_false nofun fun h => h.1 hsize
  | noBuffer hbuffer _ =>
    refine iff_of_false nofun fun h => ?_
    exact ((faults_take_two h.1 s).mp ⟨h.2.1, h.2.2.1⟩).1 hbuffer
  | failed _ hnone =>
    refine iff_of_false nofun fun h => ?_
    have hfault := ((faults_take_two h.1 s).mp ⟨h.2.1, h.2.2.1⟩).2
    exact hnone _ (answer_eq_ok.mpr ⟨hfault, blobRead_ok_iff.mpr ⟨h.2.2.2.1, rfl⟩⟩)
  | read hsize hbuffer hread =>
    obtain ⟨hfault, hgot⟩ := answer_eq_ok.mp hread
    obtain ⟨hfits, rfl⟩ := blobRead_ok_iff.mp hgot
    have hlength : ((blob.cell.drop offset).take (low size)).length = low size := by
      rw [List.length_take, List.length_drop]
      have hinside := hfits.2
      omega
    rw [hlength]
    obtain ⟨hfits63, hfaults⟩ := (faults_take_two hsize s).mpr ⟨hbuffer, hfault⟩
    constructor
    · rintro ⟨s', ⟨⟩⟩
      exact ⟨hsize, hfits63, hfaults, hfits, rfl⟩
    · rintro ⟨-, -, -, -, rfl⟩
      exact ⟨_, rfl⟩

/-- `Write` returns exactly when the library accepts the count. -/
theorem write_eq_ok {bytes cell : List UInt8} (hbytes : size.toNat ≤ bytes.length)
    {s : SqliteState} :
    (∃ s', (SqliteBlob.write E blob.cell (some bytes) size offset).run s = .ok cell s') ↔
      size ≠ 0 ∧ (∀ fault ∈ s.disk.faults.head?, fault = none) ∧ LowFits blob size offset ∧
        cell = blob.cell.take offset ++ bytes.take (low size) ++
          blob.cell.drop (offset + low size) := by
  have hoffset : ¬ (offset : Int) < 0 := by omega
  unfold SqliteBlob.write
  by_cases hsize : size = 0
  · simp only [if_pos hsize]
    exact iff_of_false (by rintro ⟨s', ⟨⟩⟩) fun h => h.1 hsize
  simp only [if_neg hsize, if_neg hoffset]
  rw [bind_ok (call_answer _ s)]
  cases hwrite : answer (fun _ => E.blobWrite blob.cell bytes (toInt size) offset) s with
  | error what =>
    refine iff_of_false (by rintro ⟨s', ⟨⟩⟩) fun h => ?_
    rw [answer_eq_ok.mpr ⟨nextFault_eq_none.mpr h.2.1, (blobWrite_ok_iff hbytes).mpr h.2.2⟩]
      at hwrite
    cases hwrite
  | ok cell' =>
    obtain ⟨hfault, hcell⟩ := answer_eq_ok.mp hwrite
    obtain ⟨hfits, rfl⟩ := (blobWrite_ok_iff hbytes).mp hcell
    constructor
    · rintro ⟨s', ⟨⟩⟩
      exact ⟨hsize, nextFault_eq_none.mp hfault, hfits, rfl⟩
    · rintro ⟨-, -, -, rfl⟩
      exact ⟨_, rfl⟩

/-! ## When no size is truncated -/

variable (E)

/-- A size from 2³² on is larger than every blob. -/
theorem not_inside_of_large (blob : OpenBlob) {size : UInt64} (h : 2 ^ 32 ≤ size.toNat)
    (offset : Nat) : ¬ offset + size.toNat ≤ blob.cell.length := by
  have hsmall := blob.small
  omega

theorem readExact_iff (blob : OpenBlob) (size : UInt64) (offset : Nat) (s : SqliteState) :
    ReadExact E blob size offset s ↔
      (2 ^ 32 ≤ size.toNat → size.toNat < 2 ^ 63 →
        (∀ fault ∈ s.disk.faults.take 2, fault = none) → ¬ LowFits blob size offset) := by
  constructor
  · intro hexact hlarge hhuge hfaults hfits
    have hsize : size ≠ 0 := by
      rintro rfl
      exact absurd hlarge (by decide)
    obtain ⟨s', hrun⟩ := (read_eq_ok (E := E)).mpr ⟨hsize, hhuge, hfaults, hfits, rfl⟩
    exact not_inside_of_large blob hlarge offset (hexact _ s' hrun).1
  · intro h bytes s' hrun
    obtain ⟨-, hhuge, hfaults, hfits, rfl⟩ := read_eq_ok.mp ⟨s', hrun⟩
    have hsmall : size.toNat < 2 ^ 32 := by
      by_contra hlarge
      exact h (Nat.not_lt.mp hlarge) hhuge hfaults hfits
    have hinside := hfits.2
    rw [low_of_lt hsmall] at hinside ⊢
    rw [Nat.sub_self, List.replicate_zero, List.append_nil]
    exact ⟨hinside, rfl⟩

theorem writeExact_iff (blob : OpenBlob) {bytes : List UInt8} {size : UInt64}
    (hbytes : size.toNat ≤ bytes.length) (offset : Nat) (s : SqliteState) :
    WriteExact E blob (some bytes) size offset s ↔
      (2 ^ 32 ≤ size.toNat → (∀ fault ∈ s.disk.faults.head?, fault = none) →
        ¬ LowFits blob size offset) := by
  constructor
  · intro hexact hlarge hfault hfits
    have hsize : size ≠ 0 := by
      rintro rfl
      exact absurd hlarge (by decide)
    obtain ⟨s', hrun⟩ := (write_eq_ok (E := E) hbytes).mpr ⟨hsize, hfault, hfits, rfl⟩
    exact not_inside_of_large blob hlarge offset (hexact _ s' hrun).1
  · intro h cell s' hrun
    obtain ⟨-, hfault, hfits, rfl⟩ := (write_eq_ok hbytes).mp ⟨s', hrun⟩
    have hsmall : size.toNat < 2 ^ 32 := by
      by_contra hlarge
      exact h (Nat.not_lt.mp hlarge) hfault hfits
    have hinside := hfits.2
    rw [low_of_lt hsmall] at hinside ⊢
    exact ⟨hinside, bytes, rfl, rfl⟩

theorem insertExact_iff (sql : Str) {bytes : List UInt8} {size : UInt64}
    (hbytes : size.toNat ≤ bytes.length) (s : SqliteState) :
    InsertExact E sql bytes size s ↔
      (Inserts E sql (some bytes) size s → size.toNat < 2 ^ 31 ∨
        2 ^ 31 ≤ low size ∧
          E.bindBlob (cString sql) bytes (toInt size) = .ok (bytes.take size.toNat)) := by
  constructor
  · intro hexact hinserts
    obtain ⟨s', hrun⟩ := (insertBlob_returns_iff E _ _ _ _).mpr hinserts
    have hbound := hexact s' hrun
    by_cases hlow : low size < 2 ^ 31
    · left
      rw [toInt_of_low hlow] at hbound
      have hsame := E.bindBlob_exact _ _ _ _ ((low_le size).trans hbytes) hbound
      have hlength := congrArg List.length hsame
      rw [List.length_take_of_le hbytes, List.length_take_of_le ((low_le size).trans hbytes)]
        at hlength
      omega
    · exact Or.inr ⟨Nat.not_lt.mp hlow, hbound⟩
  · intro h s' hrun
    have hinserts := (insertBlob_returns_iff E sql (some bytes) size s).mp ⟨s', hrun⟩
    rcases h hinserts with hsmall | ⟨-, hbound⟩
    · obtain ⟨-, -, -, bytes', bound, ⟨⟨⟩⟩, -, hbind, -⟩ := hinserts
      rw [hbind]
      rw [toInt_of_lt hsmall] at hbind
      rw [E.bindBlob_exact _ _ _ _ hbytes hbind]
    · exact hbound

/-- **Which sizes are truncated.** `Read` and `Write` on an open blob go wrong exactly for the sizes
from 2³² on whose low 32 bits are a count that fits into the blob, when nothing else makes them
throw; `InsertBlob`, when it returns, for the sizes from 2³¹ on, unless the library has bound all
bytes for a negative count. The buffers hold the bytes that their callers announce. -/
theorem sizes_not_truncated_iff (blob : OpenBlob) (sql : Str) {bytes : List UInt8} {size : UInt64}
    (hbytes : size.toNat ≤ bytes.length) (offset : Nat) (s : SqliteState) :
    (ReadExact E blob size offset s ↔
      (2 ^ 32 ≤ size.toNat → size.toNat < 2 ^ 63 →
        (∀ fault ∈ s.disk.faults.take 2, fault = none) → ¬ LowFits blob size offset)) ∧
    (WriteExact E blob (some bytes) size offset s ↔
      (2 ^ 32 ≤ size.toNat → (∀ fault ∈ s.disk.faults.head?, fault = none) →
        ¬ LowFits blob size offset)) ∧
    (InsertExact E sql bytes size s ↔
      (Inserts E sql (some bytes) size s → size.toNat < 2 ^ 31 ∨
        2 ^ 31 ≤ low size ∧
          E.bindBlob (cString sql) bytes (toInt size) = .ok (bytes.take size.toNat))) :=
  ⟨readExact_iff E blob size offset s, writeExact_iff E blob hbytes offset s,
    insertExact_iff E sql hbytes s⟩

/-- A blob of three bytes. -/
def threeBytes : OpenBlob := ⟨[1, 2, 3], by decide⟩

/-- Two bytes are read, written and bound as they are. -/
theorem two_bytes_not_truncated :
    ReadExact plainEngine threeBytes 2 1 emptyDatabase ∧
      WriteExact plainEngine threeBytes (some [8, 9]) 2 1 emptyDatabase ∧
      InsertExact plainEngine (Sql.insertRow ['a'] 1 2 1) [8, 9] 2 emptyDatabase := by
  obtain ⟨hread, hwrite, hinsert⟩ := sizes_not_truncated_iff plainEngine threeBytes
    (Sql.insertRow ['a'] 1 2 1) (show (2 : UInt64).toNat ≤ [8, 9].length by decide) 1 emptyDatabase
  have hsmall : ¬ 2 ^ 32 ≤ (2 : UInt64).toNat := by decide
  exact ⟨hread.mpr fun h => absurd h hsmall, hwrite.mpr fun h => absurd h hsmall,
    hinsert.mpr fun _ => .inl (by decide)⟩

/-- A size of 2³² + 1 reads one byte and gives it back with 2³² zeros, and writes one byte. -/
theorem large_size_truncated :
    ¬ ReadExact plainEngine threeBytes 0x100000001 0 ⟨⟨fun _ => none, []⟩, Sqlite.new⟩ ∧
      ¬ WriteExact plainEngine threeBytes (some (List.replicate 0x100000001 7)) 0x100000001 0
        ⟨⟨fun _ => none, []⟩, Sqlite.new⟩ := by
  have hfits : LowFits threeBytes 0x100000001 0 := by
    unfold LowFits
    decide
  constructor
  · rw [readExact_iff]
    exact fun h => h (by decide) (by decide) (by simp) hfits
  · rw [writeExact_iff _ _ (by rw [List.length_replicate]; decide)]
    exact fun h => h (by decide) (by simp) hfits

end Azulejo
