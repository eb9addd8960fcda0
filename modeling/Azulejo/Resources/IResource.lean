import Azulejo.Basic
import Azulejo.Entities.EntityHierarchy
import Mathlib.Algebra.Order.Ring.Nat

/-!
# Resources

The state of an `IResource` and its change detection. `size_t` is `UInt64`; the checksum is
an `int` holding the 32 bits of a CRC, here as a `UInt32`. The CRC itself is a parameter.
-/

namespace Azulejo

/-- A resource object: its dimensions and change-tracking state, and the bytes behind
`Data()`, which is a null pointer when there are none. `elementSize` is what the class
returns from `GetElementSize`. `hierarchyTree` is the member an `EntityHierarchyBlob` adds;
an object of another class has none. -/
structure IResource where
  elementSize : UInt64
  M : UInt64
  N : UInt64
  checkSum : UInt32
  dirty : Bool
  data : Option (List UInt8)
  hierarchyTree : Option Ptree

namespace IResource

/-- A new object of a class with the given element size: `M_{0}`, `N_{0}`, `checkSum_{-1}`
and `dirty_{true}`. -/
def new (elementSize : UInt64) : IResource where
  elementSize := elementSize
  M := 0
  N := 0
  checkSum := 0xFFFFFFFF
  dirty := true
  data := none
  hierarchyTree := none

def dimensionsChanged : Exception :=
  .runtimeError "Cannot change dimensions of Resource object".toList

/-- `SetColumnSize`. -/
def setColumnSize (size : UInt64) (r : IResource) : Except Exception IResource :=
  if r.M ≠ 0 ∧ r.M ≠ size then throw dimensionsChanged else pure { r with M := size }

/-- `SetRowSize`. -/
def setRowSize (size : UInt64) (r : IResource) : Except Exception IResource :=
  if r.N ≠ 0 ∧ r.N ≠ size then throw dimensionsChanged else pure { r with N := size }

theorem setColumnSize_eq {r : IResource} {size : UInt64} (h : r.M = 0 ∨ r.M = size) :
    r.setColumnSize size = .ok { r with M := size } := by
  have hsame : ¬ (r.M ≠ 0 ∧ r.M ≠ size) := by tauto
  simp only [setColumnSize, if_neg hsame]
  rfl

theorem setRowSize_eq {r : IResource} {size : UInt64} (h : r.N = 0 ∨ r.N = size) :
    r.setRowSize size = .ok { r with N := size } := by
  have hsame : ¬ (r.N ≠ 0 ∧ r.N ≠ size) := by tauto
  simp only [setRowSize, if_neg hsame]
  rfl

theorem setColumnSize_throws {r : IResource} {size : UInt64} (h : ¬ (r.M = 0 ∨ r.M = size)) :
    r.setColumnSize size = .error dimensionsChanged := by
  rw [not_or] at h
  simp only [setColumnSize, if_pos h]
  rfl

theorem setRowSize_throws {r : IResource} {size : UInt64} (h : ¬ (r.N = 0 ∨ r.N = size)) :
    r.setRowSize size = .error dimensionsChanged := by
  rw [not_or] at h
  simp only [setRowSize, if_pos h]
  rfl

/-- `GetElementSize() * GetColumnSize() * GetRowSize()`, in 64 bits. -/
def size (r : IResource) : UInt64 := r.elementSize * r.M * r.N

theorem toNat_size (r : IResource) :
    r.size.toNat = r.elementSize.toNat * r.M.toNat * r.N.toNat % 2 ^ 64 := by
  simp only [size, UInt64.toNat_mul]
  exact Nat.mod_mul_mod _ _ _

/-- The bytes the code reads behind `Data()`: as many as `size` says. Where there are fewer, the
code reads past their end, and what it reads there is left out here. -/
def bytes (r : IResource) : List UInt8 := (r.data.getD []).take r.size.toNat

variable (crc : List UInt8 → UInt32)

/-- `Checksum`. -/
def checksum (r : IResource) : UInt32 := crc r.bytes

/-- `UpdateChecksum`: whether the checksum changed, and the object afterwards. -/
def updateChecksum (r : IResource) : Bool × IResource :=
  let check := r.checksum crc
  if check = r.checkSum then (false, { r with dirty := false })
  else (true, { r with checkSum := check, dirty := true })

variable {crc}

theorem updateChecksum_changed {r : IResource} (h : r.checksum crc ≠ r.checkSum) :
    r.updateChecksum crc = (true, { r with checkSum := r.checksum crc, dirty := true }) := by
  simp only [updateChecksum, if_neg h]

theorem updateChecksum_unchanged {r : IResource} (h : r.checksum crc = r.checkSum) :
    r.updateChecksum crc = (false, { r with dirty := false }) := by
  simp only [updateChecksum, if_pos h]

/-- It changes no more than the change-tracking state. -/
theorem updateChecksum_snd (r : IResource) :
    ∃ dirty, (r.updateChecksum crc).2 = { r with checkSum := r.checksum crc, dirty := dirty } := by
  by_cases h : r.checksum crc = r.checkSum
  · rw [updateChecksum_unchanged h, h]
    exact ⟨false, rfl⟩
  · rw [updateChecksum_changed h]
    exact ⟨true, rfl⟩

/-- Either way the recorded checksum is the current one afterwards. -/
theorem checkSum_updateChecksum (r : IResource) :
    (r.updateChecksum crc).2.checkSum = r.checksum crc := by
  by_cases h : r.checksum crc = r.checkSum
  · rw [updateChecksum_unchanged h]
    exact h.symm
  · rw [updateChecksum_changed h]

end IResource

/-- A resource class as a registered constructor makes it: a new object, and its `Assign`,
which is given the bytes of the buffer. -/
structure ResourceClass where
  construct : IResource
  assign : List UInt8 → EStateM Exception IResource Unit

/-- A resource class whose constructor makes an empty resource and whose `Assign` stores the
given bytes. -/
structure StoresBytes (c : ResourceClass) : Prop where
  M : c.construct.M = 0
  N : c.construct.N = 0
  assign : ∀ bytes r, bytes ≠ [] →
    (c.assign bytes).run r = .ok () { r with data := some bytes }

/-- A vector of elements of the given size. -/
def vectorClass (elementSize : UInt64) : ResourceClass :=
  ⟨IResource.new elementSize, fun bytes => modify fun r => { r with data := some bytes }⟩

theorem vectorClass_storesBytes (elementSize : UInt64) : StoresBytes (vectorClass elementSize) :=
  ⟨rfl, rfl, fun _ _ _ => rfl⟩

/-- A new byte resource with the given dimensions and content. -/
def byteResource (M N : UInt64) (bytes : List UInt8) : IResource :=
  { IResource.new 1 with M := M, N := N, data := some bytes }

/-- The bit by bit CRC-32 that `boost::crc_32_type` computes. -/
def crc32 (bytes : List UInt8) : UInt32 :=
  let shift (c : UInt32) : UInt32 :=
    if c &&& 1 = 1 then (c >>> 1) ^^^ 0xEDB88320 else c >>> 1
  let step (c : UInt32) (b : UInt8) : UInt32 :=
    (List.range 8).foldl (fun c _ => shift c) (c ^^^ b.toUInt32)
  (bytes.foldl step 0xFFFFFFFF) ^^^ 0xFFFFFFFF

end Azulejo
