import Azulejo.Resources.IResource
import Mathlib.Data.List.Chain

/-!
# What a check of the data notices

`UpdateChecksum` tells whether the data changed by a 32-bit CRC of it, and stands for "never
checked" with a checksum of -1. In a history of one resource, the checks are right exactly when
the first content checked does not have that checksum, and no content has the checksum of the
different one that was checked before it.
-/

namespace Azulejo

variable (crc : List UInt8 → UInt32)

/-! ## Histories of one resource -/

/-- What happens to a resource between its construction and its end. -/
inductive ContentCall where
  | mutate (M N : UInt64) (data : Option (List UInt8))
  | updateChecksum

/-- One call of `UpdateChecksum`: the bytes it found, and what it returned. -/
structure Check where
  bytes : List UInt8
  changed : Bool

namespace IResource

def mutate (M N : UInt64) (data : Option (List UInt8)) (r : IResource) : IResource :=
  { r with M := M, N := N, data := data }

/-- The checks of a history, in order. -/
def checks : IResource → List ContentCall → List Check
  | _, [] => []
  | r, .mutate M N data :: calls => checks (r.mutate M N data) calls
  | r, .updateChecksum :: calls =>
    ⟨r.bytes, (r.updateChecksum crc).1⟩ :: checks (r.updateChecksum crc).2 calls

/-- The contents that a history has checked, which the mutations alone decide. -/
def checkedContents : IResource → List ContentCall → List (List UInt8)
  | _, [] => []
  | r, .mutate M N data :: calls => checkedContents (r.mutate M N data) calls
  | r, .updateChecksum :: calls => r.bytes :: checkedContents r calls

end IResource

/-- The first check reports a change, and each later one reports none only if the bytes are
those of the check before. -/
def DetectsChanges (cs : List Check) : Prop :=
  (∀ c ∈ cs.head?, c.changed = true) ∧
    cs.IsChain fun previous c => c.changed = false → c.bytes = previous.bytes

/-- The checks compare checksums: each one after the first reports no change exactly for the
checksum of the check before, and the first reports a change if its checksum is not the one that
stands for none. -/
def ComparesChecksums (cs : List Check) : Prop :=
  (∀ c ∈ cs.head?, crc c.bytes ≠ 0xFFFFFFFF → c.changed = true) ∧
    cs.IsChain fun previous c => c.changed = false ↔ crc c.bytes = crc previous.bytes

/-- No content has the checksum of a different one that was checked just before. -/
def NoCollision : List (List UInt8) → Prop :=
  List.IsChain fun previous bytes => crc bytes = crc previous → bytes = previous

/-- The first content checked does not have the checksum that stands for none. -/
def FirstHasChecksum (contents : List (List UInt8)) : Prop :=
  ∀ bytes ∈ contents.head?, crc bytes ≠ 0xFFFFFFFF

/-! ## What one check finds -/

section

variable {crc}

theorem updateChecksum_fst (r : IResource) :
    (r.updateChecksum crc).1 = false ↔ crc r.bytes = r.checkSum := by
  by_cases h : r.checksum crc = r.checkSum
  · rw [IResource.updateChecksum_unchanged h]
    exact iff_of_true rfl h
  · rw [IResource.updateChecksum_changed h]
    exact iff_of_false Bool.noConfusion h

end

theorem checkedContents_tracking (r : IResource) (checkSum : UInt32) (dirty : Bool)
    (calls : List ContentCall) :
    { r with checkSum := checkSum, dirty := dirty }.checkedContents calls =
      r.checkedContents calls := by
  induction calls generalizing r with
  | nil => rfl
  | cons call calls ih =>
    cases call with
    | mutate M N data => exact ih (r.mutate M N data)
    | updateChecksum => exact congrArg (r.bytes :: ·) (ih r)

/-! ## Runs -/

/-- After a check, each of the later ones compares with the one before it. -/
theorem isChain_compares (r : IResource) (previous : Check) (h : r.checkSum = crc previous.bytes)
    (calls : List ContentCall) :
    (previous :: r.checks crc calls).IsChain
      fun previous c => c.changed = false ↔ crc c.bytes = crc previous.bytes := by
  induction calls generalizing r previous with
  | nil => exact List.isChain_singleton _
  | cons call calls ih =>
    cases call with
    | mutate M N data => exact ih (r.mutate M N data) previous h
    | updateChecksum =>
      have hcompares : (r.updateChecksum crc).1 = false ↔ crc r.bytes = crc previous.bytes := by
        rw [updateChecksum_fst, h]
      exact List.isChain_cons_cons.mpr
        ⟨hcompares, ih _ ⟨r.bytes, _⟩ (IResource.checkSum_updateChecksum r)⟩

/-- After a check, the later ones are right as long as no content collides with the one
before it. -/
theorem isChain_checks (r : IResource) (previous : Check) (h : r.checkSum = crc previous.bytes)
    (calls : List ContentCall) :
    (previous :: r.checks crc calls).IsChain
        (fun previous c => c.changed = false → c.bytes = previous.bytes) ↔
      NoCollision crc (previous.bytes :: r.checkedContents calls) := by
  induction calls generalizing r previous with
  | nil => exact iff_of_true (List.isChain_singleton _) (List.isChain_singleton _)
  | cons call calls ih =>
    cases call with
    | mutate M N data => exact ih (r.mutate M N data) previous h
    | updateChecksum =>
      obtain ⟨dirty, hnext⟩ := @IResource.updateChecksum_snd crc r
      have hlater := ih _ ⟨r.bytes, (r.updateChecksum crc).1⟩
        (@IResource.checkSum_updateChecksum crc r)
      rw [hnext, checkedContents_tracking] at hlater
      unfold IResource.checks IResource.checkedContents NoCollision
      rw [List.isChain_cons_cons, List.isChain_cons_cons, updateChecksum_fst, h, hnext]
      exact and_congr Iff.rfl hlater

/-- A resource as its constructor makes it, with any dimensions and content. -/
def constructed (elementSize M N : UInt64) (data : Option (List UInt8))
    (hierarchyTree : Option Ptree) : IResource :=
  { IResource.new elementSize with M := M, N := N, data := data, hierarchyTree := hierarchyTree }

theorem comparesChecksums_of_new (r : IResource) (h : r.checkSum = 0xFFFFFFFF)
    (calls : List ContentCall) : ComparesChecksums crc (r.checks crc calls) := by
  induction calls generalizing r with
  | nil => exact ⟨nofun, List.isChain_nil⟩
  | cons call calls ih =>
    cases call with
    | mutate M N data => exact ih (r.mutate M N data) h
    | updateChecksum =>
      refine ⟨?_, isChain_compares crc _ ⟨r.bytes, _⟩ (IResource.checkSum_updateChecksum r) calls⟩
      rintro c ⟨rfl⟩ hne
      rw [← Bool.not_eq_false, updateChecksum_fst, h]
      exact hne

theorem detectsChanges_of_new (r : IResource) (h : r.checkSum = 0xFFFFFFFF)
    (calls : List ContentCall) :
    DetectsChanges (r.checks crc calls) ↔
      FirstHasChecksum crc (r.checkedContents calls) ∧ NoCollision crc (r.checkedContents calls) := by
  induction calls generalizing r with
  | nil =>
    have hchecks : DetectsChanges [] := ⟨by simp, List.isChain_nil⟩
    have hcontents : FirstHasChecksum crc [] := by simp [FirstHasChecksum]
    exact iff_of_true hchecks ⟨hcontents, List.isChain_nil⟩
  | cons call calls ih =>
    cases call with
    | mutate M N data => exact ih (r.mutate M N data) h
    | updateChecksum =>
      obtain ⟨dirty, hnext⟩ := @IResource.updateChecksum_snd crc r
      have hlater := isChain_checks crc (r.updateChecksum crc).2
        ⟨r.bytes, (r.updateChecksum crc).1⟩ (IResource.checkSum_updateChecksum r) calls
      have hfirst : (r.updateChecksum crc).1 = true ↔ crc r.bytes ≠ 0xFFFFFFFF := by
        rw [← Bool.not_eq_false, updateChecksum_fst, h]
      rw [hnext, checkedContents_tracking, ← hnext] at hlater
      refine and_congr ?_ hlater
      simpa [FirstHasChecksum, IResource.checks, IResource.checkedContents] using hfirst

/-- **Change detection is as good as the checksum.** From the construction of a resource on,
with any content and any mutations of it between the checks, the first check reports a change
and a later one reports none only for the bytes of the check before, exactly when the first
content checked does not have the checksum `0xFFFFFFFF` and no content has the checksum of a
different one that was checked before it. -/
theorem updateChecksum_detects_iff (elementSize M N : UInt64) (data : Option (List UInt8))
    (hierarchyTree : Option Ptree) (calls : List ContentCall) :
    DetectsChanges ((constructed elementSize M N data hierarchyTree).checks crc calls) ↔
      FirstHasChecksum crc
          ((constructed elementSize M N data hierarchyTree).checkedContents calls) ∧
        NoCollision crc
          ((constructed elementSize M N data hierarchyTree).checkedContents calls) :=
  detectsChanges_of_new crc _ rfl calls

/-- **A check compares checksums.** From the construction of a resource on, with any content and
any mutations of it between the checks, a check after the first reports no change exactly when
the checksum of the bytes is that of the bytes at the check before. -/
theorem updateChecksum_compares (elementSize M N : UInt64) (data : Option (List UInt8))
    (hierarchyTree : Option Ptree) (calls : List ContentCall) :
    ComparesChecksums crc ((constructed elementSize M N data hierarchyTree).checks crc calls) :=
  comparesChecksums_of_new crc _ rfl calls

/-- The CRC of four bytes `0xFF` is the checksum that stands for none, so a new resource with
this content counts as unchanged; and five bytes that differ by the generator polynomial have
one CRC. -/
theorem updateChecksum_misses_changes :
    ¬ DetectsChanges ((constructed 1 1 4 (some [255, 255, 255, 255]) none).checks crc32
      [.updateChecksum]) ∧
    ¬ DetectsChanges ((constructed 1 1 5 (some [0, 0, 0, 0, 0]) none).checks crc32
      [.updateChecksum, .mutate 1 5 (some [65, 6, 113, 219, 1]), .updateChecksum]) := by
  have hsentinel : crc32 [255, 255, 255, 255] = 0xFFFFFFFF := by decide +kernel
  have hcollision : crc32 [65, 6, 113, 219, 1] = crc32 [0, 0, 0, 0, 0] := by decide +kernel
  constructor
  · rw [detectsChanges_of_new crc32 _ rfl]
    rintro ⟨hfirst, _⟩
    exact hfirst [255, 255, 255, 255] rfl hsentinel
  · rw [detectsChanges_of_new crc32 _ rfl]
    rintro ⟨_, hlater⟩
    have hpair : NoCollision crc32 [[0, 0, 0, 0, 0], [65, 6, 113, 219, 1]] := hlater
    have hsame := (List.isChain_cons_cons.mp hpair).1 hcollision
    exact absurd hsame (by decide)

end Azulejo
