import Azulejo.Properties.ResourceFile

/-!
# Files of a wrong size

`Deserialize` takes the dimensions of a resource from the first sixteen bytes of its file, and the
data from the rest, however long that is. It is left to the class of the resource to compare the
two.
-/

namespace Azulejo

open Stateful ResourceDeserializer

/-- A `Deserialize` that returns has called `Assign` with as many bytes as the dimensions of the
header say, and not at all when these are none. -/
def AssignsAll (registry : Registry) (files : Files) (key path : Str) : Prop :=
  ∀ r, deserialize registry files key path = .ok r →
    ∃ content c, files (resourceFile path key) = some content ∧ registry key = some c ∧
      (payload content).length =
        c.construct.elementSize.toNat * (columnSize content).toNat * (rowSize content).toNat ∧
      (fillResource (columnSize content) (rowSize content) (payload content) c).run c.construct =
        .ok () r

/-! ## When a new resource takes what the file has -/

/-- A new object with the dimensions of the header. -/
def sized (content : List UInt8) (c : ResourceClass) : IResource :=
  { c.construct with M := columnSize content, N := rowSize content }

/-- The new object takes the dimensions of the header, and its `Assign` the bytes behind it. -/
structure Takes (content : List UInt8) (c : ResourceClass) : Prop where
  columns : c.construct.M = 0 ∨ c.construct.M = columnSize content
  rows : c.construct.N = 0 ∨ c.construct.N = rowSize content
  assign : payload content ≠ [] →
    ∃ r, (c.assign (payload content)).run (sized content c) = .ok () r

/-- The new resource is filled exactly if it takes what the file has. -/
theorem fillResource_returns_iff {content : List UInt8} {c : ResourceClass} :
    (∃ r, (fillResource (columnSize content) (rowSize content) (payload content) c).run
      c.construct = .ok () r) ↔ Takes content c := by
  by_cases hcolumns : c.construct.M = 0 ∨ c.construct.M = columnSize content
  · by_cases hrows : c.construct.N = 0 ∨ c.construct.N = rowSize content
    · rw [fillResource_run hcolumns hrows]
      by_cases hpayload : payload content ≠ []
      · rw [if_pos hpayload]
        exact ⟨fun h => ⟨hcolumns, hrows, fun _ => h⟩, fun h => h.assign hpayload⟩
      · rw [if_neg hpayload]
        exact ⟨fun _ => ⟨hcolumns, hrows, fun h => absurd h hpayload⟩, fun _ => ⟨_, rfl⟩⟩
    · refine iff_of_false ?_ fun h => hrows h.rows
      rintro ⟨r, hrun⟩
      have hthrows : IResource.setRowSize (rowSize content)
          { c.construct with M := columnSize content } = .error IResource.dimensionsChanged :=
        IResource.setRowSize_throws hrows
      unfold fillResource at hrun
      rw [bind_ok (EStateM.run_get _), bind_ok (lift_ok (IResource.setColumnSize_eq hcolumns) _),
        bind_ok (EStateM.run_set _ _), bind_ok (EStateM.run_get _),
        bind_error (lift_error hthrows _)] at hrun
      cases hrun
  · refine iff_of_false ?_ fun h => hcolumns h.columns
    rintro ⟨r, hrun⟩
    unfold fillResource at hrun
    rw [bind_ok (EStateM.run_get _),
      bind_error (lift_error (IResource.setColumnSize_throws hcolumns) _)] at hrun
    cases hrun

theorem deserialize_eq_ok_iff {registry : Registry} {files : Files} {key path : Str}
    {content : List UInt8} {c : ResourceClass} (h : Opens registry files key path content c)
    {r : IResource} :
    deserialize registry files key path = .ok r ↔
      (fillResource (columnSize content) (rowSize content) (payload content) c).run c.construct =
        .ok () r := by
  rw [deserialize_of_opens h]
  cases (fillResource (columnSize content) (rowSize content) (payload content) c).run
      c.construct with
  | ok _ r' =>
    constructor
    · intro heq
      cases heq
      rfl
    · intro heq
      cases heq
      rfl
  | error e r' => exact ⟨fun heq => (by cases heq), fun heq => (by cases heq)⟩

/-- `Assign` gets as many bytes as the header says, for every file that is read, exactly if the
rest of the file has that length whenever the class of the resource takes it. -/
theorem assignsAll_iff (registry : Registry) (files : Files) (key path : Str) :
    AssignsAll registry files key path ↔
      ∀ content c, Opens registry files key path content c → Takes content c →
        (payload content).length =
          c.construct.elementSize.toNat * (columnSize content).toNat *
            (rowSize content).toNat := by
  constructor
  · intro hassigns content c hopens htakes
    obtain ⟨r, hfill⟩ := fillResource_returns_iff.mpr htakes
    obtain ⟨content', c', hfile, hregistered, hlength, -⟩ :=
      hassigns r ((deserialize_eq_ok_iff hopens).mpr hfill)
    obtain rfl : content' = content := Option.some.inj (hfile.symm.trans hopens.file)
    obtain rfl : c' = c := Option.some.inj (hregistered.symm.trans hopens.registered)
    exact hlength
  · intro hlengths r hrun
    obtain ⟨content, c, hopens⟩ := opens_of_deserialize hrun
    have hfill := (deserialize_eq_ok_iff hopens).mp hrun
    exact ⟨content, c, hopens.file, hopens.registered,
      hlengths content c hopens (fillResource_returns_iff.mp ⟨r, hfill⟩), hfill⟩

/-! ## What a resource reads later -/

/-- The checksum and `Serialize` read bytes that exist. -/
theorem size_le_of_assignsAll {registry : Registry} {files : Files} {key path : Str}
    (h : AssignsAll registry files key path) {c : ResourceClass}
    (hregistered : registry key = some c) (hc : StoresBytes c)
    (hempty : c.construct.data.getD [] = []) {r : IResource}
    (hrun : deserialize registry files key path = .ok r) :
    r.size.toNat ≤ (r.data.getD []).length := by
  obtain ⟨content, c', -, hregistered', hlength, hfill⟩ := h r hrun
  obtain rfl : c' = c := Option.some.inj (hregistered'.symm.trans hregistered)
  obtain ⟨r', hfill', hM, hN, helement, hdata⟩ :=
    fillFromFile_run hc hempty (columnSize content) (rowSize content) (payload content)
  obtain rfl : r = r' := by
    rw [hfill] at hfill'
    cases hfill'
    rfl
  rw [hdata, hlength, IResource.toNat_size, helement, hM, hN]
  exact Nat.mod_le _ _

/-! ## The resources of the tests -/

/-- The most elements that a `std::vector` of elements of the given size can have. -/
def vectorMaxSize (elementSize : UInt64) : Nat := (2 ^ 63 - 1) / elementSize.toNat

/-- `ContainerResource2D<T>` with `sizeof(T)`. What `Assign` writes past the end of `data_` does
not belong to the resource. -/
def containerResource2D (elementSize : UInt64) : ResourceClass where
  construct := IResource.new elementSize
  assign bytes := do
    if bytes = [] then
      throw (.runtimeError "N cannot be 0 during Resource::Assign".toList)
    if bytes.length % elementSize.toNat ≠ 0 then
      throw (.runtimeError
        "n is not a multiple of sizeof(T) during Resource<T>::Assign".toList)
    let r ← get
    if r.M = 0 ∨ r.N = 0 then
      throw (.runtimeError
        "Resource data row/column dimensions are not set during Resource<T>::Assign".toList)
    let count := (r.M * r.N).toNat
    if vectorMaxSize elementSize < count then
      throw (.logicError "vector::_M_default_append".toList)
    let size := count * elementSize.toNat
    let resized := (r.data.getD [] ++ List.replicate size 0).take size
    set { r with data := some (bytes.take size ++ resized.drop bytes.length) }

/-- It takes every number of whole elements, whatever its dimensions are. -/
theorem deserialize_container {registry : Registry} {files : Files} {key path : Str}
    {content : List UInt8} {elementSize : UInt64}
    (h : Opens registry files key path content (containerResource2D elementSize))
    (hcolumns : columnSize content ≠ 0) (hrows : rowSize content ≠ 0)
    (hcount : (columnSize content * rowSize content).toNat ≤ vectorMaxSize elementSize)
    (hwhole : (payload content).length % elementSize.toNat = 0) :
    ∃ r, deserialize registry files key path = .ok r := by
  have htakes : Takes content (containerResource2D elementSize) := by
    refine ⟨Or.inl rfl, Or.inl rfl, fun hpayload => ?_⟩
    have hdimensions : ¬ ((sized content (containerResource2D elementSize)).M = 0 ∨
        (sized content (containerResource2D elementSize)).N = 0) := not_or.mpr ⟨hcolumns, hrows⟩
    have hfits : ¬ vectorMaxSize elementSize <
        ((sized content (containerResource2D elementSize)).M *
          (sized content (containerResource2D elementSize)).N).toNat := Nat.not_lt.mpr hcount
    simp only [containerResource2D] at hdimensions hfits ⊢
    simp only [if_neg hpayload, hwhole, ne_eq, not_true_eq_false, if_false]
    rw [bind_ok (EStateM.run_get _), if_neg hdimensions]
    simp only [if_neg hfits]
    exact ⟨_, rfl⟩
  obtain ⟨r, hfill⟩ := fillResource_returns_iff.mpr htakes
  exact ⟨r, (deserialize_eq_ok_iff h).mpr hfill⟩

/-- Two columns and two rows, and data for one `int`. -/
def truncatedFile : List UInt8 :=
  LittleEndian.ofUInt64 2 ++ LittleEndian.ofUInt64 2 ++ [1, 0, 0, 0]

/-- `Assign` is called with four bytes for the sixteen that the header says. -/
theorem truncated_file_taken :
    ¬ AssignsAll (fun _ => some (containerResource2D 4)) (fun _ => some truncatedFile)
      ['k'] ['d'] := by
  intro hassigns
  have hopens : Opens (fun _ => some (containerResource2D 4)) (fun _ => some truncatedFile)
      ['k'] ['d'] truncatedFile (containerResource2D 4) :=
    ⟨List.cons_ne_nil _ _, List.cons_ne_nil _ _, rfl, by decide, rfl⟩
  obtain ⟨r, hrun⟩ := deserialize_container hopens (by decide) (by decide) (by decide) (by decide)
  obtain ⟨content, c, hfile, hregistered, hlength, -⟩ := hassigns r hrun
  cases hfile
  cases hregistered
  exact absurd hlength (by decide)

end Azulejo
