import Azulejo.Entities.EntityHierarchy

/-!
# Loading a serialization structure that fails

`LoadSerializationStructure` records the new path before it opens the file. When there is no file
it clears the path, which may be that of a structure loaded before; when the file is malformed it
leaves the new path behind.
-/

namespace Azulejo

open Stateful

variable (J : Json) (files : JsonFiles)

/-- If the loading throws, the path and the structure are those from before, and the hierarchy has a
structure just if it had one. -/
def FailedLoadIsNoOp (pathToJSON : Path) (h : EntityHierarchy) : Prop :=
  ∀ err h', (EntityHierarchy.loadSerializationStructure J files pathToJSON).run h = .error err h' →
    h'.serializationPath = h.serializationPath ∧
      h'.serializationStructure = h.serializationStructure ∧
      h'.hasSerializationStructure = h.hasSerializationStructure

namespace EntityHierarchy

variable {J files} {pathToJSON : Path}

theorem load_returns {text : List UInt8} {tree : Ptree}
    (hfile : files.contents pathToJSON = some text) (hread : J.read text = .ok tree)
    (h : EntityHierarchy) :
    (loadSerializationStructure J files pathToJSON).run h = .ok () ⟨pathToJSON, tree⟩ := by
  unfold loadSerializationStructure
  rw [bind_ok (EStateM.run_modify _ _)]
  simp only [hfile, hread]
  rfl

/-- A malformed file leaves the path of the file. -/
theorem load_malformed {text : List UInt8} {what : Str}
    (hfile : files.contents pathToJSON = some text) (hread : J.read text = .error what)
    (h : EntityHierarchy) :
    (loadSerializationStructure J files pathToJSON).run h =
      .error (.runtimeError what) ⟨pathToJSON, h.serializationStructure⟩ := by
  unfold loadSerializationStructure
  rw [bind_ok (EStateM.run_modify _ _)]
  simp only [hfile, hread]
  rfl

/-- A file that cannot be opened leaves no path. -/
theorem load_unopened (hfile : files.contents pathToJSON = none) (h : EntityHierarchy) :
    (loadSerializationStructure J files pathToJSON).run h =
      .error (.runtimeError ("Could not open ".toList ++ pathToJSON ++
        " when loading serialization structure".toList)) ⟨[], h.serializationStructure⟩ := by
  unfold loadSerializationStructure
  rw [bind_ok (EStateM.run_modify _ _)]
  simp only [hfile]
  rw [bind_ok (EStateM.run_modify _ _)]
  rfl

end EntityHierarchy

open EntityHierarchy

/-- A load that throws and leaves the structure and the path `left` is a no-op just if `left` was
the path. -/
theorem failedLoadIsNoOp_of_error {pathToJSON left : Path} {h : EntityHierarchy} {err : Exception}
    (hrun : (loadSerializationStructure J files pathToJSON).run h =
      .error err ⟨left, h.serializationStructure⟩) :
    FailedLoadIsNoOp J files pathToJSON h ↔ h.serializationPath = left := by
  constructor
  · intro hsame
    exact (hsame _ _ hrun).1.symm
  · rintro rfl err' h' hrun'
    rw [hrun] at hrun'
    cases hrun'
    exact ⟨rfl, rfl, rfl⟩

/-- **When a failed load changes nothing.** From any hierarchy and for any path: the load does not
fail, or there is no file and there was no path, or the file is malformed and its path was the
recorded one already. -/
theorem failedLoadIsNoOp_iff (pathToJSON : Path) (h : EntityHierarchy) :
    FailedLoadIsNoOp J files pathToJSON h ↔
      (∃ text tree, files.contents pathToJSON = some text ∧ J.read text = .ok tree) ∨
      (files.contents pathToJSON = none ∧ h.serializationPath = []) ∨
      (∃ text what, files.contents pathToJSON = some text ∧ J.read text = .error what ∧
        h.serializationPath = pathToJSON) := by
  cases hfile : files.contents pathToJSON with
  | none =>
    rw [failedLoadIsNoOp_of_error J files (load_unopened hfile h)]
    simp
  | some text =>
    cases hread : J.read text with
    | error what =>
      rw [failedLoadIsNoOp_of_error J files (load_malformed hfile hread h)]
      simp [hread]
    | ok tree =>
      refine iff_of_true ?_ (Or.inl ⟨text, tree, rfl, hread⟩)
      intro err h' hrun
      rw [load_returns hfile hread] at hrun
      cases hrun

/-- A hierarchy that was loaded from `a` loses its path when the file `b` is not there, and takes
the path `b` when that file is malformed. -/
theorem failed_load_changes_path :
    ¬ FailedLoadIsNoOp (Json.ofText LTree.empty []) ⟨fun _ => none, fun _ => true⟩ ['b']
        ⟨['a'], LTree.empty⟩ ∧
      ¬ FailedLoadIsNoOp ⟨fun _ => .ok [], fun _ => .error "expected value".toList⟩
        ⟨fun _ => some [], fun _ => true⟩ ['b'] ⟨['a'], LTree.empty⟩ := by
  constructor
  · rw [failedLoadIsNoOp_of_error _ _ (load_unopened rfl _)]
    decide
  · rw [failedLoadIsNoOp_of_error _ _ (load_malformed rfl rfl _)]
    decide

end Azulejo
