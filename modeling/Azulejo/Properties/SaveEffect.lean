import Azulejo.Adapters.Canonical
import Azulejo.FilesystemAdapters.EntityAdapters
import Azulejo.DatabaseAdapters.EntityAdapters
import Azulejo.DatabaseAdapters.PlainEngine

/-!
# What saving does to the hierarchy

`saveWithParentKey_eq` at the root: one top-level entry is set to the canonical tree, and the
others stay. The placeholders of a saved entity are not among its canonical children, so
what was stored under them is gone.
-/

namespace Azulejo

open AssocList Stateful

variable {T D C W : Type}

/-- `after` is `before` with the top-level entry `k` set to `node`: there is one such entry,
and the other entries are as before, in the same order. -/
def SavedOver (before after : Ptree) (k : Key) (node : Ptree) : Prop :=
  List.lookup k after.children = some node ∧ after.labels.count k = 1 ∧
    after.children.filter (fun p => p.1 != k) = before.children.filter (fun p => p.1 != k)

theorem savedOver_set {t : Ptree} (h : t.Distinct) (k : Key) (node : Ptree) :
    SavedOver t (t.set [k] node) k node := by
  refine ⟨?_, ?_, ?_⟩
  · rw [LTree.set_singleton, LTree.children_node, lookup_setIn_self]
  · have hcount : t.labels.count k ≤ 1 := List.nodup_iff_count_le_one.mp h.nodup k
    exact count_setIn_self hcount node
  · rw [LTree.set_singleton, LTree.children_node, filter_setIn]

/-- Saving a root, when `finish` leaves the hierarchy alone. -/
theorem saveWithParentKey_root (P : PtreePaths) {A : Adapter T D C} (target : Path → Str → C)
    {finish : EStateM Exception (SaveState W) Unit} (hfinish : Keeps SaveState.tree finish)
    {e : Entity T D} {s : SaveState W}
    (he : Saveable A (target s.hierarchy.serializationPath) e []) (hs : s.tree.Distinct) :
    (finalState ((saveWithParentKey P A target finish e []).run s)).tree =
      s.tree.set [e.key] (canonical A (target s.hierarchy.serializationPath) e []) := by
  have hplain : ∀ k ∈ ([] : List Key), PlainKey k := by simp
  rw [← dotted_nil] at he
  have hrun := saveWithParentKey_eq P target finish he hplain (hs.uniqueAlong _)
  simp only [dotted_nil, List.nil_append] at hrun
  rw [hrun]
  unfold afterSave
  simp only [if_true]
  have hf := hfinish (s.setTree (s.tree.set [e.key]
    (canonical A (target s.hierarchy.serializationPath) e [])))
  cases hfin : finish.run (s.setTree (s.tree.set [e.key]
      (canonical A (target s.hierarchy.serializationPath) e []))) with
  | ok u s' =>
    rw [hfin] at hf
    rw [bind_ok hfin]
    exact hf
  | error err s' =>
    rw [hfin] at hf
    rw [bind_error hfin]
    exact hf

/-- A program on the world of the state leaves the hierarchy alone. -/
theorem onWorld_keeps_hierarchy (x : SaveState W → EStateM Exception W Unit) :
    Keeps SaveState.hierarchy (do
      let s ← get
      zoom SaveState.world (fun s w => { s with world := w }) (x s) :
        EStateM Exception (SaveState W) Unit) := by
  refine (keeps_get _).bind fun s t => ?_
  rw [zoom_run]
  cases (x s).run t.world <;> rfl

theorem onWorld_keeps_tree (x : SaveState W → EStateM Exception W Unit) :
    Keeps SaveState.tree (do
      let s ← get
      zoom SaveState.world (fun s w => { s with world := w }) (x s) :
        EStateM Exception (SaveState W) Unit) :=
  fun s => congrArg EntityHierarchy.serializationStructure (onWorld_keeps_hierarchy x s)

/-- A hierarchy with a root `q`, and a root `r` with a member `m`. -/
def storedTree : Ptree :=
  .node [] [(['q'], .node ['0'] []), (['r'], .node [] [(['m'], .node [] [(['v'], .node ['3'] [])])])]

theorem storedTree_distinct : storedTree.Distinct := by
  have hm : (LTree.node [] [(['m'], .node [] [(['v'], .node ['3'] [])])] : Ptree).Distinct :=
    LTree.distinct_singleton (LTree.distinct_singleton (LTree.distinct_leaf _) _ _) _ _
  apply LTree.Distinct.node (by decide)
  simp [LTree.distinct_leaf, hm]

/-- The state of a serializer with that hierarchy and no JSON path. -/
def storedState : SaveState JsonFiles := ⟨⟨[], storedTree⟩, ⟨fun _ => none, fun _ => false⟩⟩

section Adapters

variable (P : PtreePaths) (J : Json) (E : SqliteEngine) (crc : List UInt8 → UInt32)

theorem serializeWithParentKey_root {A : Adapter T D Path} {e : Entity T D}
    {s : SaveState JsonFiles} (he : Saveable A (directoryOf s.hierarchy.serializationPath) e [])
    (hs : s.tree.Distinct) :
    (finalState ((EntitySerializer.serializeWithParentKey P A J e []).run s)).tree =
      s.tree.set [e.key] (canonical A (directoryOf s.hierarchy.serializationPath) e []) :=
  saveWithParentKey_root P directoryOf (onWorld_keeps_tree _) he hs

theorem persistWithParentKey_root {A : Adapter T D Unit} {e : Entity T D}
    (he : Saveable A (fun _ => ()) e []) {s : SaveState PersisterWorld} (hs : s.tree.Distinct) :
    (finalState ((EntityPersister.persistWithParentKey P A J E crc e []).run s)).tree =
      s.tree.set [e.key] (canonical A (fun _ => ()) e []) :=
  saveWithParentKey_root P (fun _ _ => ()) (onWorld_keeps_tree _) he hs

/-- Saving an entity as a root replaces its top-level entry by its canonical tree and
changes no other entry, in the file system adapter and in the database adapter. -/
theorem saving_replaces_one_root {T D : Type} (P : PtreePaths) (J : Json) (E : SqliteEngine)
    (crc : List UInt8 → UInt32) (e : Entity T D) :
    (∀ (A : Adapter T D Path) (s : SaveState JsonFiles),
      Saveable A (directoryOf s.hierarchy.serializationPath) e [] → s.tree.Distinct →
      SavedOver s.tree
        (finalState ((EntitySerializer.serializeWithParentKey P A J e []).run s)).tree e.key
        (canonical A (directoryOf s.hierarchy.serializationPath) e [])) ∧
    (∀ (A : Adapter T D Unit) (s : SaveState PersisterWorld), Saveable A (fun _ => ()) e [] →
      s.tree.Distinct →
      SavedOver s.tree
        (finalState ((EntityPersister.persistWithParentKey P A J E crc e []).run s)).tree e.key
        (canonical A (fun _ => ()) e [])) := by
  refine ⟨?_, ?_⟩
  · intro A s he hs
    rw [serializeWithParentKey_root P J he hs]
    exact savedOver_set hs e.key _
  · intro A s he hs
    rw [persistWithParentKey_root P J E crc he hs]
    exact savedOver_set hs e.key _

/-- The stored member `m` of `r` is replaced by the one saved now. -/
theorem saving_replaces_one_root_sample :
    SavedOver storedTree
      (finalState ((EntitySerializer.serializeWithParentKey boostPaths (propertyAdapter Path)
        (Json.ofText storedTree []) (ownerOfM (some entityM)) []).run storedState)).tree ['r']
      (canonical (propertyAdapter Path) (directoryOf []) (ownerOfM (some entityM)) []) := by
  have hm : ∀ e, some entityM = some e → e = entityM := by
    intro e he
    cases he
    rfl
  exact (saving_replaces_one_root boostPaths (Json.ofText storedTree []) plainEngine crc32
    (ownerOfM (some entityM))).1 (propertyAdapter Path) storedState
    (ownerOfM_saveable hm _ _) storedTree_distinct

/-! ## Placeholders -/

/-- What was stored under the null placeholders of the root `e` is still there. -/
def KeepsPlaceholders (e : Entity T D) (before after : Ptree) : Prop :=
  ∀ k subtree, (k, none) ∈ e.membersMap → before.get? [e.key, k] = some subtree →
    after.get? [e.key, k] = some subtree

/-- The canonical tree has no child for a placeholder. -/
theorem lookup_canonical_placeholder {A : Adapter T D C} {directory : Str → C} {e : Entity T D}
    {parentKey : Str} (he : Saveable A directory e parentKey) {k : Key}
    (hk : (k, none) ∈ e.membersMap) :
    List.lookup k (canonical A directory e parentKey).children = none := by
  cases he with
  | @mk key type data membersMap ctors parentKey node plain sorted save names carry members =>
    rw [Entity.membersMap_mk] at hk
    rw [canonical_eq save]
    have hnot : k ∉ node.labels := fun h => names k h (mem_keys_of_mem hk)
    rw [LTree.addChildren, LTree.children_node, lookup_append_of_not_mem hnot, lookup_none]
    intro hmem
    obtain ⟨m, hm, _⟩ := exists_visited_of_mem_canonicalMembers carry hmem
    have hnull : List.lookup k membersMap = some none := lookup_of_nodup sorted.nodup hk
    rw [lookup_of_nodup sorted.nodup hm] at hnull
    cases hnull

/-- A saved root keeps what was under its placeholders only if nothing was. -/
theorem keepsPlaceholders_set_iff {A : Adapter T D C} {directory : Str → C} {e : Entity T D}
    (he : Saveable A directory e []) (t : Ptree) :
    KeepsPlaceholders e t (t.set [e.key] (canonical A directory e [])) ↔
      ∀ k, (k, none) ∈ e.membersMap → t.get? [e.key, k] = none := by
  have hlost : ∀ k, (k, none) ∈ e.membersMap →
      (t.set [e.key] (canonical A directory e [])).get? [e.key, k] = none := by
    intro k hk
    have hroot := LTree.get?_set_self [e.key] t (canonical A directory e [])
    have hchild := LTree.get?_concat hroot k
    rw [List.singleton_append] at hchild
    rw [hchild, lookup_canonical_placeholder he hk]
  constructor
  · intro hkeeps k hk
    cases hbefore : t.get? [e.key, k] with
    | none => rfl
    | some subtree =>
      have hafter := hkeeps k subtree hk hbefore
      rw [hlost k hk] at hafter
      cases hafter
  · intro hnone k subtree hk hbefore
    rw [hnone k hk] at hbefore
    cases hbefore

/-- Saving a root keeps the stored subtrees of its null placeholders exactly when there are
none to keep: the node is replaced by an empty one and null members are passed over. -/
theorem saving_keeps_placeholders_iff {T D : Type} (P : PtreePaths) (J : Json)
    (E : SqliteEngine) (crc : List UInt8 → UInt32) (e : Entity T D) :
    (∀ (A : Adapter T D Path) (s : SaveState JsonFiles),
      Saveable A (directoryOf s.hierarchy.serializationPath) e [] → s.tree.Distinct →
      (KeepsPlaceholders e s.tree (finalState ((EntitySerializer.serialize P A J e).run s)).tree ↔
        ∀ k, (k, none) ∈ e.membersMap → s.tree.get? [e.key, k] = none)) ∧
    (∀ (A : Adapter T D Unit) (s : SaveState PersisterWorld), Saveable A (fun _ => ()) e [] →
      s.tree.Distinct → s.world.database.isOpen = true →
      (KeepsPlaceholders e s.tree
          (finalState ((EntityPersister.persist P A J E crc e).run s)).tree ↔
        ∀ k, (k, none) ∈ e.membersMap → s.tree.get? [e.key, k] = none)) := by
  refine ⟨?_, ?_⟩
  · intro A s he hs
    have hrun : EntitySerializer.serialize P A J e =
        EntitySerializer.serializeWithParentKey P A J e [] := by
      simp [EntitySerializer.serialize, he.plain_key.1]
    rw [hrun, serializeWithParentKey_root P J he hs]
    exact keepsPlaceholders_set_iff he s.tree
  · intro A s he hs hopen
    have hrun : (EntityPersister.persist P A J E crc e).run s =
        (EntityPersister.persistWithParentKey P A J E crc e []).run s := by
      unfold EntityPersister.persist
      rw [bind_ok (EStateM.run_get s)]
      simp [hopen, he.plain_key.1]
    rw [hrun, persistWithParentKey_root P J E crc he hs]
    exact keepsPlaceholders_set_iff he s.tree

/-- A hierarchy with the root `q`, and the root `r` with a property and no member. -/
def memberlessTree : Ptree :=
  .node [] [(['q'], .node ['0'] []), (['r'], .node [] [(['v'], .node ['1'] [])])]

theorem memberlessTree_distinct : memberlessTree.Distinct := by
  have hr : (LTree.node [] [(['v'], .node ['1'] [])] : Ptree).Distinct :=
    LTree.distinct_singleton (LTree.distinct_leaf _) _ _
  apply LTree.Distinct.node (by decide)
  simp [LTree.distinct_leaf, hr]

/-- The stored root `r` is saved again with the placeholder `m`, under which nothing was stored. -/
theorem saving_keeps_placeholders_iff_sample :
    KeepsPlaceholders (ownerOfM none) memberlessTree
      (finalState ((EntitySerializer.serialize boostPaths (propertyAdapter Path)
        (Json.ofText storedTree []) (ownerOfM none)).run
          (storedState.setTree memberlessTree))).tree := by
  have hm : ∀ e, (none : Option (Entity Unit Str)) = some e → e = entityM := by
    intro e he
    cases he
  apply ((saving_keeps_placeholders_iff boostPaths (Json.ofText storedTree []) plainEngine crc32
    (ownerOfM none)).1 (propertyAdapter Path) (storedState.setTree memberlessTree)
    (ownerOfM_saveable hm _ _) memberlessTree_distinct).mpr
  intro k hk
  obtain rfl : k = ['m'] := (Prod.mk.inj (List.mem_singleton.mp hk)).1
  rfl

/-- The root `r` is saved with its member `m` not loaded: the stored `m` is lost. -/
theorem saving_loses_placeholder :
    ¬ KeepsPlaceholders (ownerOfM none) storedTree
      (finalState ((EntitySerializer.serialize boostPaths (propertyAdapter Path)
        (Json.ofText storedTree []) (ownerOfM none)).run storedState)).tree := by
  intro hkeeps
  have hm := hkeeps ['m'] (.node [] [(['v'], .node ['3'] [])]) (by simp [ownerOfM]) rfl
  cases hm

end Adapters

end Azulejo
