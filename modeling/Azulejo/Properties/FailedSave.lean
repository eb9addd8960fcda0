import Azulejo.Properties.RootLoading

/-!
# Saves that fail on the way

The traversal replaces a node of the live hierarchy before it calls the `Save` that fills it. A save
that stops at a `Save` that throws has replaced the node of its root, and nothing of what was there
before is left. `StoppedAs` says node by node which nodes such a save leaves behind: only a hierarchy
in which an earlier one has left such a node is as it was.
-/

namespace Azulejo

open AssocList Stateful

variable {T D C W : Type}

/-! ## Where a save stops -/

section Stops

variable (A : Adapter T D C) (directory : Str → C)

mutual
/-- A save that returns leaves `node`: what the entity's `Save` makes of an empty node, with the
nodes of its members put in at their keys. -/
def SavedAs : Entity T D → Str → Ptree → Prop
  | .mk key type data membersMap _, parentKey, node =>
    let searchPath := searchPathOf parentKey key
    key ≠ [] ∧ ∃ own, (A.save type data (directory searchPath)).run LTree.empty = .ok () own ∧
      MembersSavedAs membersMap searchPath own node
def MembersSavedAs : List (Key × Option (Entity T D)) → Str → Ptree → Ptree → Prop
  | [], _, own, node => node = own
  | (_, none) :: members, searchPath, own, node => MembersSavedAs members searchPath own node
  | (_, some member) :: members, searchPath, own, node =>
    if A.implements member.type then
      ∃ c, SavedAs member searchPath c ∧
        MembersSavedAs members searchPath (own.set (member.key.splitOn '.') c) node
    else MembersSavedAs members searchPath own node
end

mutual
/-- A `Save` throws: the entity's own, or, when it returns, the first one below that does not. -/
def SaveThrows : Entity T D → Str → Prop
  | .mk key type data membersMap _, parentKey =>
    let searchPath := searchPathOf parentKey key
    key ≠ [] ∧
      ((∃ err node, (A.save type data (directory searchPath)).run LTree.empty = .error err node) ∨
        (∃ own, (A.save type data (directory searchPath)).run LTree.empty = .ok () own) ∧
          MemberSaveThrows membersMap searchPath)
def MemberSaveThrows : List (Key × Option (Entity T D)) → Str → Prop
  | [], _ => False
  | (_, none) :: members, searchPath => MemberSaveThrows members searchPath
  | (_, some member) :: members, searchPath =>
    if A.implements member.type then
      SaveThrows member searchPath ∨
        (∃ c, SavedAs A directory member searchPath c) ∧ MemberSaveThrows members searchPath
    else MemberSaveThrows members searchPath
end

mutual
/-- The node is one that a save of the entity has left when a `Save` threw: what this `Save` made of
an empty node, or, below the entity's own properties, the nodes of the members before the one where
it stopped, as they are saved, and that member's node, left by a save that stopped in turn. There is
nothing of the members after it. -/
def StoppedAs : Entity T D → Str → Ptree → Prop
  | .mk key type data membersMap _, parentKey, node =>
    let searchPath := searchPathOf parentKey key
    key ≠ [] ∧
      ((∃ err, (A.save type data (directory searchPath)).run LTree.empty = .error err node) ∨
        ∃ own, (A.save type data (directory searchPath)).run LTree.empty = .ok () own ∧
          MembersStoppedAs membersMap searchPath own node)
def MembersStoppedAs : List (Key × Option (Entity T D)) → Str → Ptree → Ptree → Prop
  | [], _, _, _ => False
  | (_, none) :: members, searchPath, own, node => MembersStoppedAs members searchPath own node
  | (_, some member) :: members, searchPath, own, node =>
    if A.implements member.type then
      (∃ c, StoppedAs member searchPath c ∧ node = own.set (member.key.splitOn '.') c) ∨
        ∃ c, SavedAs A directory member searchPath c ∧
          MembersStoppedAs members searchPath (own.set (member.key.splitOn '.') c) node
    else MembersStoppedAs members searchPath own node
end

variable {A directory}

mutual
theorem exists_stoppedAs : ∀ (e : Entity T D) {parentKey : Str},
    SaveThrows A directory e parentKey → ∃ node, StoppedAs A directory e parentKey node
  | .mk key type data membersMap _, parentKey, h => by
    simp only [SaveThrows] at h
    simp only [StoppedAs]
    obtain ⟨hkey, ⟨err, node, hthrows⟩ | ⟨⟨own, hown⟩, hmembers⟩⟩ := h
    · exact ⟨node, hkey, .inl ⟨err, hthrows⟩⟩
    · obtain ⟨node, hnode⟩ := exists_membersStoppedAs membersMap hmembers own
      exact ⟨node, hkey, .inr ⟨own, hown, hnode⟩⟩
theorem exists_membersStoppedAs : ∀ (members : List (Key × Option (Entity T D)))
    {searchPath : Str}, MemberSaveThrows A directory members searchPath →
      ∀ own, ∃ node, MembersStoppedAs A directory members searchPath own node
  | [], _, h, _ => by
    simp only [MemberSaveThrows] at h
  | (_, none) :: members, _, h, own => by
    simp only [MemberSaveThrows] at h
    simp only [MembersStoppedAs]
    exact exists_membersStoppedAs members h own
  | (_, some member) :: members, searchPath, h, own => by
    simp only [MemberSaveThrows] at h
    simp only [MembersStoppedAs]
    split at h
    · rename_i himp
      simp only [himp, if_true]
      rcases h with h | ⟨⟨c, hc⟩, hmembers⟩
      · obtain ⟨c, hc⟩ := exists_stoppedAs member h
        exact ⟨_, .inl ⟨c, hc, rfl⟩⟩
      · obtain ⟨node, hnode⟩ := exists_membersStoppedAs members hmembers
          (own.set (member.key.splitOn '.') c)
        exact ⟨node, .inr ⟨c, hc, hnode⟩⟩
    · rename_i himp
      simp only [himp]
      exact exists_membersStoppedAs members h own
end

/-! ### Trees with plain keys -/

/-- The members' keys are plain, distinct and those they were aggregated under, and no property of
`node` has the name of one. -/
structure KeysApart (A : Adapter T D C) (members : List (Key × Option (Entity T D)))
    (node : Ptree) : Prop where
  nodup : (keys members).Nodup
  plain : ∀ k m, Visited A members k m → PlainKey k
  carry : ∀ k m, Visited A members k m → m.key = k
  names : ∀ k ∈ node.labels, k ∉ keys members

theorem KeysApart.of_cons {p : Key × Option (Entity T D)}
    {members : List (Key × Option (Entity T D))} {node : Ptree}
    (h : KeysApart A (p :: members) node) : KeysApart A members node where
  nodup := (List.nodup_cons.mp h.nodup).2
  plain k m hm := h.plain k m hm.cons
  carry k m hm := h.carry k m hm.cons
  names k hk hmem := h.names k hk (List.mem_cons_of_mem p.1 hmem)

/-- The node of a member becomes the last child. -/
theorem KeysApart.set_eq {k : Key} {m : Entity T D} {members : List (Key × Option (Entity T D))}
    {node : Ptree} (h : KeysApart A ((k, some m) :: members) node)
    (himp : A.implements m.type = true) (c : Ptree) :
    node.set (m.key.splitOn '.') c = node.addChildren [(m.key, c)] ∧
      KeysApart A members (node.addChildren [(m.key, c)]) := by
  have hvisited : Visited A ((k, some m) :: members) k m := ⟨List.mem_cons_self, himp⟩
  have hkey : m.key = k := h.carry k m hvisited
  have hnew : k ∉ node.labels := fun hk => h.names k hk (by simp)
  rw [hkey, List.splitOn_eq_singleton (h.plain k m hvisited).2]
  refine ⟨LTree.set_singleton_of_not_mem hnew c, { h.of_cons with names := ?_ }⟩
  intro j hj
  rw [LTree.labels_addChildren, List.mem_append] at hj
  rcases hj with hj | hj
  · exact h.of_cons.names j hj
  · obtain rfl : j = k := List.mem_singleton.mp hj
    exact (List.nodup_cons.mp h.nodup).1

variable (A directory) in
/-- The children for the members that were reached, in key order, the last of them left by a save
that stopped. -/
def ChildrenStoppedAs : List (Key × Option (Entity T D)) → Str → List (Key × Ptree) → Prop
  | [], _, _ => False
  | (_, none) :: members, searchPath, cs => ChildrenStoppedAs members searchPath cs
  | (_, some member) :: members, searchPath, cs =>
    if A.implements member.type then
      (∃ c, cs = [(member.key, c)] ∧ StoppedAs A directory member searchPath c) ∨
        ∃ c more, cs = (member.key, c) :: more ∧ SavedAs A directory member searchPath c ∧
          ChildrenStoppedAs members searchPath more
    else ChildrenStoppedAs members searchPath cs

/-- Where keys are plain, such a node has the properties of the entity and then one child for each
member that was reached: none for the members after it, and none of an earlier hierarchy. -/
theorem membersStoppedAs_iff_children {members : List (Key × Option (Entity T D))} {own : Ptree}
    (h : KeysApart A members own) (searchPath : Str) (node : Ptree) :
    MembersStoppedAs A directory members searchPath own node ↔
      ∃ cs, node = own.addChildren cs ∧ ChildrenStoppedAs A directory members searchPath cs := by
  induction members generalizing own with
  | nil => simp only [MembersStoppedAs, ChildrenStoppedAs, and_false, exists_false]
  | cons p members ih =>
    obtain ⟨k, pointer⟩ := p
    cases pointer with
    | none => simpa only [MembersStoppedAs, ChildrenStoppedAs] using ih h.of_cons
    | some m =>
      simp only [MembersStoppedAs, ChildrenStoppedAs]
      split
      · rename_i himp
        constructor
        · rintro (⟨c, hc, rfl⟩ | ⟨c, hc, hnode⟩)
          · exact ⟨_, (h.set_eq himp c).1, .inl ⟨c, rfl, hc⟩⟩
          · obtain ⟨hset, hapart⟩ := h.set_eq himp c
            rw [hset, ih hapart] at hnode
            obtain ⟨more, rfl, hmore⟩ := hnode
            exact ⟨_, (LTree.addChildren_append _ [_] _).symm, .inr ⟨c, more, rfl, hc, hmore⟩⟩
        · rintro ⟨cs, rfl, ⟨c, rfl, hc⟩ | ⟨c, more, rfl, hc, hmore⟩⟩
          · exact .inl ⟨c, hc, (h.set_eq himp c).1.symm⟩
          · obtain ⟨hset, hapart⟩ := h.set_eq himp c
            refine .inr ⟨c, hc, ?_⟩
            rw [hset, ih hapart]
            exact ⟨more, LTree.addChildren_append _ [_] _, hmore⟩
      · exact ih h.of_cons

end Stops

/-! ## What a save leaves -/

section Save

variable {A : Adapter T D C} {target : Path → Str → C}

/-- The names on the path of a member's node. -/
theorem splitOn_searchPathOf {parentKey : Str} (h : parentKey ≠ []) (key : Key) :
    (searchPathOf parentKey key).splitOn '.' = parentKey.splitOn '.' ++ key.splitOn '.' := by
  unfold searchPathOf
  rw [if_neg h]
  exact List.splitOn_append_cons_self parentKey key

/-- The hierarchy with the node at the path `names` set to `node`. -/
def SaveState.setAt (names : List Key) (s : SaveState W) (node : Ptree) : SaveState W :=
  s.setTree (s.tree.set names node)

/-- A node below one that was set changes that one. -/
theorem SaveState.setAt_append (names below : List Key) (s : SaveState W) (node c : Ptree) :
    (s.setAt names node).setAt (names ++ below) c = s.setAt names (node.set below c) :=
  congrArg s.setTree (LTree.set_set_append names below s.tree node c)

theorem SaveState.setAt_eq_self_iff {names : List Key} {s : SaveState W} {node : Ptree} :
    (s.setAt names node).hierarchy = s.hierarchy ↔ s.tree.get? names = some node := by
  rw [← LTree.set_eq_self_iff]
  constructor
  · exact congrArg EntityHierarchy.serializationStructure
  · intro h
    rw [SaveState.setAt, h, SaveState.setTree_tree]

theorem onNewChild_run (path : Str) (x : EStateM Exception Ptree Unit) (s : SaveState W) :
    (onNewChild boostPaths path x).run s =
      match x.run LTree.empty with
      | .ok u node => .ok u (s.setAt (path.splitOn '.') node)
      | .error err node => .error err (s.setAt (path.splitOn '.') node) := by
  unfold onNewChild
  rw [zoom_run]
  cases x.run LTree.empty <;> rfl

mutual
theorem saveWithParentKey_savedAs : ∀ (e : Entity T D) {parentKey : Str} {node : Ptree}
    (s : SaveState W), SavedAs A (target s.hierarchy.serializationPath) e parentKey node →
      ∃ calls, (saveWithParentKey boostPaths A target (pure ()) e parentKey).run s =
        .ok calls (s.setAt ((searchPathOf parentKey e.key).splitOn '.') node)
  | .mk key type data membersMap _, parentKey, node, s, h => by
    simp only [SavedAs] at h
    obtain ⟨hkey, own, hown, hmembers⟩ := h
    have hpath : searchPathOf parentKey key ≠ [] := searchPathOf_ne_nil key (.inr hkey)
    have hput := onNewChild_run (searchPathOf parentKey key) (A.save type data
      (target s.hierarchy.serializationPath (searchPathOf parentKey key))) s
    rw [hown] at hput
    obtain ⟨calls, hloop⟩ := saveMembers_membersSavedAs membersMap s hpath hmembers
    simp only [saveWithParentKey, if_neg hkey, Entity.key_mk]
    rw [bind_ok (EStateM.run_get s), bind_ok hput, bind_ok hloop]
    split <;> exact ⟨_, rfl⟩
theorem saveMembers_membersSavedAs : ∀ (members : List (Key × Option (Entity T D)))
    {searchPath : Str} {own node : Ptree} (s : SaveState W), searchPath ≠ [] →
      MembersSavedAs A (target s.hierarchy.serializationPath) members searchPath own node →
      ∃ calls, (saveMembers boostPaths A target (pure ()) members searchPath).run
          (s.setAt (searchPath.splitOn '.') own) =
        .ok calls (s.setAt (searchPath.splitOn '.') node)
  | [], _, own, node, s, _, h => by
    simp only [MembersSavedAs] at h
    subst h
    simp only [saveMembers]
    exact ⟨_, rfl⟩
  | (_, none) :: members, _, _, _, s, hpath, h => by
    simp only [MembersSavedAs] at h
    simp only [saveMembers]
    exact saveMembers_membersSavedAs members s hpath h
  | (_, some member) :: members, searchPath, own, node, s, hpath, h => by
    simp only [MembersSavedAs] at h
    simp only [saveMembers]
    split at h
    · rename_i himp
      obtain ⟨c, hc, hmembers⟩ := h
      obtain ⟨first, hfirst⟩ := saveWithParentKey_savedAs member
        (s.setAt (searchPath.splitOn '.') own) hc
      rw [splitOn_searchPathOf hpath, SaveState.setAt_append] at hfirst
      obtain ⟨more, hmore⟩ := saveMembers_membersSavedAs members s hpath hmembers
      rw [if_pos himp, bind_ok hfirst, bind_ok hmore]
      exact ⟨_, rfl⟩
    · rename_i himp
      rw [if_neg himp]
      exact saveMembers_membersSavedAs members s hpath h
end

mutual
theorem saveWithParentKey_stoppedAs : ∀ (e : Entity T D) {parentKey : Str} {node : Ptree}
    (s : SaveState W), StoppedAs A (target s.hierarchy.serializationPath) e parentKey node →
      ∃ err, (saveWithParentKey boostPaths A target (pure ()) e parentKey).run s =
        .error err (s.setAt ((searchPathOf parentKey e.key).splitOn '.') node)
  | .mk key type data membersMap _, parentKey, node, s, h => by
    simp only [StoppedAs] at h
    have hput := onNewChild_run (searchPathOf parentKey key) (A.save type data
      (target s.hierarchy.serializationPath (searchPathOf parentKey key))) s
    obtain ⟨hkey, ⟨err, hthrows⟩ | ⟨own, hown, hmembers⟩⟩ := h
    · rw [hthrows] at hput
      simp only [saveWithParentKey, if_neg hkey, Entity.key_mk]
      rw [bind_ok (EStateM.run_get s), bind_error hput]
      exact ⟨err, rfl⟩
    · have hpath : searchPathOf parentKey key ≠ [] := searchPathOf_ne_nil key (.inr hkey)
      rw [hown] at hput
      obtain ⟨err, hloop⟩ := saveMembers_membersStoppedAs membersMap s hpath hmembers
      simp only [saveWithParentKey, if_neg hkey, Entity.key_mk]
      rw [bind_ok (EStateM.run_get s), bind_ok hput, bind_error hloop]
      exact ⟨err, rfl⟩
theorem saveMembers_membersStoppedAs : ∀ (members : List (Key × Option (Entity T D)))
    {searchPath : Str} {own node : Ptree} (s : SaveState W), searchPath ≠ [] →
      MembersStoppedAs A (target s.hierarchy.serializationPath) members searchPath own node →
      ∃ err, (saveMembers boostPaths A target (pure ()) members searchPath).run
          (s.setAt (searchPath.splitOn '.') own) =
        .error err (s.setAt (searchPath.splitOn '.') node)
  | [], _, _, _, _, _, h => by
    simp only [MembersStoppedAs] at h
  | (_, none) :: members, _, _, _, s, hpath, h => by
    simp only [MembersStoppedAs] at h
    simp only [saveMembers]
    exact saveMembers_membersStoppedAs members s hpath h
  | (_, some member) :: members, searchPath, own, node, s, hpath, h => by
    simp only [MembersStoppedAs] at h
    simp only [saveMembers]
    split at h
    · rename_i himp
      rw [if_pos himp]
      rcases h with ⟨c, hc, rfl⟩ | ⟨c, hc, hmembers⟩
      · obtain ⟨err, hstops⟩ := saveWithParentKey_stoppedAs member
          (s.setAt (searchPath.splitOn '.') own) hc
        rw [splitOn_searchPathOf hpath, SaveState.setAt_append] at hstops
        rw [bind_error hstops]
        exact ⟨err, rfl⟩
      · obtain ⟨first, hfirst⟩ := saveWithParentKey_savedAs member
          (s.setAt (searchPath.splitOn '.') own) hc
        rw [splitOn_searchPathOf hpath, SaveState.setAt_append] at hfirst
        obtain ⟨err, hmore⟩ := saveMembers_membersStoppedAs members s hpath hmembers
        rw [bind_ok hfirst, bind_error hmore]
        exact ⟨err, rfl⟩
    · rename_i himp
      rw [if_neg himp]
      exact saveMembers_membersStoppedAs members s hpath h
end

/-- A save of a root that stops leaves such a node under the root's key. -/
theorem saveRoot_stops {e : Entity T D} {s : SaveState W} {node : Ptree}
    (h : StoppedAs A (target s.hierarchy.serializationPath) e [] node)
    (finish : EStateM Exception (SaveState W) Unit) :
    ∃ err, (saveWithParentKey boostPaths A target finish e []).run s =
      .error err (s.setAt (e.key.splitOn '.') node) := by
  obtain ⟨err, hrun⟩ := saveWithParentKey_stoppedAs e s h
  refine ⟨err, ?_⟩
  rw [saveWithParentKey_finish]
  exact bind_error hrun

/-! ## The hierarchy after a failed save -/

variable (A target) in
/-- When the save ends with an exception of some entity's `Save`, the hierarchy is as before. -/
def FailedSaveKeeps {α : Type} (save : EStateM Exception (SaveState W) α) (e : Entity T D)
    (s : SaveState W) : Prop :=
  SaveThrows A (target s.hierarchy.serializationPath) e [] →
    ∀ err s', save.run s = .error err s' → s'.hierarchy = s.hierarchy

variable (A target) in
/-- Under the root's key there is a node that a save of `e` has left when a `Save` threw. -/
def HoldsStopped (e : Entity T D) (s : SaveState W) : Prop :=
  ∃ node, s.tree.get? (e.key.splitOn '.') = some node ∧
    StoppedAs A (target s.hierarchy.serializationPath) e [] node

theorem SaveThrows.key_ne {e : Entity T D} {directory : Str → C} {parentKey : Str}
    (h : SaveThrows A directory e parentKey) : e.key ≠ [] := by
  cases e with
  | mk key type data membersMap ctors =>
    simp only [SaveThrows] at h
    exact h.1

theorem failedSaveKeeps_iff {finish : EStateM Exception (SaveState W) Unit} {e : Entity T D}
    {s : SaveState W} {save : EStateM Exception (SaveState W) (LTree Key (SaveCall C))}
    (hsave : e.key ≠ [] →
      save.run s = (saveWithParentKey boostPaths A target finish e []).run s) :
    FailedSaveKeeps A target save e s ↔
      (SaveThrows A (target s.hierarchy.serializationPath) e [] → HoldsStopped A target e s) := by
  constructor
  · intro hkeeps hthrows
    obtain ⟨node, hnode⟩ := exists_stoppedAs e hthrows
    obtain ⟨err, hrun⟩ := saveRoot_stops hnode finish
    rw [← hsave hthrows.key_ne] at hrun
    exact ⟨node, SaveState.setAt_eq_self_iff.mp (hkeeps hthrows err _ hrun), hnode⟩
  · intro hholds hthrows err s' hrun
    obtain ⟨node, hget, hnode⟩ := hholds hthrows
    obtain ⟨err', hrun'⟩ := saveRoot_stops hnode finish
    rw [hsave hthrows.key_ne, hrun'] at hrun
    cases hrun
    exact SaveState.setAt_eq_self_iff.mpr hget

/-- After a save that stopped, the same one changes nothing when it stops again. -/
theorem holdsStopped_of_saveThrows {e : Entity T D} {s : SaveState W}
    (hthrows : SaveThrows A (target s.hierarchy.serializationPath) e [])
    (finish : EStateM Exception (SaveState W) Unit) :
    HoldsStopped A target e
      (finalState ((saveWithParentKey boostPaths A target finish e []).run s)) := by
  obtain ⟨node, hnode⟩ := exists_stoppedAs e hthrows
  obtain ⟨err, hrun⟩ := saveRoot_stops hnode finish
  rw [hrun]
  exact ⟨node, LTree.get?_set_self _ s.tree node, hnode⟩

/-- A later save of another root stores what the failed one left. -/
theorem truncated_stored_later {finish : EStateM Exception (SaveState W) Unit}
    (hfinish : Keeps SaveState.tree finish) {e other : Entity T D}
    (hother : PlainKey other.key) (hne : e.key ≠ other.key) (s : SaveState W) (node : Ptree) :
    (finalState ((saveWithParentKey boostPaths A target finish other []).run
      (s.setAt [e.key] node))).tree.get? [e.key] = some node := by
  obtain ⟨saved, hsaved⟩ := @exists_node_saveRoot T D C W A target finish hfinish
    s.hierarchy.serializationPath other hother
  rw [hsaved (s.setAt [e.key] node) rfl, LTree.set_singleton, LTree.get?_cons, LTree.children_node,
    lookup_setIn_ne hne]
  have hset := LTree.get?_set_self [e.key] s.tree node
  rw [LTree.get?_cons] at hset
  exact hset

end Save

/-- When `Serialize` or `Persist` ends with an exception of the `Save` of some entity, the hierarchy
is as before exactly if it had under the root's key, as the call found it, a node that an earlier
save, stopped at the same `Save`, has left. -/
theorem failed_save_keeps_hierarchy_iff {T D : Type} (J : Json) (E : SqliteEngine)
    (crc : List UInt8 → UInt32) (e : Entity T D) :
    (∀ (A : Adapter T D Path) (s : SaveState JsonFiles),
      FailedSaveKeeps A directoryOf (EntitySerializer.serialize boostPaths A J e) e s ↔
        (SaveThrows A (directoryOf s.hierarchy.serializationPath) e [] →
          HoldsStopped A directoryOf e s)) ∧
    (∀ (A : Adapter T D Unit) (s : SaveState PersisterWorld),
      FailedSaveKeeps A (fun _ _ => ()) (EntityPersister.persist boostPaths A J E crc e) e s ↔
        (s.world.database.isOpen = true → SaveThrows A (fun _ => ()) e [] →
          HoldsStopped A (fun _ _ => ()) e s)) := by
  refine ⟨fun A s => ?_, fun A s => ?_⟩
  · have hrun : e.key ≠ [] → (EntitySerializer.serialize boostPaths A J e).run s =
        (EntitySerializer.serializeWithParentKey boostPaths A J e []).run s := by
      intro hkey
      unfold EntitySerializer.serialize
      rw [if_neg hkey]
    exact failedSaveKeeps_iff hrun
  · by_cases hopen : s.world.database.isOpen = true
    · have hrun : e.key ≠ [] → (EntityPersister.persist boostPaths A J E crc e).run s =
          (EntityPersister.persistWithParentKey boostPaths A J E crc e []).run s := by
        intro hkey
        unfold EntityPersister.persist
        rw [bind_ok (EStateM.run_get s)]
        simp [hopen, hkey]
      rw [failedSaveKeeps_iff hrun]
      exact ⟨fun h _ => h, fun h => h hopen⟩
    · -- refused before any `Save`
      refine iff_of_true ?_ fun h => absurd h hopen
      intro _ err s' hfails
      unfold EntityPersister.persist at hfails
      rw [bind_ok (EStateM.run_get s)] at hfails
      simp only [Bool.not_eq_true] at hopen
      simp only [hopen, Bool.not_false, if_true] at hfails
      cases hfails
      rfl

/-- `propertyAdapter`, but the entity with the data `2` cannot be saved. -/
def refusingAdapter (C : Type) : Adapter Unit Str C where
  implements _ := true
  save _ data _ :=
    if data = ['2'] then throw (.runtimeError "cannot save".toList)
    else modify fun node => node.addChildren [(['v'], .node data [])]
  load _ _ _ := pure ()
  entityClass := ()

/-- The `Save` of the member `m` throws: what was stored of `r` and `m` is gone. -/
theorem failed_save_loses_root :
    ¬ ∀ (A : Adapter Unit Str Path) (J : Json) (e : Entity Unit Str) (s : SaveState JsonFiles),
      FailedSaveKeeps A directoryOf (EntitySerializer.serialize boostPaths A J e) e s := by
  intro h
  have hthrows : SaveThrows (refusingAdapter Path) (directoryOf []) (ownerOfM (some entityM)) [] :=
    ⟨by decide, .inr ⟨⟨_, rfl⟩, .inl ⟨by decide, .inl ⟨_, _, rfl⟩⟩⟩⟩
  have hkeeps := h (refusingAdapter Path) (Json.ofText storedTree []) (ownerOfM (some entityM))
    storedState hthrows _ _ rfl
  have hnode := congrArg (fun h => (h.serializationStructure.get? [['r'], ['v']]).isSome) hkeeps
  exact absurd hnode (by decide)

end Azulejo
